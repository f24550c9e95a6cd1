import Docwright.Template.Standard

/-!
# Prompts

A prompt is what the service is asked: a system message, a user message and a temperature. There are
two tiers of prompts for a unit, the full one and a simplified one that shows more of the content
and asks for less. Messages are made from templates; a set of templates of one's own is consulted
before the packaged ones. The packaged templates are here as texts: what is made of them is up to
the engine, which is only known to keep to the rules of the language.
-/

namespace Docwright

namespace Prompt

/-- What follows content that was cut. -/
def truncationMark : List Char := "\n\n... (content truncated)".toList

/-- Cuts a text that is longer than a positive limit, and tells whether it did. -/
def truncate (cs : List Char) (limit : Int) : List Char × Bool :=
  if limit ≤ 0 ∨ cs.length ≤ limit then (cs, false)
  else (cs.take limit.toNat ++ truncationMark, true)

/-- The tiers of prompts. -/
inductive Tier
  | full
  | simplified
  deriving DecidableEq, Repr

/-! ### The packaged templates -/

/-- The packaged system message for a feature. -/
def systemGroup : List Char := List.flatten [
  text [
    "You are a documentation expert that creates clear, concise, and helpful markdown ",
    "documentation for code features.\nAnalyze the provided code structure and generate ",
    "comprehensive documentation that explains the purpose, functionality, and relationships ",
    "between components.\nThe code is written in "],
  slot "languages",
  text [
    ".\nStart with a level-1 heading naming the feature. Do not emit YAML front matter; it ",
    "is added afterwards."],
  ['\n']]

/-- The packaged user message for a feature. -/
def userGroup : List Char := List.flatten [
  "Generate comprehensive documentation for the '".toList, slot "label",
  "' feature of this application. It spans ".toList, slot "file_count", " file".toList, pluralSlot,
  ". Here's the code structure:\n\n".toList, slot "content", ['\n']]

/-- The packaged system message for a file. -/
def systemFile : List Char := List.flatten [
  "You are a documentation specialist for ".toList, slot "language",
  text [
    " code.\nYour task is to create clear, comprehensive documentation for a code file in ",
    "Docusaurus-styled markdown format.\n\nFollow this structure:\n",
    "1. Start with a level-1 heading with the filename\n",
    "2. Add a brief description of the file's purpose\n",
    "3. Document the main components, functions, or classes with level-2 headings\n",
    "4. For each function/component, include:\n   - Purpose and description\n",
    "   - Parameters with types and descriptions\n",
    "   - Return values with types and descriptions\n",
    "   - An \"Example\" subsection with a usage example in a fenced code block\n",
    "5. Note any dependencies or imports\n",
    "6. Add relevant code snippets using markdown code blocks with "],
  slot "fence",
  text [
    " syntax highlighting\n\nDo not emit YAML front matter; it is added afterwards.\n",
    "Be thorough but concise. Focus on explaining how to use the code, not just describing what ",
    "it does."],
  ['\n']]

/-- The packaged user message for a file. -/
def userFile : List Char := List.flatten [
  "Generate documentation for this ".toList, slot "language", " file: ".toList, slot "filename",
  "\n\n".toList, slot "content", ['\n']]

/-- The packaged system message of the simplified tier. -/
def systemSimplified : List Char := List.flatten [
  "Create documentation for ".toList, choice .group "a code feature".toList "a code file".toList,
  " in markdown format. Include a description of what the ".toList,
  choice .group "feature".toList "file".toList,
  " does and document the main functions/components".toList,
  only .file " with at least one Example in a fenced code block".toList, ".".toList, ['\n']]

/-- The packaged user message of the simplified tier. -/
def userSimplified : List Char := List.flatten [
  "Please document this ".toList,
  choice .group ("feature: ".toList ++ slot "label") ("file: ".toList ++ slot "filename"), ['\n'],
  "\n".toList, slot "content", ['\n']]

/-- The texts of the packaged templates by name. -/
def packaged? (name : String) : Option (List Char) :=
  match name with
  | "system_group.j2" => some systemGroup
  | "user_group.j2" => some userGroup
  | "system_file.j2" => some systemFile
  | "user_file.j2" => some userFile
  | "system_simplified.j2" => some systemSimplified
  | "user_simplified.j2" => some userSimplified
  | _ => none

/-- How prompts are made. -/
structure Settings where
  /-- The most characters of content in a full prompt; no limit unless positive. -/
  truncateChars : Int := 30000
  /-- The most characters of content in a simplified prompt; no limit unless positive. -/
  fallbackTruncateChars : Int := 45000
  /-- The texts of templates of one's own, by name. -/
  templates : List (String × String) := []
  /-- What makes texts of templates. -/
  engine : Engine := .standard

/-- The text of the template with the given name, one's own before the packaged one. -/
def Settings.template? (s : Settings) (name : String) : Option (List Char) :=
  match s.templates.lookup name with
  | some text => some (Text.unifyNewlines text.toList)
  | none => packaged? name

/-- What the template with the given name says, without blanks at its ends. -/
def Settings.say (s : Settings) (name : String) (c : Context) : Except Crash String :=
  match s.template? name with
  | some template => (s.engine.render template c).map fun said ↦ String.ofList (Text.strip said)
  | none => .error .templateMissing

/-- The limit of a tier. -/
def Settings.limit (s : Settings) : Tier → Int
  | .full => s.truncateChars
  | .simplified => s.fallbackTruncateChars

/-- The last part of the names of the templates of a tier. -/
def Tier.templateName (tier : Tier) (kind : Page.UnitKind) : String :=
  match tier with
  | .full => kind.name
  | .simplified => "simplified"

/-- The temperature at which a tier is asked. -/
def Tier.temperature : Tier → Float
  | .full => 0.2
  | .simplified => 0.3

/-- The tier in words. -/
def Tier.words : Tier → String
  | .full => "prompt"
  | .simplified => "simplified prompt"

/-- The languages of the files of a unit, each once, in the order in which they first come up. -/
def languagesOf (u : Page.PageUnit) : List String :=
  (u.files.map Source.languageName).eraseDups

/-- What templates can say about a unit whose content has been cut. -/
def contextOf (u : Page.PageUnit) (content : List Char) : Context where
  kind := u.kind
  label := u.label
  fileCount := u.files.length
  languages := languagesOf u
  content := String.ofList content

end Prompt

/-- What the service is asked. -/
structure Prompt where
  system : String
  user : String
  temperature : Float
  /-- Whether the content was cut. -/
  truncated : Bool

namespace Prompt

/-- The prompt of a tier for a unit, unless a template is missing or cannot be rendered. -/
def build (s : Settings) (tier : Tier) (u : Page.PageUnit) : Except Crash Prompt := do
  let (content, truncated) := truncate u.content.toList (s.limit tier)
  let context := contextOf u content
  let name := tier.templateName u.kind
  let system ← s.say s!"system_{name}.j2" context
  let user ← s.say s!"user_{name}.j2" context
  return ⟨system, user, tier.temperature, truncated⟩

end Prompt

end Docwright
