import Docwright.Source.Name

/-!
# Languages

Which languages can be outlined, by the extensions of their files, and how prompts and pages speak
of them. A `Dialect` is a family of languages that is outlined by one set of rules; the first
dialect in the order of `Dialect.all` that knows an extension takes the file.
-/

namespace Docwright

/-- A family of languages that is outlined by one set of rules. -/
inductive Dialect
  | typeScript
  | javaScript
  | python
  deriving DecidableEq, Repr

/-- A grammar by which a syntax tree is made. -/
inductive Grammar
  | javaScript
  | typeScript
  | tsx
  | python
  deriving DecidableEq, Repr

namespace Dialect

/-- The dialects in the order in which they are asked. -/
def all : List Dialect := [typeScript, javaScript, python]

/-- The extensions of a dialect and the names of their languages. -/
def languages : Dialect → List (String × String)
  | javaScript =>
    [(".js", "JavaScript"), (".jsx", "React JSX"), (".mjs", "JavaScript"), (".cjs", "JavaScript")]
  | typeScript => [(".ts", "TypeScript"), (".tsx", "React TypeScript")]
  | python => [(".py", "Python")]

/-- The extension by which a file finds its dialect. -/
def extensionOf (path : String) : String :=
  let base := Text.lower (Source.baseName (Source.withSlashes path.toList))
  String.ofList <|
    if base.contains '.' then '.' :: (base.reverse.takeWhile (· != '.')).reverse else []

/-- The name of the language of a file, if the dialect knows its extension. -/
def language? (d : Dialect) (path : String) : Option String :=
  d.languages.lookup (extensionOf path)

/-- The name of the language of a file as far as the dialect knows it. -/
def languageOf (d : Dialect) (path : String) : String :=
  (d.language? path).getD "Unknown"

/-- The dialect that takes a file. -/
def of? (path : String) : Option Dialect :=
  all.find? fun d => (d.language? path).isSome

/-- The grammar for a file of the dialect. -/
def grammarOf (d : Dialect) (path : String) : Grammar :=
  match d with
  | javaScript => .javaScript
  | python => .python
  | typeScript =>
    if ".tsx".toList.isSuffixOf (Text.lower path.toList) then .tsx else .typeScript

end Dialect

namespace Source

/-- The name by which prompts call the language of a file. -/
def languageName (path : String) : String :=
  let extension := String.ofList (splitExtension (Text.lower path.toList)).2
  (Dialect.all.findSome? (·.languages.lookup extension)).getD "source"

/-- The word after the opening fence of a code block in the given language. -/
def fenceWord (language : String) : String :=
  match language with
  | "JavaScript" => "javascript"
  | "React JSX" => "jsx"
  | "TypeScript" => "typescript"
  | "React TypeScript" => "tsx"
  | "Python" => "python"
  | _ => "text"

end Source

end Docwright
