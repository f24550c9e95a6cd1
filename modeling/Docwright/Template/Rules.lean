import Docwright.Crash
import Docwright.Page.Unit

/-!
# Templates

The messages of a prompt are made from templates: texts in which values of a unit are named between
double braces, and in which a part may depend on the kind of the unit.

What makes texts of templates is an `Engine`. Nothing is known about it but that it keeps to the
rules of the language as far as they are used here (`Renders`); what it makes of any other text, and
whether it makes anything of it, is left open. In particular no rule looks into a value: it is put
in place once and as it is.
-/

namespace Docwright.Prompt

/-- What templates can speak of. -/
structure Context where
  kind : Page.UnitKind
  label : String
  fileCount : Nat
  /-- The languages of the files, each once. -/
  languages : List String
  content : String

namespace Context

/-- The language of the first file. -/
def language (c : Context) : String :=
  c.languages.headD "source"

/-- The value with the given name; an unknown one is empty. -/
def value (c : Context) (name : String) : String :=
  match name with
  | "kind" => c.kind.name
  | "label" => c.label
  | "filename" => c.label
  | "file_count" => toString c.fileCount
  | "language" => c.language
  | "languages" => if c.languages.isEmpty then "source" else ", ".intercalate c.languages
  | "fence" => Source.fenceWord c.language
  | "content" => c.content
  | _ => ""

/-- The names of values. -/
def names : List String :=
  ["kind", "label", "filename", "file_count", "language", "languages", "fence", "content"]

/-- The ending of the word for the files. -/
def plural (c : Context) : List Char :=
  if c.fileCount == 1 then [] else ['s']

end Context

/-! ### Markup -/

/-- Text that is given in parts. -/
def text (parts : List String) : List Char :=
  parts.flatMap String.toList

/-- How the value with a name is asked for. -/
def slot (name : String) : List Char :=
  "\x7b\x7b ".toList ++ name.toList ++ " \x7d\x7d".toList

/-- What asks for the ending of the word for the files. -/
def pluralWords : List Char := "\"s\" if file_count != 1".toList

/-- How the ending of the word for the files is asked for. -/
def pluralSlot : List Char :=
  "\x7b\x7b ".toList ++ pluralWords ++ " \x7d\x7d".toList

/-- A mark between a brace with a percent sign and its counterpart. -/
def mark (words : List Char) : List Char :=
  "\x7b% ".toList ++ words ++ " %\x7d".toList

/-- What asks whether a unit is of a kind. -/
def kindWords (kind : Page.UnitKind) : List Char :=
  "if kind == \"".toList ++ kind.name.toList ++ "\"".toList

/-- What leads to the other of two ways. -/
def elseWords : List Char := "else".toList

/-- What ends a part that is one of two ways. -/
def endWords : List Char := "endif".toList

/-- A part that says one thing about units of a kind and another about all others. -/
def choice (kind : Page.UnitKind) (yes no : List Char) : List Char :=
  mark (kindWords kind) ++ (yes ++ (mark elseWords ++ (no ++ mark endWords)))

/-- A part that is there only for units of a kind. -/
def only (kind : Page.UnitKind) (yes : List Char) : List Char :=
  mark (kindWords kind) ++ (yes ++ mark endWords)

/-! ### The rules of the language -/

/-- Text without markup. -/
def Plain (t : List Char) : Prop :=
  ∀ c ∈ t, c ≠ '\x7b' ∧ c ≠ '\r'

instance (t : List Char) : Decidable (Plain t) :=
  List.decidableBAll _ t

/-- Text stands as it is in front of `rest`: nothing, the last line feed or a value follows, or a
mark on the same line. Blanks alone on a line in front of a mark would be left out. -/
def Leads (t rest : List Char) : Prop :=
  rest = [] ∧ t.getLast? ≠ some '\n' ∨ rest = ['\n'] ∨ ['\x7b', '\x7b'] <+: rest ∨
    ['\x7b', '%'] <+: rest ∧ '\n' ∉ t ∧ ∃ c ∈ t, Text.isBlank c = false

instance (t rest : List Char) : Decidable (Leads t rest) :=
  letI : Decidable (∃ c ∈ t, Text.isBlank c = false) := List.decidableBEx _ t
  inferInstanceAs (Decidable (_ ∨ _ ∨ _ ∨ _))

/-- What follows markup does not start with blanks in front of a mark. -/
def Parted (rest : List Char) : Prop :=
  ¬['\x7b', '%'] <+: Text.stripLeft rest

instance (rest : List Char) : Decidable (Parted rest) :=
  inferInstanceAs (Decidable ¬_)

/-- What may be one of two ways: text and values on one line. -/
inductive Phrase : List Char → Prop
  | empty : Phrase []
  | char {c : Char} {rest : List Char} (hc : c ≠ '\x7b' ∧ c ≠ '\r' ∧ c ≠ '\n') (h : Phrase rest) :
    Phrase (c :: rest)
  | value {name : String} {rest : List Char} (hname : name ∈ Context.names) (h : Phrase rest) :
    Phrase (slot name ++ rest)

/-- The kinds that templates tell apart. -/
def toldKinds : List Page.UnitKind := [.group, .file]

/-- **The rules of the language**: what the text of a template says about a unit. They hold whatever
the values are, and say nothing about texts that are not put together like this. -/
inductive Renders (c : Context) : List Char → List Char → Prop
  | empty : Renders c [] []
  /-- A line feed at the end is left out. -/
  | ending {cs out : List Char} (hlast : cs.getLast? ≠ some '\n') (h : Renders c cs out) :
    Renders c (cs ++ ['\n']) out
  /-- Text stands as it is. -/
  | text {t rest out : List Char} (hplain : Plain t) (hleads : Leads t rest)
    (h : Renders c rest out) : Renders c (t ++ rest) (t ++ out)
  /-- A value is put in place as it is. -/
  | value {name : String} {rest out : List Char} (hname : name ∈ Context.names)
    (hparted : Parted rest) (h : Renders c rest out) :
    Renders c (slot name ++ rest) ((c.value name).toList ++ out)
  /-- The ending of the word for the files is there unless there is one file. -/
  | plural {rest out : List Char} (hparted : Parted rest) (h : Renders c rest out) :
    Renders c (pluralSlot ++ rest) (c.plural ++ out)
  /-- One of two ways is taken, and the line feed behind the last mark is left out. -/
  | choice {kind : Page.UnitKind} {yes no feed said rest out : List Char}
    (hkind : kind ∈ toldKinds) (hyes : Phrase yes) (hno : Phrase no)
    (hsaid : Renders c (if c.kind.name = kind.name then yes else no) said)
    (hfeed : feed = ['\n'] ∨ feed = [] ∧ rest.head? ≠ some '\n') (hparted : Parted rest)
    (h : Renders c rest out) :
    Renders c (Prompt.choice kind yes no ++ (feed ++ rest)) (said ++ out)
  /-- A part for units of a kind is there for these. -/
  | only {kind : Page.UnitKind} {yes feed said rest out : List Char}
    (hkind : kind ∈ toldKinds) (hyes : Phrase yes)
    (hsaid : Renders c (if c.kind.name = kind.name then yes else []) said)
    (hfeed : feed = ['\n'] ∨ feed = [] ∧ rest.head? ≠ some '\n') (hparted : Parted rest)
    (h : Renders c rest out) :
    Renders c (Prompt.only kind yes ++ (feed ++ rest)) (said ++ out)

/-- What makes texts of templates. It keeps to the rules; where these say nothing it may make
anything of a template, or fail. -/
structure Engine where
  /-- What the text of a template comes to. -/
  render : List Char → Context → Except Crash (List Char)
  /-- The engine keeps to the rules. -/
  keeps : ∀ {c : Context} {cs out : List Char}, Renders c cs out → render cs c = .ok out

end Docwright.Prompt
