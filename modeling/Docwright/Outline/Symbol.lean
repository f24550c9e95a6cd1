import Docwright.Json.Basic

/-!
# Symbols

A symbol is a named declaration with the lines it stands on. Classes and interfaces may own other
symbols. `Symbol.make` is the only way a declaration that was read becomes a symbol: it refuses a
symbol without a name and one that owns others without being a container, and it never lets a symbol
end before it starts.
-/

namespace Docwright

/-- What kind of declaration a symbol is. -/
inductive SymbolKind
  | function
  | classKind
  | method
  | interface
  | type
  | enum
  | variable
  deriving DecidableEq, Repr

namespace SymbolKind

/-- All kinds. -/
def all : List SymbolKind := [function, classKind, method, interface, type, enum, .variable]

/-- The name of a kind. -/
def name : SymbolKind → String
  | function => "function"
  | classKind => "class"
  | method => "method"
  | interface => "interface"
  | type => "type"
  | enum => "enum"
  | .variable => "variable"

/-- The kind with the given name. -/
def ofName? (s : String) : Option SymbolKind :=
  all.find? (·.name == s)

/-- Whether symbols of the kind may own others. -/
def isContainer : SymbolKind → Bool
  | classKind => true
  | interface => true
  | _ => false

end SymbolKind

/-- How a symbol is exported from its module. -/
inductive ExportTag
  /-- Under its own name. -/
  | named
  /-- As the default of the module. -/
  | main
  /-- In a way that has no bearing on its label. -/
  | other (mark : String)
  deriving DecidableEq, Repr

namespace ExportTag

/-- The mark of a tag. -/
def mark : ExportTag → String
  | named => "named"
  | main => "default"
  | other mark => mark

/-- The tag with the given mark. -/
def ofMark (mark : String) : ExportTag :=
  if mark == "named" then named else if mark == "default" then main else other mark

end ExportTag

/-- A named declaration with the lines it stands on. -/
inductive Symbol
  | mk (kind : SymbolKind) (name : String) (startLine endLine : Int) (children : List Symbol)
    (exported : Option ExportTag)

/-- Why a declaration is no symbol. -/
inductive SymbolFault
  /-- It has no name. -/
  | unnamed
  /-- It owns others and its kind may not. -/
  | childrenOf (kind : SymbolKind)
  deriving DecidableEq, Repr

/-- The fault in words. -/
def SymbolFault.message : SymbolFault → String
  | unnamed => "SymbolEntry requires a non-empty name"
  | childrenOf kind => s!"{kind.name} entries cannot own children"

namespace Symbol

/-- The kind of declaration. -/
def kind : Symbol → SymbolKind
  | mk kind _ _ _ _ _ => kind

/-- The declared name. -/
def name : Symbol → String
  | mk _ name _ _ _ _ => name

/-- The first line, counted from one. -/
def startLine : Symbol → Int
  | mk _ _ startLine _ _ _ => startLine

/-- The last line, counted from one. -/
def endLine : Symbol → Int
  | mk _ _ _ endLine _ _ => endLine

/-- The symbols that this one owns. -/
def children : Symbol → List Symbol
  | mk _ _ _ _ children _ => children

/-- How the symbol is exported, if it is. -/
def exported : Symbol → Option ExportTag
  | mk _ _ _ _ _ exported => exported

/-- Makes a symbol. -/
def make (kind : SymbolKind) (name : String) (startLine endLine : Int) (children : List Symbol)
    (exported : Option ExportTag) : Except SymbolFault Symbol :=
  if name.isEmpty then .error .unnamed
  else if !children.isEmpty && !kind.isContainer then .error (.childrenOf kind)
  else .ok (mk kind name startLine (max endLine startLine) children exported)

/-- The kind with its export, as one word. -/
def label (s : Symbol) : String :=
  match s.exported with
  | some .main => "default_exported_" ++ s.kind.name
  | some .named => "exported_" ++ s.kind.name
  | _ => s.kind.name

mutual

/-- The symbol and everything below it, each before what it owns. -/
def walk : Symbol → List Symbol
  | mk kind name startLine endLine children exported =>
    mk kind name startLine endLine children exported :: walkAll children

/-- The symbols of a list and everything below them, each before what it owns. -/
def walkAll : List Symbol → List Symbol
  | [] => []
  | s :: rest => walk s ++ walkAll rest

end

mutual

/-- The symbol as structured data; one that owns nothing has no field for it. -/
def toJson : Symbol → Json
  | mk kind name startLine endLine children exported =>
    .object <| [
      ("type", .text (label (mk kind name startLine endLine children exported))),
      ("name", .text name),
      ("startLine", .whole startLine),
      ("endLine", .whole endLine)] ++
      (if children.isEmpty then [] else [("children", .array (toJsonAll children))])

/-- The symbols of a list as structured data. -/
def toJsonAll : List Symbol → List Json
  | [] => []
  | s :: rest => toJson s :: toJsonAll rest

end

end Symbol

/-- The symbols of one source file. -/
structure Outline where
  path : String
  symbols : List Symbol
  /-- The name of the language, where it is known. -/
  language : Option String := none

namespace Outline

/-- The names of all symbols at any depth. -/
def symbolNames (o : Outline) : List String :=
  (Symbol.walkAll o.symbols).map Symbol.name

/-- The outline as structured data. -/
def toJson (o : Outline) : Json :=
  .object [("path", .text o.path), ("entries", .array (Symbol.toJsonAll o.symbols))]

end Outline

end Docwright
