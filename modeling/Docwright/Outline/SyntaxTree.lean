import Docwright.Source.File
import Docwright.Source.Language
import Docwright.Outline.Symbol

/-!
# Syntax trees

A node of a syntax tree has a kind, a span of bytes and lines, perhaps a field name by which its
parent knows it, and children. Trees come from outside, so nothing is taken for granted about them:
a node may be missing from the source, may be flagged as broken, and may have no position.

`Node.isBroken` says whether something is wrong at a node or anywhere below it, and
`Node.firstFault?` finds the first such place without looking into sound subtrees.
-/

namespace Docwright.Outline

/-- A node of a syntax tree. -/
inductive Node
  | mk (kind : String) (named missing flagged placed : Bool) (field : Option String)
    (startByte endByte : Nat) (startRow endRow : Int) (children : List Node)
  deriving Inhabited

namespace Node

/-- The kind of the node, as the grammar calls it. -/
def kind : Node → String
  | mk kind _ _ _ _ _ _ _ _ _ _ => kind

/-- Whether the grammar names the node, as opposed to a sign between others. -/
def isNamed : Node → Bool
  | mk _ named _ _ _ _ _ _ _ _ _ => named

/-- Whether the grammar wanted the node and the source lacks it. -/
def isMissing : Node → Bool
  | mk _ _ missing _ _ _ _ _ _ _ _ => missing

/-- Whether the node is marked as broken for reasons of its own. -/
def isFlagged : Node → Bool
  | mk _ _ _ flagged _ _ _ _ _ _ _ => flagged

/-- Whether the node has a position. -/
def isPlaced : Node → Bool
  | mk _ _ _ _ placed _ _ _ _ _ _ => placed

/-- The name by which the parent knows the node. -/
def field? : Node → Option String
  | mk _ _ _ _ _ field _ _ _ _ _ => field

/-- The first byte of the node. -/
def startByte : Node → Nat
  | mk _ _ _ _ _ _ startByte _ _ _ _ => startByte

/-- The byte after the last of the node. -/
def endByte : Node → Nat
  | mk _ _ _ _ _ _ _ endByte _ _ _ => endByte

/-- The row on which the node starts, counted from zero. -/
def startRow : Node → Int
  | mk _ _ _ _ _ _ _ _ startRow _ _ => startRow

/-- The row on which the node ends, counted from zero. -/
def endRow : Node → Int
  | mk _ _ _ _ _ _ _ _ _ endRow _ => endRow

/-- The nodes directly below. -/
def children : Node → List Node
  | mk _ _ _ _ _ _ _ _ _ _ children => children

/-- The named nodes directly below. -/
def namedChildren (n : Node) : List Node :=
  n.children.filter isNamed

/-- The first node directly below that the given field names. -/
def child? (n : Node) (field : String) : Option Node :=
  n.children.find? (·.field? == some field)

/-- The lines of the node, counted from one. A node without a position is taken to be on the first
line. -/
def lines (n : Node) : Int × Int :=
  if n.isPlaced then (n.startRow + 1, n.endRow + 1) else (1, 1)

/-- The text of the node in its source. -/
def text (n : Node) (source : List UInt8) : String :=
  String.ofList <|
    Text.Utf8.decodeIgnoring ((source.drop n.startByte).take (n.endByte - n.startByte))

/-- The text of a node that may be absent. -/
def textOf (n : Option Node) (source : List UInt8) : String :=
  match n with
  | some n => n.text source
  | none => ""

/-- A place where the source departs from the grammar. -/
def isFault (n : Node) : Bool :=
  n.kind == "ERROR" || n.isMissing

mutual

/-- Whether the node is broken or has something broken below it. -/
def isBroken : Node → Bool
  | mk kind _ missing flagged _ _ _ _ _ _ children =>
    kind == "ERROR" || missing || flagged || anyBroken children

/-- Whether one of the nodes is broken or has something broken below it. -/
def anyBroken : List Node → Bool
  | [] => false
  | n :: rest => isBroken n || anyBroken rest

end

mutual

/-- The first fault at the node or below it, where only broken subtrees are searched. -/
def firstFault? : Node → Option Node
  | mk kind named missing flagged placed field startByte endByte startRow endRow children =>
    if kind == "ERROR" || missing then
      some (mk kind named missing flagged placed field startByte endByte startRow endRow children)
    else firstFaultIn? children

/-- The first fault at or below the nodes, where only broken subtrees are searched. -/
def firstFaultIn? : List Node → Option Node
  | [] => none
  | n :: rest =>
    if isBroken n then
      match firstFault? n with
      | some found => some found
      | none => firstFaultIn? rest
    else firstFaultIn? rest

end

theorem sizeOf_lt_of_mem_children {n m : Node} (h : m ∈ n.children) : sizeOf m < sizeOf n := by
  cases n with
  | mk =>
    simp only [children] at h
    have := List.sizeOf_lt_of_mem h
    simp only [mk.sizeOf_spec]
    omega

theorem child?_mem {n m : Node} {field : String} (h : n.child? field = some m) :
    m ∈ n.children :=
  List.mem_of_find?_eq_some h

theorem sizeOf_child?_lt {n m : Node} {field : String} (h : n.child? field = some m) :
    sizeOf m < sizeOf n :=
  sizeOf_lt_of_mem_children (child?_mem h)

theorem sizeOf_children_lt (n : Node) : sizeOf n.children < sizeOf n := by
  cases n with
  | mk =>
    simp only [children, mk.sizeOf_spec]
    omega

end Node

/-- Why a source cannot be outlined. -/
inductive ParseFault
  /-- The bytes are not text. -/
  | undecodable (fault : Text.Utf8.Fault)
  /-- The source departs from the grammar near a line. -/
  | syntaxError (line : Int)
  deriving DecidableEq, Repr

/-- The fault in words. -/
def ParseFault.reason : ParseFault → String
  | undecodable fault => s!"source is not valid UTF-8 ({fault.message})"
  | syntaxError line => s!"syntax error near line {line}"

/-- What makes the syntax tree of a source by a grammar. -/
abbrev TreeSource := Grammar → List UInt8 → Node

/-- A named declaration at a node. -/
def declared (kind : SymbolKind) (name : String) (n : Node) (children : List Symbol)
    (exported : Option ExportTag) : Except SymbolFault Symbol :=
  Symbol.make kind name n.lines.1 n.lines.2 children exported

end Docwright.Outline
