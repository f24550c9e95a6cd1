import Docwright.Outline.SyntaxTree

/-!
# Outlines of Python modules

Classes and functions are reported at every depth. A function that stands directly in the body of a
class is a method of that class and everything else stands in one list in the order of the source,
each declaration before what is nested in it. Decorators belong to what they decorate: a decorated
declaration has the lines of the whole. Directly in the module a name bound to a lambda is a
variable.
-/

namespace Docwright.Outline.Python

/-- What a decorated definition defines; any other node stands for itself. -/
def definitionOf (n : Node) : Node :=
  if n.kind == "decorated_definition" then (n.child? "definition").getD n else n

theorem sizeOf_definitionOf_le (n : Node) : sizeOf (definitionOf n) ≤ sizeOf n := by
  unfold definitionOf
  split
  · cases h : n.child? "definition" with
    | none => simp
    | some m => exact Nat.le_of_lt (Node.sizeOf_child?_lt h)
  · exact Nat.le_refl _

/-- A name bound to a lambda, when an assignment binds one. -/
def lambdaBinding (source : List UInt8) (n : Node) : Except SymbolFault (List Symbol) :=
  match n.child? "left", n.child? "right" with
  | some left, some right =>
    if n.kind == "assignment" && left.kind == "identifier" && right.kind == "lambda" then do
      let s ← declared .variable (left.text source) n [] none
      return [s]
    else return []
  | _, _ => return []

/-- The names bound to lambdas by the nodes of a statement. -/
def lambdaBindings (source : List UInt8) : List Node → Except SymbolFault (List Symbol)
  | [] => .ok []
  | n :: rest => do
    let here ← if n.isNamed then lambdaBinding source n else .ok []
    let more ← lambdaBindings source rest
    return here ++ more

mutual

/-- The symbols at and below the named ones of the nodes. `atTop` tells that they stand directly in
the module. -/
def collect (source : List UInt8) (atTop : Bool) : List Node → Except SymbolFault (List Symbol)
  | [] => .ok []
  | n :: rest => do
    let here ←
      if !n.isNamed then .ok []
      else if (definitionOf n).kind == "function_definition" then do
        let s ← declared .function (Node.textOf ((definitionOf n).child? "name") source) n [] none
        let nested ← collect source false (definitionOf n).children
        pure (s :: nested)
      else if (definitionOf n).kind == "class_definition" then do
        let (methods, nested) ←
          match _h : (definitionOf n).child? "body" with
          | some body => members source body.children
          | none => .ok ([], [])
        let name := Node.textOf ((definitionOf n).child? "name") source
        let s ← declared .classKind name n methods none
        pure (s :: nested)
      else if atTop && n.kind == "expression_statement" then lambdaBindings source n.children
      else collect source false n.children
    let more ← collect source atTop rest
    return here ++ more
termination_by nodes => sizeOf nodes
decreasing_by
  all_goals
    simp only [List.cons.sizeOf_spec]
    have := sizeOf_definitionOf_le n
    have := Node.sizeOf_children_lt (definitionOf n)
    have := Node.sizeOf_children_lt n
    try have := Node.sizeOf_child?_lt _h
    try have := Node.sizeOf_children_lt body
    omega

/-- The methods among the named ones of the nodes of a class body, and the symbols that stand deeper
in the body. -/
def members (source : List UInt8) : List Node → Except SymbolFault (List Symbol × List Symbol)
  | [] => .ok ([], [])
  | n :: rest => do
    let (methods, nested) ←
      if !n.isNamed then .ok ([], [])
      else if (definitionOf n).kind == "function_definition" then do
        let s ← declared .method (Node.textOf ((definitionOf n).child? "name") source) n [] none
        let nested ← collect source false (definitionOf n).children
        pure ([s], nested)
      else do
        let nested ← collect source false n.children
        pure ([], nested)
    let (moreMethods, moreNested) ← members source rest
    return (methods ++ moreMethods, nested ++ moreNested)
termination_by nodes => sizeOf nodes
decreasing_by
  all_goals
    simp only [List.cons.sizeOf_spec]
    have := sizeOf_definitionOf_le n
    have := Node.sizeOf_children_lt (definitionOf n)
    have := Node.sizeOf_children_lt n
    omega

end

end Docwright.Outline.Python
