import Docwright.Outline.SyntaxTree

/-!
# Outlines of JavaScript and TypeScript modules

Functions and classes are reported at every depth; a variable is reported when it stands directly in
the module, exported or not, and is bound to a function. An export statement hands its tag to the
declaration it exports and to nothing inside it. Classes own their methods and the fields bound to
functions. In the typed dialect interfaces, with their methods, type aliases and enumerations are
reported as well, wherever they stand.

Declarations without a name are passed over, and what is nested in them is still reported.
-/

namespace Docwright.Outline.Script

/-- Declarations of functions. -/
def functionKinds : List String := ["function_declaration", "generator_function_declaration"]

/-- Declarations of classes. -/
def classKinds : List String := ["class_declaration", "abstract_class_declaration"]

/-- Expressions whose value is a function. -/
def functionValueKinds : List String :=
  ["arrow_function", "function", "function_expression", "generator_function"]

/-- Declarations of variables. -/
def variableKinds : List String := ["lexical_declaration", "variable_declaration"]

/-- Members of a class that are methods. -/
def methodKinds : List String := ["method_definition", "abstract_method_signature"]

/-- Members of a class that are fields. -/
def fieldKinds : List String := ["field_definition", "public_field_definition"]

/-- The tag that an export statement gives. -/
def exportTag (n : Node) : ExportTag :=
  if n.children.any (·.kind == "default") then .main else .named

/-- What an export statement exports: a declaration or else a value. -/
def exportTarget? (n : Node) : Option Node :=
  match n.child? "declaration" with
  | some m => some m
  | none => n.child? "value"

theorem sizeOf_exportTarget?_lt {n m : Node} (h : exportTarget? n = some m) :
    sizeOf m < sizeOf n := by
  unfold exportTarget? at h
  split at h
  · rename_i h'
    cases h
    exact Node.sizeOf_child?_lt h'
  · exact Node.sizeOf_child?_lt h

/-- The name of the method that a member of a class is, empty when it is none. -/
def methodName (source : List UInt8) (n : Node) : String :=
  if methodKinds.contains n.kind then Node.textOf (n.child? "name") source
  else if fieldKinds.contains n.kind then
    match n.child? "value" with
    | some value =>
      if functionValueKinds.contains value.kind then
        match n.child? "name" with
        | some key => key.text source
        | none => Node.textOf (n.child? "property") source
      else ""
    | none => ""
  else ""

/-- The methods that the named ones of the nodes of an interface sign. -/
def signatures (source : List UInt8) : List Node → Except SymbolFault (List Symbol)
  | [] => .ok []
  | n :: rest => do
    let name := Node.textOf (n.child? "name") source
    let here ←
      if n.isNamed && n.kind == "method_signature" && !name.isEmpty then do
        let s ← declared .method name n [] none
        pure [s]
      else pure []
    let more ← signatures source rest
    return here ++ more

/-- The kind of symbol that a declaration of the typed dialect makes. -/
def typedKind? (kind : String) : Option SymbolKind :=
  match kind with
  | "interface_declaration" => some .interface
  | "type_alias_declaration" => some .type
  | "enum_declaration" => some .enum
  | _ => none

/-- The symbol of a declaration that only the typed dialect has. -/
def typedSymbol? (source : List UInt8) (exported : Option ExportTag) (n : Node) :
    Except SymbolFault (Option Symbol) :=
  match typedKind? n.kind with
  | none => .ok none
  | some kind =>
    let name := Node.textOf (n.child? "name") source
    if name.isEmpty then .ok none
    else do
      let body := if kind == .interface then ((n.child? "body").map Node.children).getD [] else []
      let children ← signatures source body
      let s ← declared kind name n children exported
      return some s

/-- Whether a declarator binds a name to a function. -/
def bindsFunction (n : Node) : Bool :=
  match n.child? "name", n.child? "value" with
  | some name, some value => name.kind == "identifier" && functionValueKinds.contains value.kind
  | _, _ => false

mutual

/-- The symbols at and below a node. `atTop` tells that it stands directly in the module or is
exported there, `exported` how it is exported. -/
def visit (typed : Bool) (source : List UInt8) (atTop : Bool) (exported : Option ExportTag)
    (n : Node) : Except SymbolFault (List Symbol) :=
  if n.kind == "export_statement" then
    match _h : exportTarget? n with
    | none => .ok []
    | some target => visit typed source atTop (some (exportTag n)) target
  else if functionKinds.contains n.kind ||
      (exported.isSome && functionValueKinds.contains n.kind) then do
    let name := Node.textOf (n.child? "name") source
    let nested ← collect typed source false n.children
    if name.isEmpty then return nested
    else
      let s ← declared .function name n [] exported
      return s :: nested
  else if classKinds.contains n.kind || (exported.isSome && n.kind == "class") then do
    let name := Node.textOf (n.child? "name") source
    let (methods, nested) ←
      match _h : n.child? "body" with
      | some body => members typed source body.children
      | none => .ok ([], [])
    if name.isEmpty then return nested
    else
      let s ← declared .classKind name n methods exported
      return s :: nested
  else if variableKinds.contains n.kind then bindings typed source atTop exported n.children
  else
    match if typed then typedSymbol? source exported n else .ok none with
    | .error fault => .error fault
    | .ok (some s) => .ok [s]
    | .ok none => collect typed source false n.children
termination_by sizeOf n
decreasing_by
  all_goals
    have := Node.sizeOf_children_lt n
    try have := sizeOf_exportTarget?_lt _h
    try have := Node.sizeOf_child?_lt _h
    try have := Node.sizeOf_children_lt body
    omega

/-- The symbols at and below the named ones of the nodes. -/
def collect (typed : Bool) (source : List UInt8) (atTop : Bool) :
    List Node → Except SymbolFault (List Symbol)
  | [] => .ok []
  | n :: rest => do
    let here ← if n.isNamed then visit typed source atTop none n else .ok []
    let more ← collect typed source atTop rest
    return here ++ more
termination_by nodes => sizeOf nodes
decreasing_by
  all_goals
    simp only [List.cons.sizeOf_spec]
    omega

/-- The methods among the named ones of the nodes of a class body, and the symbols that stand deeper
in the body. -/
def members (typed : Bool) (source : List UInt8) :
    List Node → Except SymbolFault (List Symbol × List Symbol)
  | [] => .ok ([], [])
  | n :: rest => do
    let (methods, nested) ←
      if !n.isNamed then .ok ([], [])
      else do
        let name := methodName source n
        let methods ←
          if name.isEmpty then pure []
          else do
            let s ← declared .method name n [] none
            pure [s]
        let nested ← collect typed source false n.children
        pure (methods, nested)
    let (moreMethods, moreNested) ← members typed source rest
    return (methods ++ moreMethods, nested ++ moreNested)
termination_by nodes => sizeOf nodes
decreasing_by
  all_goals
    simp only [List.cons.sizeOf_spec]
    have := Node.sizeOf_children_lt n
    omega

/-- The variables that the declarators among the named ones of the nodes bind to functions, and the
symbols that stand in the bound values. -/
def bindings (typed : Bool) (source : List UInt8) (atTop : Bool) (exported : Option ExportTag) :
    List Node → Except SymbolFault (List Symbol)
  | [] => .ok []
  | n :: rest => do
    let here ←
      if !(n.isNamed && n.kind == "variable_declarator") then .ok []
      else do
        let bound ←
          if atTop && bindsFunction n then do
            let s ← declared .variable (Node.textOf (n.child? "name") source) n [] exported
            pure [s]
          else pure []
        let nested ←
          match _h : n.child? "value" with
          | some value => collect typed source false value.children
          | none => .ok []
        pure (bound ++ nested)
    let more ← bindings typed source atTop exported rest
    return here ++ more
termination_by nodes => sizeOf nodes
decreasing_by
  all_goals
    simp only [List.cons.sizeOf_spec]
    try have := Node.sizeOf_child?_lt _h
    try have := Node.sizeOf_children_lt value
    omega

end

end Docwright.Outline.Script
