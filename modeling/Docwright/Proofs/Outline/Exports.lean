import Docwright.Proofs.Outline.Places

/-!
# What a module exports and binds

Variables are reported from the module itself only: a declarator that binds a name to a function
counts when its declaration stands directly in the module, or when that is what an export statement
there comes down to. `bindingsAmong` lists these declarators without a walk, each with the tag of
the innermost export statement around its declaration.

* `exports_of_extract`: the variables that are extracted are these, in order and at any depth of the
  outline, and no tag goes further than the declaration that is exported (`collect_places`).

While the flag that marks the module's own level is off there are no variables at all, and the walk
turns it off wherever it goes deeper; so both directions come out of one induction.
-/

namespace Docwright

theorem Symbol.walk_eq (s : Symbol) : s.walk = s :: Symbol.walkAll s.children := by
  cases s with
  | mk => rw [walk, children]

namespace Outline.Script

open List (SublistForall₂)

variable {typed : Bool} {source : List UInt8} {atTop : Bool} {exported tag : Option ExportTag}
  {n : Node} {ns rest : List Node} {s : Symbol} {symbols more : List Symbol}

/-! ### The variables of a module -/

/-- What stands at a node when export statements are taken off, under the tag of the last one. -/
def unwrapped (tag : Option ExportTag) (n : Node) : Option Place :=
  if n.kind == "export_statement" then
    match _h : exportTarget? n with
    | none => none
    | some target => unwrapped (some (exportTag n)) target
  else some ⟨n, tag⟩
termination_by sizeOf n
decreasing_by exact sizeOf_exportTarget?_lt _h

/-- A declarator whose name is an identifier and whose value is a function. -/
def BindsFunction (d : Node) : Prop :=
  d.isNamed = true ∧ d.kind = "variable_declarator" ∧
    (d.child? "name").any (·.kind == "identifier") = true ∧
    (d.child? "value").any (functionValueKinds.contains ·.kind) = true

instance (d : Node) : Decidable (BindsFunction d) :=
  inferInstanceAs (Decidable (_ ∧ _))

/-- The declarators among some nodes that bind a name to a function. -/
def functionDeclarators (ns : List Node) : List Node :=
  ns.filter fun d ↦ BindsFunction d

/-- The places of such declarators in a declaration of variables. -/
def boundIn (p : Place) : List Place :=
  if variableKinds.contains p.node.kind then
    (functionDeclarators p.node.children).map fun d ↦ ⟨d, p.tag⟩
  else []

/-- The places of declarators that a node of a module declares, exported or not. -/
def bindingsFrom (tag : Option ExportTag) (n : Node) : List Place :=
  ((unwrapped tag n).map boundIn).getD []

/-- The places of declarators that the named ones of the nodes of a module declare. -/
def bindingsAmong (ns : List Node) : List Place :=
  (ns.filter Node.isNamed).flatMap (bindingsFrom none)

/-- The symbol of a variable at a place. -/
def variableAt (source : List UInt8) (p : Place) : Symbol :=
  .mk .variable (p.node.nameIn source) p.node.lines.1 (max p.node.lines.2 p.node.lines.1) [] p.tag

/-- The variables among symbols. -/
def variablesOf (symbols : List Symbol) : List Symbol :=
  symbols.filter (·.kind == .variable)

theorem variables_append :
    variablesOf (symbols ++ more) = variablesOf symbols ++ variablesOf more :=
  List.filter_append ..

theorem variables_cons_of_ne (h : s.kind ≠ .variable) :
    variablesOf (s :: symbols) = variablesOf symbols :=
  List.filter_cons_of_neg (by simpa using h)

theorem variables_variableAt (p : Place) :
    variablesOf (variableAt source p :: symbols) = variableAt source p :: variablesOf symbols :=
  List.filter_cons_of_pos rfl

/-- Methods are no variables, and own none. -/
theorem variables_walkAll_untagged (h : Untagged symbols) :
    variablesOf (Symbol.walkAll symbols) = [] := by
  induction symbols with
  | nil => rw [Symbol.walkAll, variablesOf, List.filter_nil]
  | cons m rest ih =>
    obtain ⟨⟨hkind, -, hchildren⟩, hrest⟩ := List.forall_mem_cons.1 h
    rw [Symbol.walkAll, variables_append, ih hrest, Symbol.walk_eq, hchildren, Symbol.walkAll,
      variables_cons_of_ne (by simp [hkind])]
    rfl

/-- Where methods are all that symbols own, the variables are among the symbols themselves. -/
theorem variables_walkAll (h : ∀ s ∈ symbols, Untagged s.children) :
    variablesOf (Symbol.walkAll symbols) = variablesOf symbols := by
  induction symbols with
  | nil => rw [Symbol.walkAll]
  | cons s rest ih =>
    obtain ⟨hs, hrest⟩ := List.forall_mem_cons.1 h
    rw [Symbol.walkAll, variables_append, ih hrest, Symbol.walk_eq, ← List.singleton_append,
      variables_append, variables_walkAll_untagged hs, List.append_nil, ← variables_append,
      List.singleton_append]

/-! ### The variables of a node -/

theorem bindingsFrom_exporting {target : Node} (hkind : n.kind = "export_statement")
    (htarget : exportTarget? n = some target) :
    bindingsFrom tag n = bindingsFrom (some (exportTag n)) target := by
  rw [bindingsFrom, unwrapped, if_pos (beq_iff_eq.2 hkind)]
  split
  · rename_i hnone
    rw [hnone] at htarget
    cases htarget
  · rename_i hsome
    rw [hsome] at htarget
    cases htarget
    rfl

theorem bindingsFrom_exportingNothing (hkind : n.kind = "export_statement")
    (htarget : exportTarget? n = none) : bindingsFrom tag n = [] := by
  rw [bindingsFrom, unwrapped, if_pos (beq_iff_eq.2 hkind)]
  split
  · rfl
  · rename_i hsome
    rw [hsome] at htarget
    cases htarget

theorem bindingsFrom_of_ne (hkind : n.kind ≠ "export_statement") :
    bindingsFrom tag n = boundIn ⟨n, tag⟩ := by
  rw [bindingsFrom, unwrapped, if_neg (by simpa using hkind)]
  rfl

/-- A node that is neither an export nor a declaration of variables binds nothing. -/
theorem bindingsFrom_eq_nil (hexporting : roleOf exported n ≠ .exporting)
    (hvariable : roleOf exported n ≠ .variableDeclaration) : bindingsFrom tag n = [] := by
  rw [bindingsFrom_of_ne (mt roleOf_eq_exporting_iff.2 hexporting), boundIn, if_neg]
  rw [List.contains_iff_mem]
  exact mt roleOf_eq_variableDeclaration_iff.2 hvariable

theorem bindingsFrom_variableDeclaration (hrole : roleOf exported n = .variableDeclaration) :
    bindingsFrom tag n = (functionDeclarators n.children).map fun d ↦ ⟨d, tag⟩ := by
  have hexporting : roleOf exported n ≠ .exporting := by simp [hrole]
  rw [bindingsFrom_of_ne (mt roleOf_eq_exporting_iff.2 hexporting), boundIn, if_pos]
  exact List.contains_iff_mem.2 (roleOf_eq_variableDeclaration_iff.1 hrole)

theorem kind_of_declared {kind : SymbolKind} {name : String} {children : List Symbol}
    (h : declared kind name n children exported = .ok s) : s.kind = kind := by
  rw [eq_mk_of_declared h]
  rfl

theorem kind_of_typedAt (h : typedAt typed source exported n = .ok (some s)) :
    s.kind ≠ .variable := by
  obtain ⟨kind, signed, hkind, -, hs⟩ := exists_of_typedAt h
  rw [kind_of_declared hs]
  rintro rfl
  unfold typedKind? at hkind
  split at hkind <;> cases hkind

/-- What the walk asks of a declarator. -/
theorem bindsFunction_iff (hnamed : n.isNamed = true) (hkind : n.kind = "variable_declarator") :
    BindsFunction n ↔ bindsFunction n = true := by
  rw [BindsFunction, and_iff_right hnamed, and_iff_right hkind, bindsFunction]
  cases n.child? "name" with
  | none => simp
  | some name =>
    cases n.child? "value" with
    | none => simp
    | some value => simp

theorem functionDeclarators_singleton (h : BindsFunction n) : functionDeclarators [n] = [n] :=
  List.filter_cons_of_pos (by simpa using h)

theorem functionDeclarators_eq_nil (h : ¬BindsFunction n) : functionDeclarators [n] = [] :=
  List.filter_cons_of_neg (by simpa using h)

/-- **The variables of one node of a declaration.** Only the declarator itself can be one; `hvalue`
says that none stands in its value. -/
theorem bindingAt_variables (h : BindingAt typed source atTop exported n symbols)
    (hvalue : ∀ nested, collect typed source false (n.childrenAt "value") = .ok nested →
      variablesOf nested = []) :
    variablesOf symbols = if atTop then
      (functionDeclarators [n]).map (fun d ↦ variableAt source ⟨d, exported⟩) else [] := by
  cases h with
  | other hkind =>
    rw [functionDeclarators_eq_nil fun h ↦ hkind ⟨h.1, h.2.1⟩, List.map_nil, ite_self]
    rfl
  | bound hnamed hkind htop hbinds hs hnested =>
    have hbinds := (bindsFunction_iff hnamed hkind).2 hbinds
    have hs : _ = variableAt source ⟨n, exported⟩ := eq_mk_of_declared hs
    rw [hs, variables_variableAt, hvalue _ hnested, functionDeclarators_singleton hbinds,
      if_pos htop, List.map_singleton]
  | unbound hnamed hkind hbinds hnested =>
    rw [hvalue _ hnested]
    split
    · rename_i htop
      have hnot : ¬BindsFunction n := fun h ↦ hbinds ⟨htop, (bindsFunction_iff hnamed hkind).1 h⟩
      rw [functionDeclarators_eq_nil hnot, List.map_nil]
    · rfl

/-! ### The walk -/

mutual

/-- **The variables that a node comes to** are those that it binds, when it is at the level of the
module, and none otherwise. -/
theorem visit_variables {atTop : Bool} {exported : Option ExportTag} {n : Node}
    {symbols : List Symbol} (h : visit typed source atTop exported n = .ok symbols) :
    variablesOf symbols =
      if atTop then (bindingsFrom exported n).map (variableAt source) else [] := by
  have := Node.sizeOf_children_lt n
  have := Node.sizeOf_childrenAt_lt n "body"
  -- whatever else a node is taken for, the walk goes deeper and nothing is bound
  have hnone (hexporting : roleOf exported n ≠ .exporting)
      (hvariable : roleOf exported n ≠ .variableDeclaration) (hsymbols : variablesOf symbols = []) :
      variablesOf symbols =
        if atTop then (bindingsFrom exported n).map (variableAt source) else [] := by
    rw [hsymbols, bindingsFrom_eq_nil hexporting hvariable, List.map_nil, ite_self]
  cases visitAt_of_ok h with
  | exportingNothing hrole htarget =>
    rw [bindingsFrom_exportingNothing (roleOf_eq_exporting_iff.1 hrole) htarget, List.map_nil,
      ite_self]
    rfl
  | @exporting target _ hrole htarget hvisit =>
    have := sizeOf_exportTarget?_lt htarget
    rw [bindingsFrom_exporting (roleOf_eq_exporting_iff.1 hrole) htarget]
    exact visit_variables hvisit
  | function hrole hnested hs =>
    refine hnone (by simp [hrole]) (by simp [hrole]) ?_
    rw [variables_cons_of_ne (by simp [kind_of_declared hs])]
    exact collect_variables hnested
  | unnamedFunction hrole _ hnested =>
    exact hnone (by simp [hrole]) (by simp [hrole]) (collect_variables hnested)
  | classDeclaration hrole hmembers hs =>
    refine hnone (by simp [hrole]) (by simp [hrole]) ?_
    rw [variables_cons_of_ne (by simp [kind_of_declared hs])]
    exact members_variables hmembers
  | unnamedClass hrole _ hmembers =>
    exact hnone (by simp [hrole]) (by simp [hrole]) (members_variables hmembers)
  | variableDeclaration hrole hbindings =>
    rw [bindingsFrom_variableDeclaration hrole, List.map_map]
    exact bindings_variables hbindings
  | typedDeclaration hrole hs =>
    exact hnone (by simp [hrole]) (by simp [hrole]) (variables_cons_of_ne (kind_of_typedAt hs))
  | other hrole _ hbelow =>
    exact hnone (by simp [hrole]) (by simp [hrole]) (collect_variables hbelow)
termination_by sizeOf n

/-- The variables that nodes come to are those that the named ones bind at the level of the
module. -/
theorem collect_variables {atTop : Bool} {ns : List Node} {symbols : List Symbol}
    (h : collect typed source atTop ns = .ok symbols) :
    variablesOf symbols = if atTop then (bindingsAmong ns).map (variableAt source) else [] := by
  match ns, h with
  | [], h =>
    rw [collect_nil] at h
    cases h
    exact (ite_self _).symm
  | n :: rest, h =>
    obtain ⟨here, more, hhere, hmore, rfl⟩ := exists_of_collect_cons h
    rw [variables_append, collect_variables hmore, bindingsAmong, bindingsAmong]
    by_cases hnamed : n.isNamed = true
    · rw [if_pos hnamed] at hhere
      rw [visit_variables hhere, List.filter_cons_of_pos hnamed, List.flatMap_cons, List.map_append]
      split <;> rfl
    · rw [if_neg hnamed] at hhere
      cases hhere
      rw [List.filter_cons_of_neg hnamed]
      rfl
termination_by sizeOf ns

/-- There are none in the body of a class. -/
theorem members_variables {ns : List Node} {methods nested : List Symbol}
    (h : members typed source ns = .ok (methods, nested)) : variablesOf nested = [] := by
  match ns, h with
  | [], h =>
    rw [members_nil] at h
    cases h
    rfl
  | n :: rest, h =>
    obtain ⟨hereMethods, hereNested, moreMethods, moreNested, hhere, hmore, rfl, rfl⟩ :=
      exists_of_members_cons h
    have := Node.sizeOf_children_lt n
    rw [variables_append, members_variables hmore, List.append_nil]
    cases hhere with
    | sign _ => rfl
    | method _ _ hbelow => exact collect_variables hbelow
    | other _ _ hbelow => exact collect_variables hbelow
termination_by sizeOf ns

/-- The variables that a declaration comes to are its declarators that bind functions, at the level
of the module. -/
theorem bindings_variables {atTop : Bool} {exported : Option ExportTag} {ns : List Node}
    {symbols : List Symbol} (h : bindings typed source atTop exported ns = .ok symbols) :
    variablesOf symbols = if atTop then
      (functionDeclarators ns).map (fun d ↦ variableAt source ⟨d, exported⟩) else [] := by
  match ns, h with
  | [], h =>
    rw [bindings_nil] at h
    cases h
    exact (ite_self _).symm
  | n :: rest, h =>
    obtain ⟨here, more, hhere, hmore, rfl⟩ := exists_of_bindings_cons h
    have := Node.sizeOf_childrenAt_lt n "value"
    have happend : functionDeclarators (n :: rest)
        = functionDeclarators [n] ++ functionDeclarators rest :=
      List.filter_append (p := _) [n] rest
    rw [variables_append, bindings_variables hmore, happend, List.map_append,
      bindingAt_variables hhere fun nested hnested ↦ collect_variables hnested]
    split <;> rfl
termination_by sizeOf ns

end

/-- **What is exported and bound by a module.** The variables that are extracted, at any depth of
the outline, are the declarators that bind functions at the level of the module, in order, each
under the tag of the innermost export statement around its declaration. And no tag goes further than
that: the symbols stand for places of the tree, one after the other, with no tags but those of their
places, and what they own are methods without tags. -/
theorem exports_of_extract {trees : TreeSource} {dialect : Dialect} {path : String}
    (hdialect : dialect ≠ .python) (h : extract trees dialect path source = .ok symbols) :
    let root := trees (dialect.grammarOf path) source
    variablesOf (Symbol.walkAll symbols) = (bindingsAmong root.children).map (variableAt source) ∧
      SublistForall₂ (StandsAt source) symbols (placesAmong (fun _ ↦ none) root.children) ∧
      ∀ s ∈ symbols, Untagged s.children := by
  intro root
  obtain ⟨root', hsound, hsymbols⟩ := extract_ok_iff.1 h
  obtain rfl : root' = root := eq_of_soundTree hsound
  obtain ⟨typed, hcollect⟩ : ∃ typed, collect typed source true root.children = .ok symbols := by
    cases dialect with
    | python => exact absurd rfl hdialect
    | javaScript => exact ⟨false, hsymbols⟩
    | typeScript => exact ⟨true, hsymbols⟩
  have hplaces := collect_places (fun _ ↦ none) hcollect
  have huntagged : ∀ s ∈ symbols, Untagged s.children := untagged_of_places hplaces
  exact ⟨(variables_walkAll huntagged).trans (collect_variables hcollect), hplaces, huntagged⟩

namespace Wrapped

/-- A module that exports a function under a name, with a class in its body:
`export const f = () => \x7b class B \x7b m() \x7b\x7d \x7d \x7d`. -/
def bytes : List UInt8 :=
  "export const f = () => \x7b class B \x7b m() \x7b\x7d \x7d \x7d\n".toList.map
    fun c ↦ c.toNat.toUInt8

/-- The method of the class. -/
def method : Node :=
  .mk "method_definition" true false false true none 35 41 0 0
    [.mk "property_identifier" true false false true (some "name") 35 36 0 0 []]

/-- The class. -/
def inner : Node :=
  .mk "class_declaration" true false false true none 25 43 0 0 [
    .mk "identifier" true false false true (some "name") 31 32 0 0 [],
    .mk "class_body" true false false true (some "body") 33 43 0 0 [method]]

/-- The variable. -/
def declarator : Node :=
  .mk "variable_declarator" true false false true none 13 45 0 0 [
    .mk "identifier" true false false true (some "name") 13 14 0 0 [],
    .mk "arrow_function" true false false true (some "value") 17 45 0 0 [inner]]

/-- The declaration of the variable. -/
def declaration : Node :=
  .mk "lexical_declaration" true false false true (some "declaration") 7 45 0 0 [declarator]

/-- The export statement. -/
def statement : Node :=
  .mk "export_statement" true false false true none 0 45 0 0
    [.mk "export" false false false true none 0 6 0 0 [], declaration]

/-- The module. -/
def root : Node :=
  .mk "program" true false false true none 0 46 0 1 [statement]

/-- What is reported: the variable is exported, the class in its body and its method are not. -/
def reported : List Symbol :=
  [.mk .variable "f" 1 1 [] (some .named),
    .mk .classKind "B" 1 1 [.mk .method "m" 1 1 [] none] none]

theorem collect_inner : collect false bytes false [inner] =
    .ok [.mk .classKind "B" 1 1 [.mk .method "m" 1 1 [] none] none] := by
  have hbelow : collect false bytes false method.children = .ok [] := by
    rw [show method.children = [_] from rfl, collect_cons, visit_eq]
    simp only [Node.children, collect_nil]
    rfl
  have hmembers : members false bytes (inner.childrenAt "body") =
      .ok ([.mk .method "m" 1 1 [] none], []) := by
    rw [show inner.childrenAt "body" = [method] from rfl, members, members_nil, hbelow]
    rfl
  rw [collect_cons, visit_eq, hmembers, collect_nil]
  rfl

theorem visit_declaration : visit false bytes true (some .named) declaration = .ok reported := by
  have hbindings : bindings false bytes true (some .named) [declarator] = .ok reported := by
    rw [bindings_cons, bindings_nil, bindingsAt,
      show declarator.childrenAt "value" = [inner] from rfl, collect_inner]
    rfl
  rw [visit_eq]
  exact hbindings

theorem extract_root : extract (fun _ _ ↦ root) .javaScript "a.js" bytes = .ok reported := by
  have hstatement : visit false bytes true none statement = .ok reported := by
    rw [visit_eq]
    exact visit_declaration
  refine extract_ok_iff.2 ⟨root, rfl, ?_⟩
  rw [symbolsOf, show root.children = [statement] from rfl, collect_cons, collect_nil, hstatement]
  rfl

/-- The variable is the only one and has the tag of its export, which goes no further. -/
theorem exports_of_extract_wrapped :
    Dialect.javaScript ≠ .python ∧
      extract (fun _ _ ↦ root) .javaScript "a.js" bytes = .ok reported ∧
      variablesOf (Symbol.walkAll reported)
        = (bindingsAmong root.children).map (variableAt bytes) ∧
      SublistForall₂ (StandsAt bytes) reported (placesAmong (fun _ ↦ none) root.children) ∧
      ∀ s ∈ reported, Untagged s.children := by
  have hdialect : Dialect.javaScript ≠ .python := by decide
  exact ⟨hdialect, extract_root, exports_of_extract hdialect extract_root⟩

end Wrapped

end Outline.Script

end Docwright
