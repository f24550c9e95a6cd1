import Docwright.Outline.Script
import Docwright.Proofs.Outline.Tree

/-!
# What JavaScript and TypeScript nodes come to

The walk over a module is four functions that call one another: over nodes, at one node, over the
body of a class and over the declarators of a declaration. Which of its ways the walk takes at a
node depends on its kind and on whether it is exported (`roleOf`). Each step is one relation here
(`VisitAt`, `MemberAt`, `BindingAt`), with everything that the step asks of the node, and a walk
that succeeds is made of these steps and of nothing else (`visitAt_of_ok`, `exists_of_collect_cons`,
`exists_of_members_cons`, `exists_of_bindings_cons`).
-/

namespace Docwright.Outline.Script

variable {typed : Bool} {source : List UInt8} {atTop : Bool} {exported : Option ExportTag}
  {n : Node} {rest : List Node} {symbols methods nested : List Symbol}

/-- What a node is taken for. -/
inductive Role
  | exporting
  | function
  | classDeclaration
  | variableDeclaration
  | other
  deriving DecidableEq

/-- What a node is taken for, given how it is exported. -/
def roleOf (exported : Option ExportTag) (n : Node) : Role :=
  if n.kind == "export_statement" then .exporting
  else if functionKinds.contains n.kind ||
    (exported.isSome && functionValueKinds.contains n.kind) then .function
  else if classKinds.contains n.kind || (exported.isSome && n.kind == "class") then
    .classDeclaration
  else if variableKinds.contains n.kind then .variableDeclaration
  else .other

theorem roleOf_eq_exporting_iff : roleOf exported n = .exporting ↔ n.kind = "export_statement" := by
  constructor
  · intro h
    rw [roleOf] at h
    split_ifs at h with hkind
    exact beq_iff_eq.1 hkind
  · intro hkind
    rw [roleOf, if_pos (beq_iff_eq.2 hkind)]

theorem roleOf_eq_variableDeclaration_iff :
    roleOf exported n = .variableDeclaration ↔ n.kind ∈ variableKinds := by
  constructor
  · intro h
    rw [roleOf] at h
    split_ifs at h with _ _ _ hkind
    exact List.contains_iff_mem.1 hkind
  · intro hkind
    rw [roleOf]
    -- the kinds of the other roles are other words
    rcases List.mem_cons.1 hkind with hkind | hkind
    · simp [hkind, functionKinds, functionValueKinds, classKinds, variableKinds]
    · simp [List.mem_singleton.1 hkind, functionKinds, functionValueKinds, classKinds,
        variableKinds]

/-- The symbol of a declaration that only the typed dialect has, if this is the dialect. -/
def typedAt (typed : Bool) (source : List UInt8) (exported : Option ExportTag) (n : Node) :
    Except SymbolFault (Option Symbol) :=
  if typed then typedSymbol? source exported n else .ok none

/-- What a node comes to. -/
inductive VisitAt (typed : Bool) (source : List UInt8) (atTop : Bool)
    (exported : Option ExportTag) (n : Node) : List Symbol → Prop
  /-- An export of nothing that is declared here. -/
  | exportingNothing (hrole : roleOf exported n = .exporting) (htarget : exportTarget? n = none) :
    VisitAt typed source atTop exported n []
  /-- An export, with what is exported. -/
  | exporting {target : Node} {symbols : List Symbol} (hrole : roleOf exported n = .exporting)
    (htarget : exportTarget? n = some target)
    (hvisit : visit typed source atTop (some (exportTag n)) target = .ok symbols) :
    VisitAt typed source atTop exported n symbols
  /-- A function, and what is nested in it. -/
  | function {s : Symbol} {nested : List Symbol} (hrole : roleOf exported n = .function)
    (hnested : collect typed source false n.children = .ok nested)
    (hs : declared .function (n.nameIn source) n [] exported = .ok s) :
    VisitAt typed source atTop exported n (s :: nested)
  /-- What is nested in a function without a name. -/
  | unnamedFunction {nested : List Symbol} (hrole : roleOf exported n = .function)
    (hname : (n.nameIn source).isEmpty = true)
    (hnested : collect typed source false n.children = .ok nested) :
    VisitAt typed source atTop exported n nested
  /-- A class with its methods, and what is nested in it. -/
  | classDeclaration {s : Symbol} {methods nested : List Symbol}
    (hrole : roleOf exported n = .classDeclaration)
    (hmembers : members typed source (n.childrenAt "body") = .ok (methods, nested))
    (hs : declared .classKind (n.nameIn source) n methods exported = .ok s) :
    VisitAt typed source atTop exported n (s :: nested)
  /-- What is nested in a class without a name. -/
  | unnamedClass {methods nested : List Symbol} (hrole : roleOf exported n = .classDeclaration)
    (hname : (n.nameIn source).isEmpty = true)
    (hmembers : members typed source (n.childrenAt "body") = .ok (methods, nested)) :
    VisitAt typed source atTop exported n nested
  /-- Variables. -/
  | variableDeclaration {symbols : List Symbol} (hrole : roleOf exported n = .variableDeclaration)
    (hbindings : bindings typed source atTop exported n.children = .ok symbols) :
    VisitAt typed source atTop exported n symbols
  /-- A declaration of the typed dialect. -/
  | typedDeclaration {s : Symbol} (hrole : roleOf exported n = .other)
    (hs : typedAt typed source exported n = .ok (some s)) :
    VisitAt typed source atTop exported n [s]
  /-- Any other node, with what stands below it. -/
  | other {symbols : List Symbol} (hrole : roleOf exported n = .other)
    (htyped : typedAt typed source exported n = .ok none)
    (hbelow : collect typed source false n.children = .ok symbols) :
    VisitAt typed source atTop exported n symbols

/-- What a node in the body of a class comes to: methods, and what stands deeper. -/
inductive MemberAt (typed : Bool) (source : List UInt8) (n : Node) :
    List Symbol → List Symbol → Prop
  /-- A sign between other nodes. -/
  | sign (hnamed : n.isNamed = false) : MemberAt typed source n [] []
  /-- A method, and what is nested in it. -/
  | method {s : Symbol} {nested : List Symbol} (hnamed : n.isNamed = true)
    (hs : declared .method (methodName source n) n [] none = .ok s)
    (hnested : collect typed source false n.children = .ok nested) :
    MemberAt typed source n [s] nested
  /-- Any other node, with what stands below it. -/
  | other {nested : List Symbol} (hnamed : n.isNamed = true)
    (hname : (methodName source n).isEmpty = true)
    (hbelow : collect typed source false n.children = .ok nested) :
    MemberAt typed source n [] nested

/-- What a node of a declaration of variables comes to. -/
inductive BindingAt (typed : Bool) (source : List UInt8) (atTop : Bool)
    (exported : Option ExportTag) (n : Node) : List Symbol → Prop
  /-- A node that declares nothing. -/
  | other (hkind : ¬(n.isNamed = true ∧ n.kind = "variable_declarator")) :
    BindingAt typed source atTop exported n []
  /-- A variable of the module that is bound to a function, and what is nested in its value. -/
  | bound {s : Symbol} {nested : List Symbol} (hnamed : n.isNamed = true)
    (hkind : n.kind = "variable_declarator") (htop : atTop = true) (hbinds : bindsFunction n = true)
    (hs : declared .variable (n.nameIn source) n [] exported = .ok s)
    (hnested : collect typed source false (n.childrenAt "value") = .ok nested) :
    BindingAt typed source atTop exported n (s :: nested)
  /-- What is nested in the value of any other variable. -/
  | unbound {nested : List Symbol} (hnamed : n.isNamed = true)
    (hkind : n.kind = "variable_declarator") (hbinds : ¬(atTop = true ∧ bindsFunction n = true))
    (hnested : collect typed source false (n.childrenAt "value") = .ok nested) :
    BindingAt typed source atTop exported n nested

theorem collect_nil : collect typed source atTop [] = .ok [] := by
  rw [collect]

theorem members_nil : members typed source [] = .ok ([], []) := by
  rw [members]

theorem bindings_nil : bindings typed source atTop exported [] = .ok [] := by
  rw [bindings]

/-- The methods that an interface signs come one after the other. -/
theorem exists_of_signatures_cons (h : signatures source (n :: rest) = .ok symbols) :
    ∃ here more, (here = [] ∨ ∃ s, declared .method (n.nameIn source) n [] none = .ok s ∧
      here = [s]) ∧ signatures source rest = .ok more ∧ symbols = here ++ more := by
  rw [signatures] at h
  simp only at h
  split at h
  · obtain ⟨s, hs, h⟩ := bind_eq_ok_iff.1 h
    obtain ⟨_, ⟨⟩, h⟩ := bind_eq_ok_iff.1 h
    obtain ⟨more, hmore, h⟩ := bind_eq_ok_iff.1 h
    exact ⟨[s], more, .inr ⟨s, hs, rfl⟩, hmore, (pure_eq_ok_iff.1 h).symm⟩
  · obtain ⟨_, ⟨⟩, h⟩ := bind_eq_ok_iff.1 h
    obtain ⟨more, hmore, h⟩ := bind_eq_ok_iff.1 h
    exact ⟨[], more, .inl rfl, hmore, (pure_eq_ok_iff.1 h).symm⟩

/-- A declaration of the typed dialect owns the methods that it signs. -/
theorem exists_of_typedAt {s : Symbol} (h : typedAt typed source exported n = .ok (some s)) :
    ∃ kind signed, typedKind? n.kind = some kind ∧
      (signed = [] ∨ signatures source (n.childrenAt "body") = .ok signed) ∧
      declared kind (n.nameIn source) n signed exported = .ok s := by
  rw [typedAt] at h
  split at h
  · rw [typedSymbol?] at h
    split at h
    · cases h
    rename_i kind hkind
    simp only at h
    split at h
    · cases h
    obtain ⟨signed, hsigned, h⟩ := bind_eq_ok_iff.1 h
    obtain ⟨s', hs, h⟩ := bind_eq_ok_iff.1 h
    cases pure_eq_ok_iff.1 h
    refine ⟨kind, signed, hkind, ?_, hs⟩
    split at hsigned
    · exact .inr hsigned
    · exact .inl (Except.ok.inj hsigned).symm
  · cases h

/-- The walk goes by the role of a node. -/
theorem visit_eq : visit typed source atTop exported n =
    match roleOf exported n with
    | .exporting =>
      match exportTarget? n with
      | none => .ok []
      | some target => visit typed source atTop (some (exportTag n)) target
    | .function => do
      let nested ← collect typed source false n.children
      if (n.nameIn source).isEmpty then pure nested
      else do
        let s ← declared .function (n.nameIn source) n [] exported
        pure (s :: nested)
    | .classDeclaration => do
      let found ← members typed source (n.childrenAt "body")
      if (n.nameIn source).isEmpty then pure found.2
      else do
        let s ← declared .classKind (n.nameIn source) n found.1 exported
        pure (s :: found.2)
    | .variableDeclaration => bindings typed source atTop exported n.children
    | .other =>
      match typedAt typed source exported n with
      | .error fault => .error fault
      | .ok (some s) => .ok [s]
      | .ok none => collect typed source false n.children := by
  rw [visit, roleOf]
  split
  · cases exportTarget? n with
    | none => rfl
    | some target => rfl
  split
  · rfl
  split
  · simp only [← Node.match_child?_eq n "body" members_nil]
    cases n.child? "body" with
    | none => rfl
    | some body => rfl
  split
  · rfl
  · rfl

/-- **A node that comes to something comes to it in one of these ways.** -/
theorem visitAt_of_ok (h : visit typed source atTop exported n = .ok symbols) :
    VisitAt typed source atTop exported n symbols := by
  rw [visit_eq] at h
  split at h
  · rename_i hrole
    split at h
    · rename_i htarget
      cases h
      exact .exportingNothing hrole htarget
    · rename_i htarget
      exact .exporting hrole htarget h
  · rename_i hrole
    obtain ⟨nested, hnested, h⟩ := bind_eq_ok_iff.1 h
    split at h
    · rename_i hname
      rw [← pure_eq_ok_iff.1 h]
      exact .unnamedFunction hrole hname hnested
    · obtain ⟨s, hs, h⟩ := bind_eq_ok_iff.1 h
      rw [← pure_eq_ok_iff.1 h]
      exact .function hrole hnested hs
  · rename_i hrole
    obtain ⟨⟨methods, nested⟩, hmembers, h⟩ := bind_eq_ok_iff.1 h
    split at h
    · rename_i hname
      rw [← pure_eq_ok_iff.1 h]
      exact .unnamedClass hrole hname hmembers
    · obtain ⟨s, hs, h⟩ := bind_eq_ok_iff.1 h
      rw [← pure_eq_ok_iff.1 h]
      exact .classDeclaration hrole hmembers hs
  · rename_i hrole
    exact .variableDeclaration hrole h
  · rename_i hrole
    split at h
    · cases h
    · rename_i hs
      cases h
      exact .typedDeclaration hrole hs
    · rename_i htyped
      exact .other hrole htyped h

theorem collect_cons : collect typed source atTop (n :: rest) =
    (if n.isNamed then visit typed source atTop none n else .ok []) >>= fun here ↦
      collect typed source atTop rest >>= fun more ↦ pure (here ++ more) := by
  rw [collect]
  split <;> rfl

/-- **Nodes come to what the first of them comes to and then what the rest do.** -/
theorem exists_of_collect_cons (h : collect typed source atTop (n :: rest) = .ok symbols) :
    ∃ here more, (if n.isNamed then visit typed source atTop none n else .ok []) = .ok here ∧
      collect typed source atTop rest = .ok more ∧ symbols = here ++ more := by
  rw [collect] at h
  split at h
  · rename_i hnamed
    obtain ⟨here, hhere, h⟩ := bind_eq_ok_iff.1 h
    obtain ⟨more, hmore, h⟩ := bind_eq_ok_iff.1 h
    exact ⟨here, more, by rw [if_pos hnamed, hhere], hmore, (pure_eq_ok_iff.1 h).symm⟩
  · rename_i hnamed
    obtain ⟨here, ⟨⟩, h⟩ := bind_eq_ok_iff.1 h
    obtain ⟨more, hmore, h⟩ := bind_eq_ok_iff.1 h
    exact ⟨[], more, by rw [if_neg hnamed], hmore, (pure_eq_ok_iff.1 h).symm⟩

/-- **So do the nodes in the body of a class.** -/
theorem exists_of_members_cons (h : members typed source (n :: rest) = .ok (methods, nested)) :
    ∃ hereMethods hereNested moreMethods moreNested,
      MemberAt typed source n hereMethods hereNested ∧
      members typed source rest = .ok (moreMethods, moreNested) ∧
      methods = hereMethods ++ moreMethods ∧ nested = hereNested ++ moreNested := by
  rw [members] at h
  split at h
  · rename_i hsign
    obtain ⟨_, ⟨⟩, h⟩ := bind_eq_ok_iff.1 h
    obtain ⟨⟨moreMethods, moreNested⟩, hmore, h⟩ := bind_eq_ok_iff.1 h
    cases pure_eq_ok_iff.1 h
    exact ⟨[], [], _, _, .sign (by simpa using hsign), hmore, rfl, rfl⟩
  rename_i hnamed
  have hnamed : n.isNamed = true := by simpa using hnamed
  simp only at h
  split at h
  · rename_i hname
    obtain ⟨_, ⟨⟩, h⟩ := bind_eq_ok_iff.1 h
    obtain ⟨deeper, hdeeper, h⟩ := bind_eq_ok_iff.1 h
    obtain ⟨_, ⟨⟩, h⟩ := bind_eq_ok_iff.1 h
    obtain ⟨⟨moreMethods, moreNested⟩, hmore, h⟩ := bind_eq_ok_iff.1 h
    cases pure_eq_ok_iff.1 h
    exact ⟨_, _, _, _, .other hnamed hname hdeeper, hmore, rfl, rfl⟩
  · obtain ⟨s, hs, h⟩ := bind_eq_ok_iff.1 h
    obtain ⟨_, ⟨⟩, h⟩ := bind_eq_ok_iff.1 h
    obtain ⟨deeper, hdeeper, h⟩ := bind_eq_ok_iff.1 h
    obtain ⟨_, ⟨⟩, h⟩ := bind_eq_ok_iff.1 h
    obtain ⟨⟨moreMethods, moreNested⟩, hmore, h⟩ := bind_eq_ok_iff.1 h
    cases pure_eq_ok_iff.1 h
    exact ⟨_, _, _, _, .method hnamed hs hdeeper, hmore, rfl, rfl⟩

/-- The symbol of a variable that is bound to a function. -/
def boundAt (source : List UInt8) (atTop : Bool) (exported : Option ExportTag) (n : Node) :
    Except SymbolFault (List Symbol) :=
  if atTop && bindsFunction n then do
    let s ← declared .variable (n.nameIn source) n [] exported
    pure [s]
  else pure []

/-- The symbols of one node of a declaration of variables. -/
def bindingsAt (typed : Bool) (source : List UInt8) (atTop : Bool) (exported : Option ExportTag)
    (n : Node) : Except SymbolFault (List Symbol) :=
  if !(n.isNamed && n.kind == "variable_declarator") then .ok []
  else do
    let bound ← boundAt source atTop exported n
    let nested ← collect typed source false (n.childrenAt "value")
    pure (bound ++ nested)

theorem bindings_cons : bindings typed source atTop exported (n :: rest) = (do
    let here ← bindingsAt typed source atTop exported n
    let more ← bindings typed source atTop exported rest
    pure (here ++ more)) := by
  rw [bindings, bindingsAt, boundAt, Node.nameIn]
  by_cases hkind : (n.isNamed && n.kind == "variable_declarator") = true
  · rw [← Node.match_child?_eq n "value" (show collect typed source _ [] = .ok [] from collect_nil)]
    by_cases hbinds : (atTop && bindsFunction n) = true
    · rw [if_pos hbinds]
      cases n.child? "value" with
      | none =>
        simp only [hkind, hbinds, Bool.not_true, Bool.false_eq_true, if_false, if_true, bind_assoc,
          pure_bind]
      | some value => simp [hkind, hbinds]
    · rw [if_neg hbinds]
      cases n.child? "value" with
      | none => simp [hkind, hbinds]
      | some value => simp [hkind, hbinds]
  · simp [hkind]

theorem bindingAt_of_ok (h : bindingsAt typed source atTop exported n = .ok symbols) :
    BindingAt typed source atTop exported n symbols := by
  rw [bindingsAt] at h
  split at h
  · rename_i hkind
    cases h
    exact .other fun hboth ↦ by simp [hboth] at hkind
  rename_i hkind
  obtain ⟨hnamed, hkind⟩ : n.isNamed = true ∧ n.kind = "variable_declarator" := by
    simpa using hkind
  obtain ⟨bound, hbound, h⟩ := bind_eq_ok_iff.1 h
  obtain ⟨nested, hnested, h⟩ := bind_eq_ok_iff.1 h
  rw [← pure_eq_ok_iff.1 h]
  rw [boundAt] at hbound
  split at hbound
  · rename_i hbinds
    rw [Bool.and_eq_true] at hbinds
    obtain ⟨s, hs, hbound⟩ := bind_eq_ok_iff.1 hbound
    rw [← pure_eq_ok_iff.1 hbound]
    exact .bound hnamed hkind hbinds.1 hbinds.2 hs hnested
  · rename_i hbinds
    rw [Bool.and_eq_true] at hbinds
    rw [← pure_eq_ok_iff.1 hbound]
    exact .unbound hnamed hkind hbinds hnested

/-- **And so do the nodes of a declaration of variables.** -/
theorem exists_of_bindings_cons
    (h : bindings typed source atTop exported (n :: rest) = .ok symbols) :
    ∃ here more, BindingAt typed source atTop exported n here ∧
      bindings typed source atTop exported rest = .ok more ∧ symbols = here ++ more := by
  rw [bindings_cons] at h
  obtain ⟨here, hhere, h⟩ := bind_eq_ok_iff.1 h
  obtain ⟨more, hmore, h⟩ := bind_eq_ok_iff.1 h
  exact ⟨here, more, bindingAt_of_ok hhere, hmore, (pure_eq_ok_iff.1 h).symm⟩

end Docwright.Outline.Script
