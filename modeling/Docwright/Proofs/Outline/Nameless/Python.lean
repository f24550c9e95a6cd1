import Docwright.Proofs.Outline.Failure
import Docwright.Proofs.Outline.Python

/-!
# Python declarations without a name

The walk over a Python module does not pass over what has no name: it fails there, and with it the
outline of the file. `Meets` says which nodes the walk comes to and where it finds itself then, and
`NamelessAt` at which of them it fails: at a function without a name wherever it stands, at a class
without a name unless it stands directly in the body of another, and at a lambda that is bound to no
name directly in the module.

* `failsWhen_collect` - the walk fails exactly when it meets such a node, for every tree, whether a
  grammar would make it or not. Otherwise it gives its symbols.
-/

namespace Docwright.Outline.Python

/-- Where a walk is. -/
inductive Place
  /-- Directly in the module. -/
  | module
  /-- Directly in the body of a class. -/
  | classBody
  /-- Anywhere else. -/
  | inside
  deriving DecidableEq

/-- The place of nodes that are walked over outside of class bodies. -/
def Place.ofTop (atTop : Bool) : Place :=
  if atTop then .module else .inside

/-- Where the walk goes on below a node. The expressions of a module are not walked over. -/
def onward (place : Place) (n : Node) : Place × List Node :=
  if (definitionOf n).kind = "function_definition" then (.inside, (definitionOf n).children)
  else if (definitionOf n).kind = "class_definition" ∧ place ≠ .classBody then
    (.classBody, (definitionOf n).childrenAt "body")
  else if n.kind = "expression_statement" ∧ place = .module then (.inside, [])
  else (.inside, n.children)

/-- The walk over nodes at a place meets a node at a place. -/
inductive Meets : Place → List Node → Place → Node → Prop
  /-- Each named node is met where it stands. -/
  | here {place : Place} {n : Node} {ns : List Node} (hmem : n ∈ ns) (hnamed : n.isNamed = true) :
    Meets place ns place n
  /-- And the walk goes on below it. -/
  | deeper {place place' : Place} {n m : Node} {ns : List Node} (hmem : n ∈ ns)
    (hnamed : n.isNamed = true)
    (h : Meets (onward place n).1 (onward place n).2 place' m) : Meets place ns place' m

variable {source : List UInt8} {place : Place} {atTop : Bool} {n : Node} {ns rest : List Node}

/-- An assignment of a lambda to an identifier without any text. -/
def BindsNameless (source : List UInt8) (n : Node) : Prop :=
  n.kind = "assignment" ∧ ∃ left right, n.child? "left" = some left ∧
    n.child? "right" = some right ∧ left.kind = "identifier" ∧ right.kind = "lambda" ∧
    left.text source = ""

/-- What stands at the node is reported and has no name. -/
inductive NamelessAt (source : List UInt8) (place : Place) (n : Node) : Prop
  | function (hkind : (definitionOf n).kind = "function_definition")
    (hname : (definitionOf n).nameIn source = "")
  /-- A class directly in the body of a class is not reported, with or without a name. -/
  | classDefinition (hkind : (definitionOf n).kind = "class_definition")
    (hplace : place ≠ .classBody) (hname : (definitionOf n).nameIn source = "")
  | binding (hkind : n.kind = "expression_statement") (hplace : place = .module)
    (h : ∃ a ∈ n.children, a.isNamed = true ∧ BindsNameless source a)

/-- The walk meets something that it reports and that has no name. -/
def Stumbles (source : List UInt8) (place : Place) (ns : List Node) : Prop :=
  ∃ place' m, Meets place ns place' m ∧ NamelessAt source place' m

/-- It does so at a node or below it. -/
def StumblesAt (source : List UInt8) (place : Place) (n : Node) : Prop :=
  n.isNamed = true ∧
    (NamelessAt source place n ∨ Stumbles source (onward place n).1 (onward place n).2)

theorem not_stumbles_nil : ¬Stumbles source place [] := by
  rintro ⟨_, _, hmeets, _⟩
  cases hmeets with
  | here hmem => cases hmem
  | deeper hmem => cases hmem

theorem stumbles_iff : Stumbles source place ns ↔ ∃ n ∈ ns, StumblesAt source place n := by
  constructor
  · rintro ⟨place', m, hmeets, hnameless⟩
    cases hmeets with
    | here hmem hnamed => exact ⟨m, hmem, hnamed, .inl hnameless⟩
    | deeper hmem hnamed h => exact ⟨_, hmem, hnamed, .inr ⟨place', m, h, hnameless⟩⟩
  · rintro ⟨n, hmem, hnamed, hnameless | ⟨place', m, h, hnameless⟩⟩
    · exact ⟨place, n, .here hmem hnamed, hnameless⟩
    · exact ⟨place', m, .deeper hmem hnamed h, hnameless⟩

theorem stumbles_cons :
    Stumbles source place (n :: rest) ↔ StumblesAt source place n ∨ Stumbles source place rest := by
  rw [stumbles_iff, stumbles_iff, List.exists_mem_cons_iff]

theorem definitionOf_eq_self_of_ne (h : n.kind ≠ "decorated_definition") : definitionOf n = n := by
  rw [definitionOf, if_neg (by simpa using h)]

/-- What a definition comes to does not depend on what else is asked of expressions. -/
theorem not_expression_of_definition (h : IsDefinition (definitionOf n)) :
    n.kind ≠ "expression_statement" := by
  intro hkind
  rw [definitionOf_eq_self_of_ne (by rw [hkind]; decide)] at h
  rcases h with h | h <;> exact absurd (hkind.symm.trans h) (by decide)

theorem stumblesAt_function (hnamed : n.isNamed = true)
    (hkind : (definitionOf n).kind = "function_definition") :
    StumblesAt source place n ↔ (definitionOf n).nameIn source = "" ∨
      Stumbles source .inside (definitionOf n).children := by
  have honward : onward place n = (.inside, (definitionOf n).children) := by
    rw [onward, if_pos hkind]
  rw [StumblesAt, honward]
  refine (and_iff_right hnamed).trans (or_congr_left ⟨fun h ↦ ?_, .function hkind⟩)
  cases h with
  | function _ hname => exact hname
  | classDefinition hclass => exact absurd (hkind.symm.trans hclass) (by decide)
  | binding hexpression => exact absurd hexpression (not_expression_of_definition (.inr hkind))

theorem stumblesAt_class (hnamed : n.isNamed = true)
    (hkind : (definitionOf n).kind = "class_definition") (hplace : place ≠ .classBody) :
    StumblesAt source place n ↔ Stumbles source .classBody ((definitionOf n).childrenAt "body") ∨
      (definitionOf n).nameIn source = "" := by
  have honward : onward place n = (.classBody, (definitionOf n).childrenAt "body") := by
    rw [onward, if_neg (by rw [hkind]; decide), if_pos ⟨hkind, hplace⟩]
  rw [StumblesAt, honward, or_comm]
  refine (and_iff_right hnamed).trans (or_congr_right ⟨fun h ↦ ?_, .classDefinition hkind hplace⟩)
  cases h with
  | function hfunction => exact absurd (hkind.symm.trans hfunction) (by decide)
  | classDefinition _ _ hname => exact hname
  | binding hexpression => exact absurd hexpression (not_expression_of_definition (.inl hkind))

theorem stumblesAt_expression (hnamed : n.isNamed = true)
    (hkind : n.kind = "expression_statement") :
    StumblesAt source .module n ↔ ∃ a ∈ n.children, a.isNamed = true ∧ BindsNameless source a := by
  have hdefinition : ¬IsDefinition (definitionOf n) := fun h ↦ not_expression_of_definition h hkind
  have honward : onward .module n = (.inside, []) := by
    rw [onward, if_neg fun h ↦ hdefinition (.inr h), if_neg fun h ↦ hdefinition (.inl h.1),
      if_pos ⟨hkind, rfl⟩]
  rw [StumblesAt, honward, or_iff_left not_stumbles_nil]
  refine (and_iff_right hnamed).trans ⟨fun h ↦ ?_, .binding hkind rfl⟩
  cases h with
  | function hfunction => exact absurd (.inr hfunction) hdefinition
  | classDefinition hclass => exact absurd (.inl hclass) hdefinition
  | binding _ _ h => exact h

theorem stumblesAt_other (hnamed : n.isNamed = true)
    (hfunction : (definitionOf n).kind ≠ "function_definition")
    (hclass : ¬((definitionOf n).kind = "class_definition" ∧ place ≠ .classBody))
    (hexpression : ¬(n.kind = "expression_statement" ∧ place = .module)) :
    StumblesAt source place n ↔ Stumbles source .inside n.children := by
  have honward : onward place n = (.inside, n.children) := by
    rw [onward, if_neg hfunction, if_neg hclass, if_neg hexpression]
  rw [StumblesAt, honward]
  refine (and_iff_right hnamed).trans (or_iff_right fun h ↦ ?_)
  cases h with
  | function hkind => exact hfunction hkind
  | classDefinition hkind hplace => exact hclass ⟨hkind, hplace⟩
  | binding hkind hplace => exact hexpression ⟨hkind, hplace⟩

theorem failsWhen_lambdaBinding :
    FailsWhen (BindsNameless source n) (lambdaBinding source n) := by
  rw [lambdaBinding]
  split
  · rename_i left right hleft hright
    split
    · rename_i hkinds
      simp only [Bool.and_eq_true, beq_iff_eq] at hkinds
      refine ((failsWhen_declared (.inl rfl)).bind_ok fun s ↦ ⟨[s], rfl⟩).congr ⟨fun hname ↦ ?_, ?_⟩
      · exact ⟨hkinds.1.1, left, right, hleft, hright, hkinds.1.2, hkinds.2, hname⟩
      · rintro ⟨_, left', _, hleft', _, _, _, hname⟩
        obtain rfl : left = left' := Option.some.inj (hleft.symm.trans hleft')
        exact hname
    · rename_i hkinds
      refine (FailsWhen.ok []).of_not ?_
      rintro ⟨hkind, left', right', hleft', hright', hidentifier, hlambda, _⟩
      obtain rfl : left = left' := Option.some.inj (hleft.symm.trans hleft')
      obtain rfl : right = right' := Option.some.inj (hright.symm.trans hright')
      simp [hkind, hidentifier, hlambda] at hkinds
  · rename_i hmissing
    refine (FailsWhen.ok []).of_not ?_
    rintro ⟨_, left, right, hleft, hright, _⟩
    exact hmissing left right hleft hright

theorem failsWhen_lambdaBindings :
    FailsWhen (∃ a ∈ ns, a.isNamed = true ∧ BindsNameless source a) (lambdaBindings source ns) := by
  induction ns with
  | nil =>
    rw [lambdaBindings]
    exact (FailsWhen.ok []).of_not (by simp)
  | cons n rest ih =>
    have hhere : FailsWhen (n.isNamed = true ∧ BindsNameless source n)
        (if n.isNamed then lambdaBinding source n else .ok []) := by
      by_cases hnamed : n.isNamed = true
      · rw [if_pos hnamed]
        exact failsWhen_lambdaBinding.congr (and_iff_right hnamed).symm
      · rw [if_neg hnamed]
        exact (FailsWhen.ok []).of_not fun h ↦ hnamed h.1
    rw [lambdaBindings_cons]
    refine (hhere.bind fun here _ ↦ ih.bind_ok fun more ↦ ⟨here ++ more, rfl⟩).congr ?_
    rw [List.exists_mem_cons_iff]

/-- **What a node comes to fails exactly when the walk stumbles at the node or below it**, provided
that this is so of everything below it. -/
theorem failsWhen_symbolsAt
    (hfunction : FailsWhen (Stumbles source .inside (definitionOf n).children)
      (collect source false (definitionOf n).children))
    (hclass : FailsWhen (Stumbles source .classBody ((definitionOf n).childrenAt "body"))
      (members source ((definitionOf n).childrenAt "body")))
    (hother : FailsWhen (Stumbles source .inside n.children) (collect source false n.children)) :
    FailsWhen (StumblesAt source (.ofTop atTop) n) (symbolsAt source atTop n) := by
  have hplace : Place.ofTop atTop ≠ .classBody := by cases atTop <;> decide
  have htop : Place.ofTop atTop = .module ↔ atTop = true := by cases atTop <;> decide
  rw [symbolsAt]
  split
  · rename_i hsign
    exact (FailsWhen.ok []).of_not fun h ↦ by simp [h.1] at hsign
  rename_i hnamed
  have hnamed : n.isNamed = true := by simpa using hnamed
  split
  · rename_i hkind
    refine ((failsWhen_declared (.inl rfl)).bind fun s _ ↦ hfunction.bind_ok fun nested ↦
      ⟨s :: nested, rfl⟩).congr ?_
    exact (stumblesAt_function hnamed (beq_iff_eq.1 hkind)).symm
  rename_i hnotFunction
  have hnotFunction : (definitionOf n).kind ≠ "function_definition" := by simpa using hnotFunction
  split
  · rename_i hkind
    refine (hclass.bind fun found _ ↦ (failsWhen_declared (.inr rfl)).bind_ok fun s ↦
      ⟨s :: found.2, rfl⟩).congr ?_
    exact (stumblesAt_class hnamed (beq_iff_eq.1 hkind) hplace).symm
  rename_i hnotClass
  have hnotClass : (definitionOf n).kind ≠ "class_definition" := by simpa using hnotClass
  split
  · rename_i hexpression
    rw [Bool.and_eq_true, beq_iff_eq] at hexpression
    rw [htop.2 hexpression.1]
    exact failsWhen_lambdaBindings.congr (stumblesAt_expression hnamed hexpression.2).symm
  · rename_i hexpression
    rw [Bool.and_eq_true, beq_iff_eq] at hexpression
    refine hother.congr (stumblesAt_other hnamed hnotFunction (fun h ↦ hnotClass h.1) ?_).symm
    exact fun h ↦ hexpression ⟨htop.1 h.2, h.1⟩

/-- The methods of one node in the body of a class, and the symbols that stand deeper in it. -/
def membersAt (source : List UInt8) (n : Node) :
    Except SymbolFault (List Symbol × List Symbol) :=
  if !n.isNamed then .ok ([], [])
  else if (definitionOf n).kind == "function_definition" then do
    let s ← declared .method ((definitionOf n).nameIn source) n [] none
    let nested ← collect source false (definitionOf n).children
    pure ([s], nested)
  else do
    let nested ← collect source false n.children
    pure ([], nested)

theorem members_cons : members source (n :: rest) = (do
    let here ← membersAt source n
    let more ← members source rest
    pure (here.1 ++ more.1, here.2 ++ more.2)) := by
  rw [members, membersAt]
  by_cases hnamed : n.isNamed = true
  · by_cases hfunction : (definitionOf n).kind = "function_definition"
    · simp [hnamed, hfunction, Node.nameIn]
    · simp [hnamed, hfunction]
  · simp [hnamed]

/-- So does what a node in the body of a class comes to. -/
theorem failsWhen_membersAt
    (hfunction : FailsWhen (Stumbles source .inside (definitionOf n).children)
      (collect source false (definitionOf n).children))
    (hother : FailsWhen (Stumbles source .inside n.children) (collect source false n.children)) :
    FailsWhen (StumblesAt source .classBody n) (membersAt source n) := by
  rw [membersAt]
  split
  · rename_i hsign
    exact (FailsWhen.ok ([], [])).of_not fun h ↦ by simp [h.1] at hsign
  rename_i hnamed
  have hnamed : n.isNamed = true := by simpa using hnamed
  split
  · rename_i hkind
    refine ((failsWhen_declared (.inl rfl)).bind fun s _ ↦ hfunction.bind_ok fun nested ↦
      ⟨([s], nested), rfl⟩).congr ?_
    exact (stumblesAt_function hnamed (beq_iff_eq.1 hkind)).symm
  · rename_i hnotFunction
    refine (hother.bind_ok fun nested ↦ ⟨([], nested), rfl⟩).congr ?_
    exact (stumblesAt_other hnamed (by simpa using hnotFunction) (fun h ↦ h.2 rfl)
      fun h ↦ by cases h.2).symm

mutual

/-- **The walk over a module fails exactly when it stumbles**, whatever the tree. The induction is
on the nodes that are left, here and in bodies of classes at once. -/
theorem failsWhen_collect (source : List UInt8) (atTop : Bool) (ns : List Node) :
    FailsWhen (Stumbles source (.ofTop atTop) ns) (collect source atTop ns) := by
  match ns with
  | [] =>
    rw [collect_nil]
    exact (FailsWhen.ok []).of_not not_stumbles_nil
  | n :: rest =>
    have hfunction := failsWhen_collect source false (definitionOf n).children
    have hclass := failsWhen_members source ((definitionOf n).childrenAt "body")
    have hother := failsWhen_collect source false n.children
    have hrest := failsWhen_collect source atTop rest
    rw [collect_cons]
    refine ((failsWhen_symbolsAt hfunction hclass hother).bind fun here _ ↦
      hrest.bind_ok fun more ↦ ⟨here ++ more, rfl⟩).congr ?_
    exact stumbles_cons.symm
termination_by sizeOf ns
decreasing_by
  all_goals
    simp only [List.cons.sizeOf_spec]
    have := sizeOf_definitionOf_le n
    have := Node.sizeOf_children_lt (definitionOf n)
    have := Node.sizeOf_childrenAt_lt (definitionOf n) "body"
    have := Node.sizeOf_children_lt n
    omega

/-- And so does the walk over the body of a class. -/
theorem failsWhen_members (source : List UInt8) (ns : List Node) :
    FailsWhen (Stumbles source .classBody ns) (members source ns) := by
  match ns with
  | [] =>
    rw [members_nil]
    exact (FailsWhen.ok ([], [])).of_not not_stumbles_nil
  | n :: rest =>
    have hfunction := failsWhen_collect source false (definitionOf n).children
    have hother := failsWhen_collect source false n.children
    have hrest := failsWhen_members source rest
    rw [members_cons]
    refine ((failsWhen_membersAt hfunction hother).bind fun here _ ↦
      hrest.bind_ok fun more ↦ ⟨(here.1 ++ more.1, here.2 ++ more.2), rfl⟩).congr ?_
    exact stumbles_cons.symm
termination_by sizeOf ns
decreasing_by
  all_goals
    simp only [List.cons.sizeOf_spec]
    have := sizeOf_definitionOf_le n
    have := Node.sizeOf_children_lt (definitionOf n)
    have := Node.sizeOf_children_lt n
    omega

end

end Docwright.Outline.Python
