import Docwright.Proofs.Outline.Failure
import Docwright.Proofs.Outline.Script

/-!
# JavaScript and TypeScript declarations without a name

The walk over a JavaScript or TypeScript module passes over what has no name, with one exception: a
function that is bound to an empty name directly in the module, exported or not, makes it fail.

* `failsWhen_collect` - the walk fails exactly when it meets such a declarator, for every tree,
  whether a grammar would make it or not. Otherwise it gives its symbols.
-/

namespace Docwright.Outline.Script

/-- What export statements come down to, one within the other. -/
inductive ExportsTo : Node → Node → Prop
  | self {n : Node} (hkind : n.kind ≠ "export_statement") : ExportsTo n n
  | through {n target m : Node} (hkind : n.kind = "export_statement")
    (htarget : exportTarget? n = some target) (h : ExportsTo target m) : ExportsTo n m

/-- A declarator that binds a function to an identifier without any text. -/
def BindsNameless (source : List UInt8) (n : Node) : Prop :=
  n.isNamed = true ∧ n.kind = "variable_declarator" ∧ bindsFunction n = true ∧
    n.nameIn source = ""

/-- Such a declarator stands in a declaration at the node, exported or not. -/
def StumblesAt (source : List UInt8) (n : Node) : Prop :=
  ∃ m, ExportsTo n m ∧ m.kind ∈ variableKinds ∧ ∃ d ∈ m.children, BindsNameless source d

/-- It does so at one of the nodes. -/
def Stumbles (source : List UInt8) (ns : List Node) : Prop :=
  ∃ n ∈ ns, n.isNamed = true ∧ StumblesAt source n

variable {typed : Bool} {source : List UInt8} {atTop : Bool} {exported : Option ExportTag}
  {n target : Node} {ns rest : List Node}

theorem stumblesAt_exporting (hkind : n.kind = "export_statement")
    (htarget : exportTarget? n = some target) :
    StumblesAt source n ↔ StumblesAt source target := by
  constructor
  · rintro ⟨m, hexports, h⟩
    cases hexports with
    | self hself => exact absurd hkind hself
    | through _ htarget' hexports =>
      obtain rfl := Option.some.inj (htarget.symm.trans htarget')
      exact ⟨m, hexports, h⟩
  · rintro ⟨m, hexports, h⟩
    exact ⟨m, .through hkind htarget hexports, h⟩

theorem not_stumblesAt_exportingNothing (hkind : n.kind = "export_statement")
    (htarget : exportTarget? n = none) : ¬StumblesAt source n := by
  rintro ⟨m, hexports, _⟩
  cases hexports with
  | self hself => exact hself hkind
  | through _ htarget' => simp [htarget] at htarget'

theorem stumblesAt_iff_of_not_exporting (hkind : n.kind ≠ "export_statement") :
    StumblesAt source n ↔ n.kind ∈ variableKinds ∧ ∃ d ∈ n.children, BindsNameless source d := by
  constructor
  · rintro ⟨m, hexports, h⟩
    cases hexports with
    | self => exact h
    | through hexporting => exact absurd hexporting hkind
  · exact fun h ↦ ⟨n, .self hkind, h⟩

/-- A declaration with a name is a symbol. -/
theorem exists_declared (kind : SymbolKind) (n : Node) (children : List Symbol)
    (exported : Option ExportTag) {name : String}
    (hchildren : children = [] ∨ kind.isContainer = true)
    (hname : ¬name.isEmpty = true) : ∃ s, declared kind name n children exported = .ok s :=
  (failsWhen_declared hchildren).exists_ok (by simpa using hname)

theorem exists_signatures (source : List UInt8) (ns : List Node) :
    ∃ symbols, signatures source ns = .ok symbols := by
  induction ns with
  | nil => exact ⟨[], by rw [signatures]⟩
  | cons n rest ih =>
    obtain ⟨more, hmore⟩ := ih
    rw [signatures, hmore]
    simp only
    split
    · rename_i hsigns
      simp only [Bool.and_eq_true, Bool.not_eq_true', ← Bool.not_eq_true] at hsigns
      obtain ⟨s, hs⟩ := exists_declared .method n [] none (.inl rfl) hsigns.2
      rw [hs]
      exact ⟨_, rfl⟩
    · exact ⟨_, rfl⟩

/-- Declarations of the typed dialect are passed over when they have no name. -/
theorem exists_typedAt (typed : Bool) (source : List UInt8) (exported : Option ExportTag)
    (n : Node) : ∃ found, typedAt typed source exported n = .ok found := by
  rw [typedAt, typedSymbol?]
  split
  · split
    · exact ⟨none, rfl⟩
    rename_i kind _
    simp only
    split
    · exact ⟨none, rfl⟩
    rename_i hname
    by_cases hkind : kind = .interface
    · obtain ⟨signed, hsigned⟩ := exists_signatures source
        (((n.child? "body").map Node.children).getD [])
      obtain ⟨s, hs⟩ := exists_declared kind n signed exported (.inr (by rw [hkind]; rfl)) hname
      rw [if_pos (beq_iff_eq.2 hkind), hsigned]
      exact ⟨some s, by simp only [bind, Except.bind, hs]; rfl⟩
    · obtain ⟨s, hs⟩ := exists_declared kind n [] exported (.inl rfl) hname
      rw [if_neg (by simpa using hkind), signatures]
      exact ⟨some s, by simp only [bind, Except.bind, hs]; rfl⟩
  · exact ⟨none, rfl⟩

/-- A node in the body of a class never fails when nothing below it does. -/
theorem exists_members_cons (hbelow : ∃ nested, collect typed source false n.children = .ok nested)
    (hrest : ∃ found, members typed source rest = .ok found) :
    ∃ found, members typed source (n :: rest) = .ok found := by
  obtain ⟨nested, hnested⟩ := hbelow
  obtain ⟨found, hfound⟩ := hrest
  rw [members, hfound]
  by_cases hnamed : n.isNamed = true
  · by_cases hname : (methodName source n).isEmpty = true
    · exact ⟨_, by simp only [hnamed, hname, hnested]; rfl⟩
    · obtain ⟨s, hs⟩ := exists_declared .method n [] none (.inl rfl) hname
      exact ⟨_, by simp only [hnamed, hname, hs, hnested]; rfl⟩
  · exact ⟨_, by simp only [hnamed]; rfl⟩

/-- A node of a declaration fails exactly when it binds a function to no name directly in the
module, provided that its value never fails. -/
theorem failsWhen_bindingsAt
    (hvalue : ∃ nested, collect typed source false (n.childrenAt "value") = .ok nested) :
    FailsWhen (atTop = true ∧ BindsNameless source n)
      (bindingsAt typed source atTop exported n) := by
  obtain ⟨nested, hnested⟩ := hvalue
  rw [bindingsAt, hnested]
  split
  · rename_i hkind
    refine (FailsWhen.ok []).of_not ?_
    rintro ⟨-, hnamed, hdeclarator, -⟩
    simp [hnamed, hdeclarator] at hkind
  rename_i hkind
  obtain ⟨hnamed, hkind⟩ : n.isNamed = true ∧ n.kind = "variable_declarator" := by
    simpa using hkind
  have hbound : FailsWhen (atTop = true ∧ BindsNameless source n)
      (boundAt source atTop exported n) := by
    rw [boundAt]
    split
    · rename_i hbinds
      rw [Bool.and_eq_true] at hbinds
      refine ((failsWhen_declared (.inl rfl)).bind_ok fun s ↦ ⟨[s], rfl⟩).congr ⟨fun hname ↦ ?_, ?_⟩
      · exact ⟨hbinds.1, hnamed, hkind, hbinds.2, hname⟩
      · exact fun h ↦ h.2.2.2.2
    · rename_i hbinds
      rw [Bool.and_eq_true] at hbinds
      exact (FailsWhen.ok []).of_not fun h ↦ hbinds ⟨h.1, h.2.2.2.1⟩
  exact hbound.bind_ok fun bound ↦ ⟨bound ++ nested, rfl⟩

/-- **What a node comes to fails exactly when it declares a function without a name directly in the
module**, provided that nothing else fails. -/
theorem failsWhen_visit_step
    (htarget : ∀ target, exportTarget? n = some target →
      FailsWhen (atTop = true ∧ StumblesAt source target)
        (visit typed source atTop (some (exportTag n)) target))
    (hbelow : ∃ nested, collect typed source false n.children = .ok nested)
    (hbody : ∃ found, members typed source (n.childrenAt "body") = .ok found)
    (hbindings : FailsWhen (atTop = true ∧ ∃ d ∈ n.children, BindsNameless source d)
      (bindings typed source atTop exported n.children)) :
    FailsWhen (atTop = true ∧ StumblesAt source n) (visit typed source atTop exported n) := by
  obtain ⟨nested, hnested⟩ := hbelow
  obtain ⟨found, hfound⟩ := hbody
  have hnever : roleOf exported n ≠ .exporting → roleOf exported n ≠ .variableDeclaration →
      ¬(atTop = true ∧ StumblesAt source n) := fun hexporting hvariable h ↦
    hvariable (roleOf_eq_variableDeclaration_iff.2
      ((stumblesAt_iff_of_not_exporting (mt roleOf_eq_exporting_iff.2 hexporting)).1 h.2).1)
  rw [visit_eq]
  split
  · rename_i hrole
    have hkind := roleOf_eq_exporting_iff.1 hrole
    split
    · rename_i hnone
      exact (FailsWhen.ok []).of_not fun h ↦ not_stumblesAt_exportingNothing hkind hnone h.2
    · rename_i target hsome
      exact (htarget target hsome).congr (and_congr_right fun _ ↦
        (stumblesAt_exporting hkind hsome).symm)
  · rename_i hrole
    refine FailsWhen.of_not ?_ (hnever (by simp [hrole]) (by simp [hrole]))
    rw [hnested]
    by_cases hname : (n.nameIn source).isEmpty = true
    · simp only [bind, Except.bind, if_pos hname]
      exact .ok nested
    · obtain ⟨s, hs⟩ := exists_declared .function n [] exported (.inl rfl) hname
      simp only [bind, Except.bind, if_neg hname, hs]
      exact .ok (s :: nested)
  · rename_i hrole
    refine FailsWhen.of_not ?_ (hnever (by simp [hrole]) (by simp [hrole]))
    rw [hfound]
    by_cases hname : (n.nameIn source).isEmpty = true
    · simp only [bind, Except.bind, if_pos hname]
      exact .ok found.2
    · obtain ⟨s, hs⟩ := exists_declared .classKind n found.1 exported (.inr rfl) hname
      simp only [bind, Except.bind, if_neg hname, hs]
      exact .ok (s :: found.2)
  · rename_i hrole
    have hkind : n.kind ≠ "export_statement" := fun h ↦ by
      rw [roleOf_eq_exporting_iff.2 h] at hrole
      cases hrole
    refine hbindings.congr (and_congr_right fun _ ↦ ?_)
    rw [stumblesAt_iff_of_not_exporting hkind]
    exact (and_iff_right (roleOf_eq_variableDeclaration_iff.1 hrole)).symm
  · rename_i hrole
    refine FailsWhen.of_not ?_ (hnever (by simp [hrole]) (by simp [hrole]))
    obtain ⟨typedFound, htyped⟩ := exists_typedAt typed source exported n
    rw [htyped]
    cases typedFound with
    | some s => exact .ok [s]
    | none =>
      simp only [hnested]
      exact .ok nested

theorem stumbles_cons :
    Stumbles source (n :: rest) ↔
      (n.isNamed = true ∧ StumblesAt source n) ∨ Stumbles source rest := by
  rw [Stumbles, List.exists_mem_cons_iff]
  rfl

/-- What happens outside of the module's own declarations never fails. -/
theorem exists_ok_of_inside {α : Type} {p : Prop} {x : Except SymbolFault α}
    (h : FailsWhen (false = true ∧ p) x) : ∃ a, x = .ok a :=
  h.exists_ok fun h ↦ by cases h.1

mutual

/-- What a node comes to fails exactly when it declares a function without a name directly in the
module. -/
theorem failsWhen_visit (typed : Bool) (source : List UInt8) (atTop : Bool)
    (exported : Option ExportTag) (n : Node) :
    FailsWhen (atTop = true ∧ StumblesAt source n) (visit typed source atTop exported n) := by
  have hbelow := exists_ok_of_inside (failsWhen_collect typed source false n.children)
  have hbody := exists_members typed source (n.childrenAt "body")
  have hbindings := failsWhen_bindings typed source atTop exported n.children
  have htarget : ∀ target, exportTarget? n = some target →
      FailsWhen (atTop = true ∧ StumblesAt source target)
        (visit typed source atTop (some (exportTag n)) target) := fun target h ↦
    failsWhen_visit typed source atTop (some (exportTag n)) target
  exact failsWhen_visit_step htarget hbelow hbody hbindings
termination_by sizeOf n
decreasing_by
  all_goals
    have := Node.sizeOf_children_lt n
    have := Node.sizeOf_childrenAt_lt n "body"
    try have := sizeOf_exportTarget?_lt h
    omega

/-- **The walk over a module fails exactly when a function is bound to no name directly in the
module**, whatever the tree. The induction is on the nodes that are left, at all steps of the walk
at once. -/
theorem failsWhen_collect (typed : Bool) (source : List UInt8) (atTop : Bool) (ns : List Node) :
    FailsWhen (atTop = true ∧ Stumbles source ns) (collect typed source atTop ns) := by
  match ns with
  | [] =>
    rw [collect_nil]
    exact (FailsWhen.ok []).of_not fun ⟨_, n, hn, _⟩ ↦ List.not_mem_nil hn
  | n :: rest =>
    have hvisit := failsWhen_visit typed source atTop none n
    have hrest := failsWhen_collect typed source atTop rest
    have hhere : FailsWhen (atTop = true ∧ n.isNamed = true ∧ StumblesAt source n)
        (if n.isNamed then visit typed source atTop none n else .ok []) := by
      by_cases hnamed : n.isNamed = true
      · rw [if_pos hnamed]
        exact hvisit.congr (and_congr_right fun _ ↦ (and_iff_right hnamed).symm)
      · rw [if_neg hnamed]
        exact (FailsWhen.ok []).of_not fun h ↦ hnamed h.2.1
    rw [collect_cons]
    refine (hhere.bind fun here _ ↦ hrest.bind_ok fun more ↦ ⟨here ++ more, rfl⟩).congr ?_
    rw [stumbles_cons, ← and_or_left]
termination_by sizeOf ns
decreasing_by
  all_goals
    simp only [List.cons.sizeOf_spec]
    omega

/-- The walk over the body of a class never fails. -/
theorem exists_members (typed : Bool) (source : List UInt8) (ns : List Node) :
    ∃ found, members typed source ns = .ok found := by
  match ns with
  | [] => exact ⟨_, members_nil⟩
  | n :: rest =>
    have hbelow := exists_ok_of_inside (failsWhen_collect typed source false n.children)
    exact exists_members_cons hbelow (exists_members typed source rest)
termination_by sizeOf ns
decreasing_by
  all_goals
    simp only [List.cons.sizeOf_spec]
    have := Node.sizeOf_children_lt n
    omega

/-- The walk over a declaration fails exactly when it binds a function to no name directly in the
module. -/
theorem failsWhen_bindings (typed : Bool) (source : List UInt8) (atTop : Bool)
    (exported : Option ExportTag) (ns : List Node) :
    FailsWhen (atTop = true ∧ ∃ d ∈ ns, BindsNameless source d)
      (bindings typed source atTop exported ns) := by
  match ns with
  | [] =>
    rw [bindings_nil]
    exact (FailsWhen.ok []).of_not fun ⟨_, d, hd, _⟩ ↦ List.not_mem_nil hd
  | n :: rest =>
    have hvalue := exists_ok_of_inside
      (failsWhen_collect typed source false (n.childrenAt "value"))
    have hrest := failsWhen_bindings typed source atTop exported rest
    rw [bindings_cons]
    refine ((failsWhen_bindingsAt hvalue).bind fun here _ ↦ hrest.bind_ok fun more ↦
      ⟨here ++ more, rfl⟩).congr ?_
    rw [List.exists_mem_cons_iff, ← and_or_left]
termination_by sizeOf ns
decreasing_by
  all_goals
    simp only [List.cons.sizeOf_spec]
    have := Node.sizeOf_childrenAt_lt n "value"
    omega

end

end Docwright.Outline.Script
