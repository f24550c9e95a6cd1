import Docwright.Proofs.Outline.Python
import Mathlib.Data.List.Perm.Basic

/-!
# Which definitions of a Python module are reported

A class is reported with the functions that stand directly in its body as its methods, and any other
function by itself. So one symbol stands for one or more definitions (`standsFor`), and a report is
complete (`Complete`) when the definitions that its symbols stand for are all definitions of the
tree, each once.

The walk through a tree that fits the grammar always comes to a report. It takes the body of a class
apart into methods and the rest, and looks for the rest *below* the nodes of the body: a decorated
class is found there, below its decorators, while a class that stands directly in the body is passed
over. The walk therefore carries along what it misses (`Covers`), and
`exists_extract_complete_iff` says that the report is complete exactly when no class stands directly
in the body of another.
-/

namespace Docwright.Outline.Python

open scoped List

variable {source : List UInt8} {n : Node}

/-! ### Trees that fit the grammar -/

/-- The node is of a kind in which definitions may stand. -/
def IsHolder (n : Node) : Prop :=
  n.kind = "module" ∨ n.kind = "block" ∨ n.kind = "decorated_definition"

instance (n : Node) : Decidable (IsHolder n) :=
  inferInstanceAs (Decidable (_ ∨ _ ∨ _))

/-- Among the children of the node there is one of the given field, and only at or below it are
there nodes in which definitions may stand. -/
structure HoldsAt (n : Node) (field : String) : Prop where
  one : (n.children.filter (·.field? == some field)).length ≤ 1
  elsewhere : ∀ m ∈ n.children, m.field? ≠ some field → ∀ k ∈ m.nodes, ¬IsHolder k

instance (n : Node) (field : String) : Decidable (HoldsAt n field) :=
  decidable_of_iff ((n.children.filter (·.field? == some field)).length ≤ 1 ∧
      ∀ m ∈ n.children, m.field? ≠ some field → ∀ k ∈ m.nodes, ¬IsHolder k)
    ⟨fun ⟨h₁, h₂⟩ ↦ ⟨h₁, h₂⟩, fun ⟨h₁, h₂⟩ ↦ ⟨h₁, h₂⟩⟩

/-- What the grammar says of a node and the nodes directly below it. Definitions have names and
stand in a module, in a block or below their decorators; a class has one block for its body,
decorators go with one definition, and there are no blocks in the expressions of either, nor in
statements that are expressions. -/
structure Fits (source : List UInt8) (n : Node) : Prop where
  named : IsDefinition n → n.nameIn source ≠ ""
  held : ∀ m ∈ n.children, IsDefinition m → n.kind = "module" ∨ n.kind = "block" ∨
    (n.kind = "decorated_definition" ∧ m.field? = some "definition")
  sign : n.isNamed = false → ¬IsDefinition n ∧ n.children = []
  identifier : n.kind = "identifier" → n.text source ≠ ""
  expression : n.kind = "expression_statement" → ∀ m ∈ n.nodes, ¬IsHolder m
  classBody : n.kind = "class_definition" →
    HoldsAt n "body" ∧ ∀ m ∈ n.child? "body", m.kind = "block"
  decorated : n.kind = "decorated_definition" →
    HoldsAt n "definition" ∧ ∃ m ∈ n.child? "definition", IsDefinition m

instance (source : List UInt8) (n : Node) : Decidable (Fits source n) :=
  decidable_of_iff ((IsDefinition n → n.nameIn source ≠ "") ∧
      (∀ m ∈ n.children, IsDefinition m → n.kind = "module" ∨ n.kind = "block" ∨
        (n.kind = "decorated_definition" ∧ m.field? = some "definition")) ∧
      (n.isNamed = false → ¬IsDefinition n ∧ n.children.isEmpty) ∧
      (n.kind = "identifier" → n.text source ≠ "") ∧
      (n.kind = "expression_statement" → ∀ m ∈ n.nodes, ¬IsHolder m) ∧
      (n.kind = "class_definition" →
        HoldsAt n "body" ∧ ∀ m ∈ (n.child? "body").toList, m.kind = "block") ∧
      (n.kind = "decorated_definition" →
        HoldsAt n "definition" ∧ ∃ m ∈ (n.child? "definition").toList, IsDefinition m))
    ⟨fun ⟨h₁, h₂, h₃, h₄, h₅, h₆, h₇⟩ ↦ ⟨h₁, h₂, by simpa using h₃, h₄, h₅, by simpa using h₆,
      by simpa using h₇⟩,
    fun ⟨h₁, h₂, h₃, h₄, h₅, h₆, h₇⟩ ↦ ⟨h₁, h₂, by simpa using h₃, h₄, h₅, by simpa using h₆,
      by simpa using h₇⟩⟩

/-- The nodes all fit the grammar. -/
def AllFit (source : List UInt8) (ns : List Node) : Prop :=
  ∀ n ∈ ns, Fits source n

instance (source : List UInt8) (ns : List Node) : Decidable (AllFit source ns) :=
  inferInstanceAs (Decidable (∀ n ∈ ns, Fits source n))

/-- A module that fits the grammar. -/
structure Grammatical (source : List UInt8) (root : Node) : Prop where
  isModule : root.kind = "module"
  fits : AllFit source root.nodes

/-! ### Complete reports -/

/-- The functions among some nodes, with their decorators. -/
def functionsAmong (ns : List Node) : List Node :=
  ns.filter fun n ↦ (definitionOf n).kind = "function_definition"

/-- The symbol for a definition, on all lines of the node. -/
def entry (kind : SymbolKind) (source : List UInt8) (n : Node) (children : List Symbol) : Symbol :=
  .mk kind ((definitionOf n).nameIn source) n.lines.1 (max n.lines.2 n.lines.1) children none

/-- The report of a class, with its methods, or of a function. -/
def reportOf (source : List UInt8) (n : Node) : Symbol :=
  if (definitionOf n).kind = "class_definition" then
    entry .classKind source n
      ((functionsAmong ((definitionOf n).childrenAt "body")).map (entry .method source · []))
  else entry .function source n []

/-- The definitions that the report of a node stands for. -/
def standsFor (n : Node) : List Node :=
  definitionOf n ::
    if (definitionOf n).kind = "class_definition" then
      (functionsAmong ((definitionOf n).childrenAt "body")).map definitionOf
    else []

/-- The definitions among some nodes. -/
def definitionsAmong (ns : List Node) : List Node :=
  ns.filter fun n ↦ IsDefinition n

/-- What is reported besides variables. -/
def definitionsOf (symbols : List Symbol) : List Symbol :=
  symbols.filter fun s ↦ s.kind ≠ .variable

/-- The symbols report all definitions of the tree, each of them once. -/
def Complete (source : List UInt8) (root : Node) (symbols : List Symbol) : Prop :=
  ∃ ds ⊆ root.nodes, definitionsOf symbols = ds.map (reportOf source) ∧
    ds.flatMap standsFor ~ definitionsAmong root.nodes

/-- The body of the class has a class directly in it. -/
def Embeds (n : Node) : Prop :=
  n.kind = "class_definition" ∧ ∃ m ∈ n.childrenAt "body", m.kind = "class_definition"

instance (n : Node) : Decidable (Embeds n) :=
  inferInstanceAs (Decidable (_ ∧ _))

/-- A symbol stands for itself and for what it owns. -/
theorem length_standsFor (n : Node) :
    (standsFor n).length = (reportOf source n).children.length + 1 := by
  rw [standsFor, reportOf]
  split <;> simp [entry, Symbol.children]

theorem kind_reportOf_ne (n : Node) : (reportOf source n).kind ≠ .variable := by
  rw [reportOf]
  split <;> simp [entry, Symbol.kind]

theorem reportOf_function (h : (definitionOf n).kind = "function_definition") :
    reportOf source n = entry .function source n [] := by
  rw [reportOf, if_neg (by simp [h])]

/-! ### Definitions below a node -/

theorem definitionsAmong_append (ns ms : List Node) :
    definitionsAmong (ns ++ ms) = definitionsAmong ns ++ definitionsAmong ms :=
  List.filter_append ..

theorem definitionsAmong_nodes_of_not (h : ¬IsDefinition n) :
    definitionsAmong n.nodes = definitionsAmong (Node.nodesOf n.children) := by
  rw [Node.nodes_eq, definitionsAmong, List.filter_cons_of_neg (by simpa using h), definitionsAmong]

theorem AllFit.children (h : AllFit source n.nodes) : AllFit source (Node.nodesOf n.children) :=
  fun m hm ↦ h m (Node.nodesOf_children_subset n hm)

theorem AllFit.child (h : AllFit source n.nodes) {m : Node} (hm : m ∈ n.children) :
    AllFit source m.nodes :=
  fun k hk ↦ h k (Node.nodes_subset_of_mem_children hm hk)

/-- Where nothing may stand in which there are definitions, there are none below. -/
theorem definitionsAmong_nodes_eq_nil (hfit : AllFit source n.nodes) (hn : ¬IsDefinition n)
    (h : ∀ k ∈ n.nodes, ¬IsHolder k) : definitionsAmong n.nodes = [] := by
  rw [definitionsAmong_nodes_of_not hn, definitionsAmong, List.filter_eq_nil_iff]
  intro m hm hdefinition
  obtain ⟨k, hk, hmk⟩ := Node.exists_parent hm
  refine h k hk ?_
  rcases (hfit k hk).held m hmk (by simpa using hdefinition) with hkind | hkind | ⟨hkind, -⟩
  · exact .inl hkind
  · exact .inr (.inl hkind)
  · exact .inr (.inr hkind)

/-- When one child at most is picked and there are no definitions at or below the others, all
definitions are at or below the child that is picked. -/
theorem definitionsAmong_nodesOf_eq {pick : Node → Bool} {ns : List Node}
    (hone : (ns.filter pick).length ≤ 1)
    (helse : ∀ m ∈ ns, pick m = false → definitionsAmong m.nodes = []) :
    definitionsAmong (Node.nodesOf ns) =
      ((ns.find? pick).map fun m ↦ definitionsAmong m.nodes).getD [] := by
  induction ns with
  | nil => rfl
  | cons m rest ih =>
    rw [Node.nodesOf, definitionsAmong_append]
    rw [List.forall_mem_cons] at helse
    cases hm : pick m with
    | true =>
      rw [List.filter_cons_of_pos hm, List.length_cons] at hone
      have hnone : rest.find? pick = none := by
        rw [List.find?_eq_none]
        exact List.filter_eq_nil_iff.1 (List.length_eq_zero_iff.1 (by omega))
      rw [ih (by omega) helse.2, hnone, List.find?_cons_of_pos hm]
      exact List.append_nil _
    | false =>
      rw [List.filter_cons_of_neg (by simp [hm])] at hone
      rw [helse.1 hm, ih hone helse.2, List.find?_cons_of_neg (by simp [hm])]
      rfl

/-- The definitions below a node stand at or below its one child of the given field. -/
theorem HoldsAt.definitionsAmong_eq {field : String} (h : HoldsAt n field)
    (hfit : AllFit source n.nodes)
    (hheld : ∀ m ∈ n.children, m.field? ≠ some field → ¬IsDefinition m) :
    definitionsAmong (Node.nodesOf n.children) =
      ((n.child? field).map fun m ↦ definitionsAmong m.nodes).getD [] := by
  refine definitionsAmong_nodesOf_eq h.one fun m hm hfield ↦ ?_
  have hfield : m.field? ≠ some field := by simpa using hfield
  exact definitionsAmong_nodes_eq_nil (hfit.child hm) (hheld m hm hfield) (h.elsewhere m hm hfield)

/-- Below a class definitions stand below its body. -/
theorem definitionsAmong_class (hfit : AllFit source n.nodes)
    (hkind : n.kind = "class_definition") :
    definitionsAmong (Node.nodesOf n.children) =
      definitionsAmong (Node.nodesOf (n.childrenAt "body")) := by
  have hn := hfit n n.self_mem_nodes
  obtain ⟨hbody, hblock⟩ := hn.classBody hkind
  rw [hbody.definitionsAmong_eq hfit fun m hm hfield hdefinition ↦ by
    simpa [hkind] using hn.held m hm hdefinition, Node.childrenAt]
  cases hchild : n.child? "body" with
  | none => rfl
  | some body =>
    refine definitionsAmong_nodes_of_not ?_
    rw [IsDefinition, hblock body hchild]
    decide

/-- Below decorators there is the definition that they go with. -/
theorem definitionsAmong_decorated (hfit : AllFit source n.nodes) :
    definitionsAmong n.nodes = definitionsAmong (definitionOf n).nodes := by
  rw [definitionOf]
  split
  · rename_i hkind
    have hkind : n.kind = "decorated_definition" := by simpa using hkind
    have hn := hfit n n.self_mem_nodes
    obtain ⟨hholds, m, hchild, -⟩ := hn.decorated hkind
    rw [definitionsAmong_nodes_of_not (by simp [IsDefinition, hkind]),
      hholds.definitionsAmong_eq hfit fun k hk hfield hdefinition ↦ by
        simpa [hkind, hfield] using hn.held k hk hdefinition]
    rw [Option.mem_def] at hchild
    rw [hchild]
    rfl
  · rfl

/-- What is defined at a node stands first among the definitions at and below it. -/
theorem definitionsAmong_nodes (hfit : AllFit source n.nodes) (h : IsDefinition (definitionOf n)) :
    definitionsAmong n.nodes =
      definitionOf n :: definitionsAmong (Node.nodesOf (definitionOf n).children) := by
  rw [definitionsAmong_decorated hfit, Node.nodes_eq, definitionsAmong,
    List.filter_cons_of_pos (by simpa using h), definitionsAmong]

/-! ### What a walk reports and what it misses -/

theorem declared_eq_entry {kind : SymbolKind} {children : List Symbol}
    (hfit : AllFit source n.nodes) (h : IsDefinition (definitionOf n))
    (hchildren : children = [] ∨ kind.isContainer = true) :
    declared kind ((definitionOf n).nameIn source) n children none =
      .ok (entry kind source n children) := by
  have hname : (definitionOf n).nameIn source ≠ "" :=
    (hfit _ (definitionOf_mem_nodes n)).named h
  rw [declared, Symbol.make, if_neg (by simpa using hname), if_neg, entry]
  rcases hchildren with rfl | hkind
  · simp
  · simp [hkind]

/-- The symbols report some of the definitions among the nodes, each once. Apart from what these
symbols stand for there are definitions for which other symbols stand, and such as are missed. -/
structure Covers (source : List UInt8) (own ds missed : List Node) (symbols : List Symbol)
    (nodes : List Node) : Prop where
  found : ds ⊆ nodes
  reported : definitionsOf symbols = ds.map (reportOf source)
  counted : own ++ (ds.flatMap standsFor ++ missed) ~ definitionsAmong nodes

section Covers

variable {own own' ds ds' missed missed' nodes nodes' : List Node} {symbols symbols' : List Symbol}

theorem perm_append_append (a b c d : List Node) : (a ++ b) ++ (c ++ d) ~ (a ++ c) ++ (b ++ d) := by
  rw [List.append_assoc, List.append_assoc]
  exact (List.perm_append_comm_assoc b c d).append_left a

/-- Where nothing is defined, nothing needs to be reported. -/
theorem Covers.of_nil (hsymbols : definitionsOf symbols = [])
    (hnodes : definitionsAmong nodes = []) :
    Covers source [] [] [] symbols nodes :=
  ⟨by simp, hsymbols, by simp [hnodes]⟩

theorem Covers.append (h : Covers source own ds missed symbols nodes)
    (h' : Covers source own' ds' missed' symbols' nodes') :
    Covers source (own ++ own') (ds ++ ds') (missed ++ missed') (symbols ++ symbols')
      (nodes ++ nodes') where
  found := List.append_subset.2 ⟨List.subset_append_of_subset_left _ h.found,
    List.subset_append_of_subset_right _ h'.found⟩
  reported := by
    rw [List.map_append, ← h.reported, ← h'.reported]
    exact List.filter_append ..
  counted := by
    rw [definitionsAmong_append, List.flatMap_append]
    calc (own ++ own') ++ ((ds.flatMap standsFor ++ ds'.flatMap standsFor) ++ (missed ++ missed'))
      _ ~ (own ++ own') ++
          ((ds.flatMap standsFor ++ missed) ++ (ds'.flatMap standsFor ++ missed')) :=
        (perm_append_append ..).append_left _
      _ ~ (own ++ (ds.flatMap standsFor ++ missed)) ++
          (own' ++ (ds'.flatMap standsFor ++ missed')) := perm_append_append ..
      _ ~ definitionsAmong nodes ++ definitionsAmong nodes' := h.counted.append h'.counted

/-- The definitions below a node are all of those at it too, unless it is a definition itself. -/
theorem Covers.up (h : Covers source own ds missed symbols nodes) (hnodes : nodes ⊆ nodes')
    (hsame : definitionsAmong nodes' = definitionsAmong nodes) :
    Covers source own ds missed symbols nodes' :=
  ⟨List.Subset.trans h.found hnodes, h.reported, hsame ▸ h.counted⟩

/-- A definition is reported before what is nested in it. -/
theorem Covers.report (h : Covers source own ds missed symbols nodes) (hnodes : nodes ⊆ n.nodes)
    (hstands : standsFor n = definitionOf n :: own)
    (hdefinitions : definitionsAmong n.nodes = definitionOf n :: definitionsAmong nodes) :
    Covers source [] (n :: ds) missed (reportOf source n :: symbols) n.nodes where
  found := List.cons_subset.2 ⟨n.self_mem_nodes, List.Subset.trans h.found hnodes⟩
  reported := by
    rw [definitionsOf, List.filter_cons_of_pos (by simpa using kind_reportOf_ne n), List.map_cons,
      ← h.reported, definitionsOf]
  counted := by
    rw [hdefinitions, List.flatMap_cons, hstands, List.nil_append, List.append_assoc,
      List.cons_append]
    exact h.counted.cons _

/-- A method is reported with its class. -/
theorem Covers.keep (h : Covers source [] ds missed symbols nodes) (hnodes : nodes ⊆ n.nodes)
    (hdefinitions : definitionsAmong n.nodes = definitionOf n :: definitionsAmong nodes) :
    Covers source [definitionOf n] ds missed symbols n.nodes :=
  ⟨List.Subset.trans h.found hnodes, h.reported, by
    rw [hdefinitions]
    exact h.counted.cons _⟩

/-- A definition may be missed. -/
theorem Covers.miss (h : Covers source [] ds missed symbols nodes) (hnodes : nodes ⊆ n.nodes)
    (hdefinitions : definitionsAmong n.nodes = n :: definitionsAmong nodes) :
    Covers source [] ds (n :: missed) symbols n.nodes :=
  ⟨List.Subset.trans h.found hnodes, h.reported, by
    rw [hdefinitions]
    exact List.perm_middle.trans (h.counted.cons _)⟩

end Covers

/-- Names that are bound to lambdas are variables. -/
theorem exists_lambdaBindings {ns : List Node} (hfit : AllFit source (Node.nodesOf ns)) :
    ∃ symbols, lambdaBindings source ns = .ok symbols ∧ definitionsOf symbols = [] := by
  induction ns with
  | nil => exact ⟨[], rfl, rfl⟩
  | cons n rest ih =>
    obtain ⟨hn, hrest⟩ := List.forall_mem_append.1
      (show ∀ m ∈ n.nodes ++ Node.nodesOf rest, _ from hfit)
    obtain ⟨more, hmore, hmoreNone⟩ := ih hrest
    have hhere : ∃ here, (if n.isNamed then lambdaBinding source n else .ok []) = .ok here ∧
        definitionsOf here = [] := by
      split
      · rw [lambdaBinding]
        split
        · rename_i left right hleft hright
          split
          · rename_i hkinds
            have hidentifier : left.kind = "identifier" := by
              simp only [Bool.and_eq_true, beq_iff_eq] at hkinds
              exact hkinds.1.2
            have hmem : left ∈ n.nodes := Node.nodesOf_children_subset n
              (Node.nodes_subset_nodesOf (Node.child?_mem hleft) left.self_mem_nodes)
            have htext := (hn left hmem).identifier hidentifier
            refine ⟨[.mk .variable (left.text source) n.lines.1 (max n.lines.2 n.lines.1) [] none],
              ?_, rfl⟩
            rw [declared, Symbol.make, if_neg (by simpa using htext)]
            rfl
          · exact ⟨[], rfl, rfl⟩
        · exact ⟨[], rfl, rfl⟩
      · exact ⟨[], rfl, rfl⟩
    obtain ⟨here, hhere, hhereNone⟩ := hhere
    refine ⟨here ++ more, ?_, ?_⟩
    · rw [lambdaBindings_cons, hhere, hmore]
      rfl
    · rw [definitionsOf, List.filter_append, ← definitionsOf, ← definitionsOf, hhereNone, hmoreNone]
      rfl

theorem not_embeds_of_function (h : n.kind = "function_definition") : ¬Embeds n :=
  fun hembeds ↦ by simp [Embeds, h] at hembeds

/-- Nothing is defined at a sign. -/
theorem definitionsAmong_sign (hfit : AllFit source n.nodes) (hnamed : n.isNamed = false) :
    definitionsAmong n.nodes = [] := by
  obtain ⟨hn, hchildren⟩ := (hfit n n.self_mem_nodes).sign hnamed
  rw [definitionsAmong_nodes_of_not hn, hchildren]
  rfl

/-- A node that is not taken for a definition is neither one nor the decorators of one. -/
theorem definitionOf_eq_self (h : ¬IsDefinition (definitionOf n))
    (hfit : AllFit source n.nodes) : definitionOf n = n := by
  rw [definitionOf] at h ⊢
  split
  · rename_i hkind
    rw [if_pos hkind] at h
    obtain ⟨-, m, hchild, hm⟩ := (hfit n n.self_mem_nodes).decorated (by simpa using hkind)
    rw [Option.mem_def] at hchild
    rw [hchild] at h
    exact absurd hm h
  · rfl

theorem nodes_definitionOf_subset (n : Node) : (definitionOf n).nodes ⊆ n.nodes := by
  rcases definitionOf_eq_or_mem n with h | h
  · rw [h]
    exact List.Subset.refl _
  · exact Node.nodes_subset_of_mem_children h

theorem AllFit.definitionOf (h : AllFit source n.nodes) : AllFit source (definitionOf n).nodes :=
  fun m hm ↦ h m (nodes_definitionOf_subset n hm)

theorem AllFit.childrenAt (h : AllFit source n.nodes) {field : String} :
    AllFit source (Node.nodesOf (n.childrenAt field)) :=
  fun m hm ↦ h m (Node.nodesOf_childrenAt_subset n field hm)

theorem functionsAmong_cons_of_not {rest : List Node}
    (h : (definitionOf n).kind ≠ "function_definition") :
    functionsAmong (n :: rest) = functionsAmong rest :=
  List.filter_cons_of_neg (by simpa using h)

theorem functionsAmong_cons_of {rest : List Node}
    (h : (definitionOf n).kind = "function_definition") :
    functionsAmong (n :: rest) = n :: functionsAmong rest :=
  List.filter_cons_of_pos (by simpa using h)

/-- The body of a class is clear of classes that stand directly in it. -/
def Clear (ns : List Node) : Prop :=
  ∀ m ∈ ns, m.kind ≠ "class_definition"

/-- No class among the definitions embeds another. -/
def Unembedded (definitions : List Node) : Prop :=
  ∀ c ∈ definitions, ¬Embeds c

theorem unembedded_append_iff {a b : List Node} :
    Unembedded (a ++ b) ↔ Unembedded a ∧ Unembedded b :=
  List.forall_mem_append

theorem unembedded_function_cons_iff {definitions : List Node}
    (h : n.kind = "function_definition") :
    Unembedded (n :: definitions) ↔ Unembedded definitions := by
  rw [Unembedded, List.forall_mem_cons]
  exact and_iff_right (not_embeds_of_function h)

theorem unembedded_class_cons_iff {definitions : List Node} (h : n.kind = "class_definition") :
    Unembedded (n :: definitions) ↔ Clear (n.childrenAt "body") ∧ Unembedded definitions := by
  rw [Unembedded, List.forall_mem_cons]
  refine and_congr_left' ?_
  simp [Embeds, Clear, h]

mutual

/-- **A walk over nodes reports what is defined among them**, and misses nothing exactly when no
class embeds another. -/
theorem exists_collect (atTop : Bool) {ns : List Node} (hfit : AllFit source (Node.nodesOf ns)) :
    ∃ symbols ds missed, collect source atTop ns = .ok symbols ∧
      Covers source [] ds missed symbols (Node.nodesOf ns) ∧
      (missed = [] ↔ Unembedded (definitionsAmong (Node.nodesOf ns))) := by
  match ns, hfit with
  | [], _ =>
    exact ⟨[], [], [], collect_nil, .of_nil rfl rfl,
      by simp [Node.nodesOf, definitionsAmong, Unembedded]⟩
  | n :: rest, hfit =>
    have := sizeOf_definitionOf_le n
    have := Node.sizeOf_children_lt (definitionOf n)
    have := Node.sizeOf_childrenAt_lt (definitionOf n) "body"
    have := Node.sizeOf_children_lt n
    obtain ⟨hn, hrest⟩ : AllFit source n.nodes ∧ AllFit source (Node.nodesOf rest) :=
      List.forall_mem_append.1 hfit
    obtain ⟨more, moreDs, moreMissed, hmore, hmoreCovers, hmoreIff⟩ := exists_collect atTop hrest
    suffices hhere : ∃ here ds missed, At source atTop n here ∧
        Covers source [] ds missed here n.nodes ∧
        (missed = [] ↔ Unembedded (definitionsAmong n.nodes)) by
      obtain ⟨here, ds, missed, hhere, hcovers, hiff⟩ := hhere
      refine ⟨here ++ more, ds ++ moreDs, missed ++ moreMissed,
        collect_cons_ok_iff.2 ⟨here, more, hhere, hmore, rfl⟩, hcovers.append hmoreCovers, ?_⟩
      rw [Node.nodesOf, definitionsAmong_append, unembedded_append_iff, List.append_eq_nil_iff,
        hiff, hmoreIff]
    have hdefinition : AllFit source (definitionOf n).nodes := hn.definitionOf
    have hbelow := Node.nodesOf_children_subset (definitionOf n)
    by_cases hnamed : n.isNamed = true
    case neg =>
      have hnamed : n.isNamed = false := by simpa using hnamed
      have hnone := definitionsAmong_sign hn hnamed
      exact ⟨[], [], [], .sign hnamed, .of_nil rfl hnone, by simp [hnone, Unembedded]⟩
    by_cases hfunction : (definitionOf n).kind = "function_definition"
    · obtain ⟨nested, ds, missed, hnested, hcovers, hiff⟩ :=
        exists_collect false hdefinition.children
      have hnodes := definitionsAmong_nodes hn (.inr hfunction)
      refine ⟨reportOf source n :: nested, n :: ds, missed, ?_, hcovers.report ?_ ?_ hnodes, ?_⟩
      · rw [reportOf_function hfunction]
        exact .function hnamed hfunction (declared_eq_entry hn (.inr hfunction) (.inl rfl)) hnested
      · exact List.Subset.trans hbelow (nodes_definitionOf_subset n)
      · simp [standsFor, hfunction]
      · rw [hnodes, unembedded_function_cons_iff hfunction, hiff]
    by_cases hclass : (definitionOf n).kind = "class_definition"
    · obtain ⟨nested, ds, missed, hmembers, hcovers, hiff⟩ := exists_members hdefinition.childrenAt
      have hnodes := definitionsAmong_nodes hn (.inl hclass)
      rw [definitionsAmong_class hdefinition hclass] at hnodes
      refine ⟨reportOf source n :: nested, n :: ds, missed, ?_, hcovers.report ?_ ?_ hnodes, ?_⟩
      · rw [reportOf, if_pos hclass]
        exact .classDefinition hnamed hclass hmembers
          (declared_eq_entry hn (.inl hclass) (.inr rfl))
      · exact List.Subset.trans (Node.nodesOf_childrenAt_subset _ _) (nodes_definitionOf_subset n)
      · simp [standsFor, hclass]
      · rw [hnodes, unembedded_class_cons_iff hclass, hiff]
    have hnot : ¬IsDefinition (definitionOf n) := fun h ↦ h.elim hclass hfunction
    have hself := definitionOf_eq_self hnot hn
    rw [hself] at hnot
    by_cases hexpression : atTop = true ∧ n.kind = "expression_statement"
    · obtain ⟨symbols, hbindings, hvariables⟩ := exists_lambdaBindings hn.children
      have hnone := definitionsAmong_nodes_eq_nil hn hnot
        ((hn n n.self_mem_nodes).expression hexpression.2)
      exact ⟨symbols, [], [],
        .expression hnamed hfunction hclass hexpression.1 hexpression.2 hbindings,
        .of_nil hvariables hnone, by simp [hnone, Unembedded]⟩
    · obtain ⟨symbols, ds, missed, hsymbols, hcovers, hiff⟩ := exists_collect false hn.children
      have hnodes := definitionsAmong_nodes_of_not hnot
      exact ⟨symbols, ds, missed, .other hnamed hfunction hclass hexpression hsymbols,
        hcovers.up (Node.nodesOf_children_subset n) hnodes, by rw [hnodes, hiff]⟩
termination_by sizeOf ns

/-- **A walk over the body of a class** comes to the methods and reports what else is defined there;
it misses nothing exactly when, besides, no class stands directly in the body. -/
theorem exists_members {ns : List Node} (hfit : AllFit source (Node.nodesOf ns)) :
    ∃ nested ds missed, members source ns =
        .ok ((functionsAmong ns).map (entry .method source · []), nested) ∧
      Covers source ((functionsAmong ns).map definitionOf) ds missed nested (Node.nodesOf ns) ∧
      (missed = [] ↔ Clear ns ∧ Unembedded (definitionsAmong (Node.nodesOf ns))) := by
  match ns, hfit with
  | [], _ =>
    exact ⟨[], [], [], members_nil, .of_nil rfl rfl,
      by simp [Clear, Unembedded, Node.nodesOf, definitionsAmong]⟩
  | n :: rest, hfit =>
    have := sizeOf_definitionOf_le n
    have := Node.sizeOf_children_lt (definitionOf n)
    have := Node.sizeOf_children_lt n
    obtain ⟨hn, hrest⟩ : AllFit source n.nodes ∧ AllFit source (Node.nodesOf rest) :=
      List.forall_mem_append.1 hfit
    obtain ⟨more, moreDs, moreMissed, hmore, hmoreCovers, hmoreIff⟩ := exists_members hrest
    suffices hhere : ∃ here ds missed, MemberAt source n
        ((functionsAmong [n]).map (entry .method source · [])) here ∧
        Covers source ((functionsAmong [n]).map definitionOf) ds missed here n.nodes ∧
        (missed = [] ↔ n.kind ≠ "class_definition" ∧ Unembedded (definitionsAmong n.nodes)) by
      obtain ⟨here, ds, missed, hhere, hcovers, hiff⟩ := hhere
      have hfunctions : functionsAmong (n :: rest) = functionsAmong [n] ++ functionsAmong rest :=
        List.filter_append (p := _) [n] rest
      refine ⟨here ++ more, ds ++ moreDs, missed ++ moreMissed, ?_, ?_, ?_⟩
      · rw [hfunctions, List.map_append]
        exact members_cons_ok_iff.2 ⟨_, here, _, more, hhere, hmore, rfl, rfl⟩
      · rw [hfunctions, List.map_append]
        exact hcovers.append hmoreCovers
      · rw [Node.nodesOf, definitionsAmong_append, unembedded_append_iff, List.append_eq_nil_iff,
          hiff, hmoreIff, Clear, Clear, List.forall_mem_cons]
        tauto
    by_cases hnamed : n.isNamed = true
    case neg =>
      have hnamed : n.isNamed = false := by simpa using hnamed
      have hnone := definitionsAmong_sign hn hnamed
      have hnot := List.filter_eq_nil_iff.1 hnone (definitionOf n) (definitionOf_mem_nodes n)
      have hclass : n.kind ≠ "class_definition" := fun hkind ↦
        List.filter_eq_nil_iff.1 hnone n n.self_mem_nodes (by simp [IsDefinition, hkind])
      rw [functionsAmong_cons_of_not fun hkind ↦ hnot (by simp [IsDefinition, hkind])]
      exact ⟨[], [], [], .sign hnamed, .of_nil rfl hnone, by simp [hnone, Unembedded, hclass]⟩
    by_cases hfunction : (definitionOf n).kind = "function_definition"
    · obtain ⟨nested, ds, missed, hnested, hcovers, hiff⟩ :=
        exists_collect false hn.definitionOf.children
      have hnodes := definitionsAmong_nodes hn (.inr hfunction)
      have hkind : n.kind ≠ "class_definition" := fun hkind ↦ by
        simp [definitionOf, hkind] at hfunction
      rw [functionsAmong_cons_of hfunction]
      refine ⟨nested, ds, missed, ?_, hcovers.keep ?_ hnodes, ?_⟩
      · exact .method hnamed hfunction (declared_eq_entry hn (.inr hfunction) (.inl rfl)) hnested
      · exact List.Subset.trans (Node.nodesOf_children_subset _) (nodes_definitionOf_subset n)
      · rw [hnodes, unembedded_function_cons_iff hfunction, hiff, and_iff_right hkind]
    obtain ⟨nested, ds, missed, hnested, hcovers, hiff⟩ := exists_collect false hn.children
    rw [functionsAmong_cons_of_not hfunction]
    have hmember : MemberAt source n [] nested := .other hnamed hfunction hnested
    by_cases hclass : n.kind = "class_definition"
    · -- the class itself is missed, whatever stands below it
      have hself : definitionOf n = n := by simp [definitionOf, hclass]
      have hnodes := definitionsAmong_nodes hn (by rw [hself]; exact .inl hclass)
      rw [hself] at hnodes
      exact ⟨nested, ds, n :: missed, hmember,
        hcovers.miss (Node.nodesOf_children_subset n) hnodes, by simp [hclass]⟩
    · have hnot : ¬IsDefinition n := fun h ↦ h.elim hclass fun hkind ↦
        hfunction (by simp [definitionOf, hkind])
      have hnodes := definitionsAmong_nodes_of_not hnot
      exact ⟨nested, ds, missed, hmember, hcovers.up (Node.nodesOf_children_subset n) hnodes,
        by rw [hnodes, hiff, and_iff_right hclass]⟩
termination_by sizeOf ns

end

/-- What symbols stand for can be counted on the symbols. -/
theorem length_flatMap_standsFor (source : List UInt8) (ds : List Node) :
    (ds.flatMap standsFor).length
      = ((ds.map (reportOf source)).flatMap fun s ↦ s :: s.children).length := by
  induction ds with
  | nil => rfl
  | cons n rest ih =>
    rw [List.flatMap_cons, List.map_cons, List.flatMap_cons, List.length_append,
      List.length_append, ih, length_standsFor, List.length_cons]

/-- **All that is defined in a module is reported, once, unless one class stands directly in the
body of another.** A class that does is missed. -/
theorem exists_extract_complete_iff {trees : TreeSource} {path : String} {root : Node}
    (hroot : soundTree trees (Dialect.python.grammarOf path) source = .ok root)
    (h : Grammatical source root) :
    ∃ symbols, extract trees .python path source = .ok symbols ∧
      (Complete source root symbols ↔ ∀ c ∈ root.nodes, ¬Embeds c) := by
  have hnodes : definitionsAmong root.nodes = definitionsAmong (Node.nodesOf root.children) :=
    definitionsAmong_nodes_of_not (by simp [IsDefinition, h.isModule])
  obtain ⟨symbols, ds, missed, hsymbols, hcovers, hiff⟩ := exists_collect true h.fits.children
  replace hcovers := hcovers.up (Node.nodesOf_children_subset root) hnodes
  rw [← hnodes] at hiff
  refine ⟨symbols, extract_ok_iff.2 ⟨root, hroot, hsymbols⟩, ?_⟩
  have hembeds : (∀ c ∈ root.nodes, ¬Embeds c) ↔ missed = [] := by
    rw [hiff]
    refine ⟨fun hnone c hc ↦ hnone c (List.mem_of_mem_filter hc), fun hnone c hc hembeds ↦ ?_⟩
    exact hnone c (List.mem_filter.2 ⟨hc, by simpa using .inl hembeds.1⟩) hembeds
  rw [hembeds]
  constructor
  · -- both reports stand for as many definitions, so nothing is left to be missed
    rintro ⟨all, -, hreported, hall⟩
    have hcount := hcovers.counted.length_eq
    rw [← hall.length_eq, List.nil_append, List.length_append,
      length_flatMap_standsFor source, length_flatMap_standsFor source, ← hreported,
      ← hcovers.reported] at hcount
    exact List.length_eq_zero_iff.1 (by omega)
  · rintro rfl
    exact ⟨ds, hcovers.found, hcovers.reported, by simpa using hcovers.counted⟩

namespace Nest

/-- A class in the body of another, with a method. -/
def bytes : List UInt8 :=
  "class A:\n class B:\n  def f(): 0\n".toList.map fun c ↦ c.toNat.toUInt8

/-- The method. -/
def method : Node :=
  .mk "function_definition" true false false true none 21 31 2 2
    [nameNode 25 2, blockNode 30 31 2 2 []]

/-- The class within. -/
def inner : Node :=
  .mk "class_definition" true false false true none 10 31 1 2
    [nameNode 16 1, blockNode 21 31 2 2 [method]]

/-- The class around it. -/
def outer : Node :=
  .mk "class_definition" true false false true none 0 31 0 2
    [nameNode 6 0, blockNode 10 31 1 2 [inner]]

/-- The module. -/
def root : Node :=
  .mk "module" true false false true none 0 32 0 3 [outer]

/-- What is reported: the class around without methods, and what should be a method of the class
within. -/
def symbols : List Symbol :=
  [.mk .classKind "A" 1 3 [] none, .mk .function "f" 3 3 [] none]

theorem collect_inner :
    collect bytes false inner.children = .ok [.mk .function "f" 3 3 [] none] := by
  have hmethod : collect bytes false [method] = .ok [.mk .function "f" 3 3 [] none] :=
    collect_cons_ok_iff.2 ⟨[_], [], .function rfl rfl rfl (collect_eq_nil (by decide)),
      collect_nil, rfl⟩
  exact collect_cons_ok_iff.2 ⟨[], _, at_nameNode,
    collect_cons_ok_iff.2 ⟨_, [], at_blockNode hmethod, collect_nil, rfl⟩, rfl⟩

theorem extract_root : extract (fun _ _ ↦ root) .python "a.py" bytes = .ok symbols := by
  have hmembers : members bytes (outer.childrenAt "body") =
      .ok ([], [.mk .function "f" 3 3 [] none]) :=
    members_cons_ok_iff.2
      ⟨[], _, [], [], .other rfl (by decide) collect_inner, members_nil, rfl, rfl⟩
  exact extract_ok_iff.2 ⟨root, rfl, collect_cons_ok_iff.2
    ⟨_, [], .classDefinition rfl rfl hmembers rfl, collect_nil, rfl⟩⟩

/-- The class within is not reported. -/
theorem not_complete_extract :
    soundTree (fun _ _ ↦ root) (Dialect.python.grammarOf "a.py") bytes = .ok root ∧
      Grammatical bytes root ∧ extract (fun _ _ ↦ root) .python "a.py" bytes = .ok symbols ∧
      ¬Complete bytes root symbols := by
  have hgrammatical : Grammatical bytes root := ⟨rfl, by decide⟩
  have hembeds : ¬∀ c ∈ root.nodes, ¬Embeds c := by decide
  obtain ⟨found, hfound, hiff⟩ :=
    exists_extract_complete_iff (show soundTree (fun _ _ ↦ root)
      (Dialect.python.grammarOf "a.py") bytes = .ok root from rfl) hgrammatical
  rw [extract_root] at hfound
  cases hfound
  exact ⟨rfl, hgrammatical, extract_root, fun h ↦ hembeds (hiff.1 h)⟩

end Nest

end Docwright.Outline.Python
