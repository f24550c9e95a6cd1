import Docwright.Outline.Extract
import Mathlib.Data.List.Basic

/-!
# The nodes of a tree and where they stand

`Node.nodes` lists a tree from the top down, each position once, so what is said of all nodes of a
tree is said of a list. A tree is laid out (`Node.LaidOut`) when every node has a position, stands
within the one above it, and starts where its elder sibling has ended. What walks over a tree makes
use of this for the siblings it meets at one place (`Node.Between`).
-/

namespace Docwright.Outline

/-- A step that succeeds hands its result on. -/
theorem bind_eq_ok_iff {ε α β : Type} {x : Except ε α} {f : α → Except ε β} {b : β} :
    (x >>= f) = .ok b ↔ ∃ a, x = .ok a ∧ f a = .ok b := by
  cases x with
  | error e =>
    constructor
    · rintro ⟨⟩
    · rintro ⟨a, ⟨⟩, -⟩
  | ok a =>
    constructor
    · exact fun h ↦ ⟨a, rfl, h⟩
    · rintro ⟨_, ⟨⟩, hf⟩
      exact hf

theorem pure_eq_ok_iff {ε α : Type} {a b : α} : (pure a : Except ε α) = .ok b ↔ a = b :=
  ⟨Except.ok.inj, congrArg _⟩

namespace Node

mutual

/-- The node and all nodes below it, each before those below it. -/
def nodes : Node → List Node
  | mk kind named missing flagged placed field startByte endByte startRow endRow children =>
    mk kind named missing flagged placed field startByte endByte startRow endRow children ::
      nodesOf children

/-- The nodes of a list and all nodes below them. -/
def nodesOf : List Node → List Node
  | [] => []
  | n :: rest => nodes n ++ nodesOf rest

end

theorem nodes_eq (n : Node) : n.nodes = n :: nodesOf n.children := by
  cases n with
  | mk => rw [nodes, children]

theorem self_mem_nodes (n : Node) : n ∈ n.nodes := by
  rw [nodes_eq]
  exact List.mem_cons_self

theorem nodes_subset_nodesOf {n : Node} {ns : List Node} (h : n ∈ ns) : n.nodes ⊆ nodesOf ns := by
  induction ns with
  | nil => cases h
  | cons m rest ih =>
    rw [nodesOf]
    rcases List.mem_cons.1 h with rfl | h
    · exact List.subset_append_left _ _
    · exact List.Subset.trans (ih h) (List.subset_append_right _ _)

theorem nodesOf_children_subset (n : Node) : nodesOf n.children ⊆ n.nodes := by
  rw [nodes_eq]
  exact List.subset_cons_self _ _

/-- What stands below a child stands below the parent. -/
theorem nodes_subset_of_mem_children {n m : Node} (h : m ∈ n.children) : m.nodes ⊆ n.nodes :=
  List.Subset.trans (nodes_subset_nodesOf h) (nodesOf_children_subset n)

/-- What stands in a list of trees stands in one of them. -/
theorem exists_mem_nodes_of_mem_nodesOf {m : Node} {ns : List Node} (h : m ∈ nodesOf ns) :
    ∃ n ∈ ns, m ∈ n.nodes := by
  induction ns with
  | nil => cases h
  | cons n rest ih =>
    rcases List.mem_append.1 h with h | h
    · exact ⟨n, List.mem_cons_self, h⟩
    · obtain ⟨k, hk, hm⟩ := ih h
      exact ⟨k, List.mem_cons_of_mem _ hk, hm⟩

theorem mem_or_exists_parent {m : Node} {ns : List Node} (h : m ∈ nodesOf ns) :
    m ∈ ns ∨ ∃ k ∈ nodesOf ns, m ∈ k.children := by
  match ns, h with
  | n :: rest, h =>
    have := sizeOf_children_lt n
    rw [nodesOf, nodes_eq] at h ⊢
    rcases List.mem_append.1 h with h | h
    · rcases List.mem_cons.1 h with rfl | h
      · exact .inl List.mem_cons_self
      rcases mem_or_exists_parent h with h | ⟨k, hk, hm⟩
      · exact .inr ⟨n, by simp, h⟩
      · exact .inr ⟨k, by simp [hk], hm⟩
    · rcases mem_or_exists_parent h with h | ⟨k, hk, hm⟩
      · exact .inl (List.mem_cons_of_mem _ h)
      · exact .inr ⟨k, by simp [hk], hm⟩
termination_by sizeOf ns

/-- What stands below a node stands directly below it or below something else there. -/
theorem exists_parent {n m : Node} (h : m ∈ nodesOf n.children) :
    ∃ k ∈ n.nodes, m ∈ k.children := by
  rcases mem_or_exists_parent h with h | ⟨k, hk, hm⟩
  · exact ⟨n, n.self_mem_nodes, h⟩
  · exact ⟨k, nodesOf_children_subset n hk, hm⟩

/-- The name that a node gives what it declares. -/
def nameIn (n : Node) (source : List UInt8) : String :=
  textOf (n.child? "name") source

/-- The nodes directly below the child with the given field. -/
def childrenAt (n : Node) (field : String) : List Node :=
  ((n.child? field).map children).getD []

theorem nodesOf_childrenAt_subset (n : Node) (field : String) :
    nodesOf (n.childrenAt field) ⊆ n.nodes := by
  rw [childrenAt]
  cases hchild : n.child? field with
  | none => exact List.nil_subset _
  | some m =>
    exact List.Subset.trans (nodesOf_children_subset m)
      (nodes_subset_of_mem_children (child?_mem hchild))

theorem sizeOf_childrenAt_lt (n : Node) (field : String) :
    sizeOf (n.childrenAt field) < sizeOf n := by
  rw [childrenAt]
  cases hchild : n.child? field with
  | none => exact Nat.lt_of_le_of_lt (by cases n.children <;> simp; omega) n.sizeOf_children_lt
  | some m => exact Nat.lt_trans (sizeOf_children_lt m) (sizeOf_child?_lt hchild)

/-- What is done with the nodes below a child is done with none when there is no such child. -/
theorem match_child?_eq {α : Type} (n : Node) (field : String) {f : List Node → α} {a : α}
    (h : f [] = a) : (match n.child? field with
      | some m => f m.children
      | none => a) = f (n.childrenAt field) := by
  rw [childrenAt]
  cases n.child? field with
  | none => exact h.symm
  | some m => rfl

/-! ### Positions -/

/-- The node has a position, and the nodes directly below it stand within it, each of them after the
one before. -/
structure Placed (n : Node) : Prop where
  placed : n.isPlaced = true
  start_nonneg : 0 ≤ n.startRow
  start_le_end : n.startRow ≤ n.endRow
  within : ∀ m ∈ n.children, n.startRow ≤ m.startRow ∧ m.endRow ≤ n.endRow
  ordered : n.children.Pairwise fun a b ↦ a.endRow ≤ b.startRow

instance (n : Node) : Decidable n.Placed :=
  decidable_of_iff (n.isPlaced = true ∧ 0 ≤ n.startRow ∧ n.startRow ≤ n.endRow ∧
      (∀ m ∈ n.children, n.startRow ≤ m.startRow ∧ m.endRow ≤ n.endRow) ∧
      n.children.Pairwise fun a b ↦ a.endRow ≤ b.startRow)
    ⟨fun ⟨h₁, h₂, h₃, h₄, h₅⟩ ↦ ⟨h₁, h₂, h₃, h₄, h₅⟩,
      fun ⟨h₁, h₂, h₃, h₄, h₅⟩ ↦ ⟨h₁, h₂, h₃, h₄, h₅⟩⟩

/-- All nodes of the tree are placed. -/
def LaidOut (n : Node) : Prop :=
  ∀ m ∈ n.nodes, m.Placed

instance (n : Node) : Decidable n.LaidOut :=
  inferInstanceAs (Decidable (∀ m ∈ n.nodes, m.Placed))

theorem LaidOut.self {n : Node} (h : n.LaidOut) : n.Placed :=
  h n n.self_mem_nodes

theorem LaidOut.child {n m : Node} (h : n.LaidOut) (hm : m ∈ n.children) : m.LaidOut :=
  fun k hk ↦ h k (nodes_subset_of_mem_children hm hk)

/-- Siblings that stand one after the other between two rows. -/
structure Between (first last : Int) (ns : List Node) : Prop where
  laidOut : ∀ n ∈ ns, n.LaidOut
  within : ∀ n ∈ ns, first ≤ n.startRow ∧ n.endRow ≤ last
  ordered : ns.Pairwise fun a b ↦ a.endRow ≤ b.startRow

theorem LaidOut.between {n : Node} (h : n.LaidOut) : Between n.startRow n.endRow n.children :=
  ⟨fun _ ↦ h.child, h.self.within, h.self.ordered⟩

variable {first last : Int} {n : Node} {rest : List Node}

theorem Between.mono (h : Between first last rest) {first' last' : Int} (hfirst : first' ≤ first)
    (hlast : last ≤ last') : Between first' last' rest :=
  ⟨h.laidOut, fun k hk ↦ ⟨Int.le_trans hfirst (h.within k hk).1,
    Int.le_trans (h.within k hk).2 hlast⟩, h.ordered⟩

/-- What stands below a child stands within the node. -/
theorem LaidOut.between_child (h : n.LaidOut) {m : Node} (hm : m ∈ n.children) :
    Between n.startRow n.endRow m.children :=
  (h.child hm).between.mono (h.self.within m hm).1 (h.self.within m hm).2

theorem LaidOut.between_childrenAt (h : n.LaidOut) (field : String) :
    Between n.startRow n.endRow (n.childrenAt field) := by
  rw [childrenAt]
  cases hchild : n.child? field with
  | none => exact ⟨by simp, by simp, .nil⟩
  | some m => exact h.between_child (child?_mem hchild)

theorem Between.head (h : Between first last (n :: rest)) :
    n.LaidOut ∧ first ≤ n.startRow ∧ n.endRow ≤ last :=
  ⟨h.laidOut n List.mem_cons_self, h.within n List.mem_cons_self⟩

/-- The younger siblings start where the eldest has ended. -/
theorem Between.tail (h : Between first last (n :: rest)) : Between n.endRow last rest where
  laidOut k hk := h.laidOut k (List.mem_cons_of_mem _ hk)
  within k hk := ⟨List.rel_of_pairwise_cons h.ordered hk,
    (h.within k (List.mem_cons_of_mem _ hk)).2⟩
  ordered := h.ordered.of_cons

end Node

/-! ### The tree of a source -/

variable {trees : TreeSource} {source : List UInt8}

/-- A sound tree is the tree that was made of the source. -/
theorem eq_of_soundTree {grammar : Grammar} {root : Node}
    (h : soundTree trees grammar source = .ok root) : root = trees grammar source := by
  rw [soundTree] at h
  split at h
  · cases h
  simp only at h
  split at h
  · cases h
  · exact (Except.ok.inj h).symm

/-- Symbols are extracted from a sound tree and from nothing else. -/
theorem extract_ok_iff {dialect : Dialect} {path : String} {symbols : List Symbol} :
    extract trees dialect path source = .ok symbols ↔
      ∃ root, soundTree trees (dialect.grammarOf path) source = .ok root ∧
        symbolsOf dialect source root = .ok symbols := by
  rw [extract]
  constructor
  · intro h
    split at h
    · cases h
    rename_i root hroot
    split at h
    · cases h
    · rename_i hsymbols
      cases h
      exact ⟨root, hroot, hsymbols⟩
  · rintro ⟨root, hroot, hsymbols⟩
    rw [hroot]
    simp only [hsymbols]

end Docwright.Outline
