import Docwright.Proofs.Outline.Tree

/-!
# The first fault of a tree

Faults are looked for in broken subtrees only. What a subtree is broken for may be a fault, but also
a flag that was set on a node for reasons of its own; so a broken subtree need not hold a fault, and
the search then has to go on behind it.

* `firstFault?_eq_find?`: whatever is skipped, the search comes to the first fault of the whole tree
  from the top down. It rests on sound subtrees having no faults, and on nothing about flags.
* `extract_syntaxError_iff`: a source is refused for its syntax exactly when the root of its tree is
  marked as broken, and the line that is named is that of this fault, or of the root when there is
  none.
-/

namespace Docwright.Outline

namespace Node

variable {n : Node} {ns : List Node}

/-- Within the tree of a root, a mark is on a node exactly when the node is a fault, is flagged for
reasons of its own, or has a child with the mark. -/
def MarksBroken (marked : Node → Prop) (root : Node) : Prop :=
  ∀ n ∈ root.nodes,
    (marked n ↔ n.isFault = true ∨ n.isFlagged = true ∨ ∃ m ∈ n.children, marked m)

theorem anyBroken_iff : anyBroken ns = true ↔ ∃ m ∈ ns, m.isBroken = true := by
  induction ns with
  | nil => simp [anyBroken]
  | cons n rest ih => rw [anyBroken, Bool.or_eq_true, ih, List.exists_mem_cons_iff]

theorem isBroken_iff : n.isBroken = true ↔
    n.isFault = true ∨ n.isFlagged = true ∨ ∃ m ∈ n.children, m.isBroken = true := by
  cases n with
  | mk =>
    rw [isBroken, Bool.or_eq_true, Bool.or_eq_true, anyBroken_iff, isFault, isFlagged, children]
    exact or_assoc

/-- Being broken is such a mark. -/
theorem marksBroken_isBroken (root : Node) : MarksBroken (fun n ↦ n.isBroken = true) root :=
  fun _ _ ↦ isBroken_iff

/-- **There is no other.** -/
theorem MarksBroken.iff_isBroken {marked : Node → Prop} {root : Node}
    (h : MarksBroken marked root) : marked root ↔ root.isBroken = true := by
  rw [h root root.self_mem_nodes, isBroken_iff]
  refine or_congr_right (or_congr_right (exists_congr fun m ↦ and_congr_right fun hm ↦ ?_))
  have := sizeOf_lt_of_mem_children hm
  exact MarksBroken.iff_isBroken fun k hk ↦ h k (nodes_subset_of_mem_children hm hk)
termination_by sizeOf root

/-- A tree with a fault in it is broken. -/
theorem isBroken_of_mem_nodes {n m : Node} (hm : m ∈ n.nodes) (hfault : m.isFault = true) :
    n.isBroken = true := by
  rw [nodes_eq] at hm
  rcases List.mem_cons.1 hm with rfl | hm
  · exact isBroken_iff.2 (.inl hfault)
  obtain ⟨k, hk, hmk⟩ := exists_mem_nodes_of_mem_nodesOf hm
  have := sizeOf_lt_of_mem_children hk
  exact isBroken_iff.2 (.inr (.inr ⟨k, hk, isBroken_of_mem_nodes hmk hfault⟩))
termination_by sizeOf n

/-- So there is nothing to find in a sound tree. -/
theorem find?_isFault_eq_none (h : ¬n.isBroken = true) : n.nodes.find? isFault = none :=
  List.find?_eq_none.2 fun _ hm hfault ↦ h (isBroken_of_mem_nodes hm hfault)

mutual

/-- **The search that skips sound subtrees finds the first fault of the whole tree.** -/
theorem firstFault?_eq_find? (n : Node) : n.firstFault? = n.nodes.find? isFault := by
  match n with
  | mk kind named missing flagged placed field startByte endByte startRow endRow children =>
    rw [firstFault?, nodes, List.find?_cons, ← firstFaultIn?_eq_find?, isFault, Node.kind,
      isMissing]
    cases kind == "ERROR" || missing <;> rfl

/-- So does the search at and below the nodes of a list. -/
theorem firstFaultIn?_eq_find? (ns : List Node) :
    firstFaultIn? ns = (nodesOf ns).find? isFault := by
  match ns with
  | [] => rw [firstFaultIn?, nodesOf, List.find?_nil]
  | n :: rest =>
    rw [firstFaultIn?, nodesOf, List.find?_append, firstFault?_eq_find?, firstFaultIn?_eq_find?]
    split
    · cases n.nodes.find? isFault with
      | none => rfl
      | some found => rfl
    · rename_i hsound
      rw [find?_isFault_eq_none hsound, Option.none_or]

end

end Node

variable {trees : TreeSource} {dialect : Dialect} {path : String} {source : List UInt8}

/-- The tree of a text is taken as it is unless it is broken. -/
theorem soundTree_of_text {grammar : Grammar} {text : List Char}
    (htext : Text.Utf8.decode? source = .ok text) :
    let root := trees grammar source
    soundTree trees grammar source =
      if root.isBroken then .error (.syntaxError (root.firstFault?.getD root).lines.1)
      else .ok root := by
  rw [soundTree, htext]

/-- Nothing but a broken tree is refused for its syntax. -/
theorem extract_eq_syntaxError_iff {line : Int} :
    extract trees dialect path source = .error (.unparseable (.syntaxError line)) ↔
      soundTree trees (dialect.grammarOf path) source = .error (.syntaxError line) := by
  rw [extract]
  cases soundTree trees (dialect.grammarOf path) source with
  | error fault => simp
  | ok root => cases hsymbols : symbolsOf dialect source root <;> simp [hsymbols]

/-- **A source is refused for its syntax exactly when the root of its tree is marked as broken**,
whichever way the mark is set, and the line that is named is that of the first fault from the top
down, or of the root when the tree has no fault. -/
theorem extract_syntaxError_iff {text : List Char} (htext : Text.Utf8.decode? source = .ok text)
    {marked : Node → Prop}
    (hmarked : Node.MarksBroken marked (trees (dialect.grammarOf path) source)) :
    let root := trees (dialect.grammarOf path) source
    (∀ line, extract trees dialect path source = .error (.unparseable (.syntaxError line)) ↔
        marked root ∧ line = ((root.nodes.find? Node.isFault).getD root).lines.1) ∧
      root.firstFault? = root.nodes.find? Node.isFault := by
  intro root
  refine ⟨fun line ↦ ?_, root.firstFault?_eq_find?⟩
  rw [extract_eq_syntaxError_iff, soundTree_of_text htext, hmarked.iff_isBroken,
    root.firstFault?_eq_find?]
  split
  · rename_i hbroken
    rw [Except.error.injEq, ParseFault.syntaxError.injEq, and_iff_right hbroken]
    exact eq_comm
  · rename_i hsound
    exact iff_of_false nofun fun h ↦ hsound h.1

namespace Astray

/-- A module in which an argument list is flagged without a fault in it, before a sign that the
source lacks. -/
def root : Node :=
  .mk "program" true false false true none 0 6 0 2 [
    .mk "arguments" true false true true none 0 2 0 0
      [.mk "identifier" true false false true none 0 1 0 0 []],
    .mk "block" true false false true none 3 6 1 2
      [.mk ")" false true false true none 6 6 2 2 []]]

/-- The search goes on behind the arguments and names the line of the sign. -/
theorem extract_astray :
    Text.Utf8.decode? [] = .ok [] ∧ Node.MarksBroken (fun n ↦ n.isBroken = true) root ∧
      extract (fun _ _ ↦ root) .javaScript "a.js" [] = .error (.unparseable (.syntaxError 3)) := by
  have htext : Text.Utf8.decode? [] = .ok [] := rfl
  have hmarked := root.marksBroken_isBroken
  obtain ⟨hrefused, -⟩ := @extract_syntaxError_iff (fun _ _ ↦ root) .javaScript "a.js" [] [] htext
    _ hmarked
  exact ⟨htext, hmarked, (hrefused 3).2 ⟨by decide, rfl⟩⟩

end Astray

end Docwright.Outline
