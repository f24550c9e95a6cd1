import Docwright.Proofs.Page.FrontMatter

/-!
# The block that a text opens with

Splitting looks for a first line that is the delimiter and a later line that is the delimiter up to
blanks at its ends. `Opens` says which lines these are, without the search: there is at most one way
in which lines open with a block (`Opens.eq_of_opens`), and what splitting does is decided by
whether there is one (`split_of_opens`, `split_of_not_opens`). Nothing is asked of the lines between
the two, so a block need not hold a field.
-/

namespace Docwright.Page.FrontMatter

open Text

variable {cs closer : List Char} {lines block rest extra : List (List Char)}

/-- Lines that open with a block: the delimiter, the lines of the block, the first line that closes
it, and the rest. -/
structure Opens (lines block : List (List Char)) (closer : List Char)
    (rest : List (List Char)) : Prop where
  eq : lines = delimiter :: (block ++ closer :: rest)
  inner : ∀ line ∈ block, closes line = false
  closed : closes closer = true

/-- A line that closes a block is not blank. -/
theorem dash_mem_of_closes (h : closes closer = true) : '-' ∈ closer := by
  have hdash : '-' ∈ strip closer := by
    rw [beq_iff_eq.1 h]
    decide
  exact (List.dropWhile_suffix _).subset (mem_of_mem_stripRight hdash)

/-- The search for the line that closes the block. -/
theorem Opens.span (h : Opens lines block closer rest) :
    lines.tail.span (fun line ↦ !closes line) = (block, closer :: rest) := by
  have hinner : ∀ line ∈ block, (!closes line) = true := fun line hline ↦ by
    simp [h.inner line hline]
  rw [h.eq, List.tail_cons, List.span_eq_takeWhile_dropWhile, List.takeWhile_append_of_pos hinner,
    List.dropWhile_append_of_pos hinner]
  simp [h.closed]

/-- **Lines open with a block in one way at most.** -/
theorem Opens.eq_of_opens {block' rest' : List (List Char)} {closer' : List Char}
    (h : Opens lines block closer rest) (h' : Opens lines block' closer' rest') :
    block = block' ∧ closer = closer' ∧ rest = rest' := by
  have hspan := h.span.symm.trans h'.span
  simpa using hspan

theorem opens_of_span {tail : List (List Char)}
    (hspan : tail.span (fun line ↦ !closes line) = (block, closer :: rest)) :
    Opens (delimiter :: tail) block closer rest := by
  rw [List.span_eq_takeWhile_dropWhile, Prod.mk.injEq] at hspan
  obtain ⟨htake, hdrop⟩ := hspan
  refine ⟨?_, fun line hline ↦ ?_, ?_⟩
  · rw [← htake, ← hdrop, List.takeWhile_append_dropWhile]
  · have hpass := List.mem_takeWhile_imp (htake ▸ hline)
    simpa using hpass
  · have hstop := List.head?_dropWhile_not (fun line ↦ !closes line) tail
    rw [hdrop] at hstop
    simpa using hstop

/-- **Lines open with a block** if the first is the delimiter and a later one closes. -/
theorem exists_opens_iff : (∃ block closer rest, Opens lines block closer rest) ↔
    lines.head? = some delimiter ∧ ∃ line ∈ lines.tail, closes line = true := by
  constructor
  · rintro ⟨block, closer, rest, h⟩
    rw [h.eq]
    exact ⟨rfl, closer, by simp, h.closed⟩
  · rintro ⟨hhead, line, hline, hcloses⟩
    obtain ⟨tail, rfl⟩ := List.head?_eq_some_iff.1 hhead
    cases hspan : tail.span fun line ↦ !closes line with
    | mk block after =>
      cases after with
      | cons closer rest => exact ⟨block, closer, rest, opens_of_span hspan⟩
      | nil =>
        rw [List.span_eq_takeWhile_dropWhile, Prod.mk.injEq, List.dropWhile_eq_nil_iff] at hspan
        have hpass := hspan.2 line hline
        simp [hcloses] at hpass

/-- Lines that do not close a block make no difference at the end. -/
theorem exists_opens_append_iff (hne : lines ≠ []) (hextra : ∀ line ∈ extra, closes line = false) :
    (∃ block closer rest, Opens (lines ++ extra) block closer rest) ↔
      ∃ block closer rest, Opens lines block closer rest := by
  obtain ⟨first, lines, rfl⟩ := List.exists_cons_of_ne_nil hne
  rw [exists_opens_iff, exists_opens_iff]
  refine and_congr Iff.rfl ⟨?_, ?_⟩
  · rintro ⟨line, hline, hcloses⟩
    rcases List.mem_append.1 hline with hline | hline
    · exact ⟨line, hline, hcloses⟩
    · rw [hextra line hline] at hcloses
      cases hcloses
  · rintro ⟨line, hline, hcloses⟩
    exact ⟨line, List.mem_append_left _ hline, hcloses⟩

/-- **A block that a text opens with is taken off.** -/
theorem split_of_opens (h : Opens (splitOn '\n' (pairsToNewline cs)) block closer rest) :
    split cs = (fieldsOf block, joinWith ['\n'] rest) := by
  have hspan := h.span
  rw [h.eq, List.tail_cons] at hspan
  rw [split]
  simp only [h.eq, beq_self_eq_true, Bool.true_and]
  rw [if_pos (by simp), hspan]

/-- **A text that opens with none stays as it is.** -/
theorem split_of_not_opens
    (h : ∀ block closer rest, ¬Opens (splitOn '\n' (pairsToNewline cs)) block closer rest) :
    split cs = ([], cs) := by
  rw [split]
  split
  · rename_i first tail hlines
    split
    · rename_i hfirst
      split
      · rename_i block closer rest hspan
        rw [Bool.and_eq_true, beq_iff_eq] at hfirst
        rw [hlines, hfirst.1] at h
        exact absurd (opens_of_span hspan) (h block closer rest)
      · rfl
    · rfl
  · rfl

end Docwright.Page.FrontMatter
