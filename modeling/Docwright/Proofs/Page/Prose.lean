import Docwright.Proofs.Page.Layout

/-!
# Linting prose

A text without fences leaves none open, so no line is added to it but empty ones. Whatever is looked
for among the lines of such a text (`keep`), other than an empty line, is then found in the linted
text as it was (`filter_splitOn_lint`).
-/

namespace Docwright.Page.Lint

open Text

variable {keep : List Char → Bool}

/-- Prose leaves no fence open. -/
theorem openAfter_of_prose {lines : List (List Char)} (h : ∀ line ∈ lines, fence? line = none) :
    openAfter lines = none := by
  induction lines using List.reverseRecOn with
  | nil => rfl
  | append_singleton lines line ih =>
    rw [openAfter_concat, ih fun l hl ↦ h l (List.mem_append_left _ hl)]
    simp only [fenceAfter, h line (List.mem_append_right _ (List.mem_singleton.2 rfl))]

/-- **Lines of prose are kept, without the blanks at their ends.** -/
theorem filter_linesOf_of_prose {body : List Char} (hempty : keep [] = false)
    (hprose : ∀ raw ∈ splitOn '\n' body, fence? (stripRight raw) = none) :
    (linesOf body).filter keep = (sourceOf body).filter keep := by
  have hopen : openAfter (sourceOf body) = none :=
    openAfter_of_prose (List.forall_mem_map.2 hprose)
  rw [filter_linesOf hempty, hopen, closing, List.append_nil]

/-- Lines that are joined, and the last of them closed, are found again among the parts. -/
theorem filter_splitOn_joinWith (hempty : keep [] = false) {lines : List (List Char)}
    (hlines : ∀ line ∈ lines, '\n' ∉ line) :
    (splitOn '\n' (joinWith ['\n'] lines ++ ['\n'])).filter keep = lines.filter keep := by
  rw [splitOn_append, List.filter_append]
  have hlast : (splitOn '\n' []).filter keep = [] :=
    List.filter_cons_of_neg (by simp [hempty])
  rw [hlast, List.append_nil]
  cases lines with
  | nil => exact hlast
  | cons line lines => rw [splitOn_joinWith hlines (List.cons_ne_nil _ _)]

/-- A text whose first line is not empty does not start with a line feed. -/
theorem dropWhile_newline_eq_self {cs first : List Char} {rest : List (List Char)}
    (hlines : splitOn '\n' cs = first :: rest) (hne : first ≠ []) :
    cs.dropWhile (· == '\n') = cs := by
  cases cs with
  | nil => rfl
  | cons c cs =>
    refine List.dropWhile_cons_of_neg fun hc ↦ hne ?_
    have hbreak : splitOn '\n' ('\n' :: cs) = [] :: splitOn '\n' cs :=
      splitOn_append_cons List.not_mem_nil cs
    rw [← beq_iff_eq.1 hc] at hbreak
    rw [← beq_iff_eq.1 hc, hbreak] at hlines
    exact (List.cons.inj hlines).1.symm

/-- A text whose first line is neither empty nor the delimiter of front matter is linted as a
whole. -/
theorem bodyOf_eq_self {cs first : List Char} {rest : List (List Char)} (hreturn : '\r' ∉ cs)
    (hlines : splitOn '\n' cs = first :: rest) (hne : first ≠ [])
    (hfirst : first ≠ FrontMatter.delimiter) : bodyOf cs = cs := by
  rw [bodyOf, unifyNewlines_eq_self hreturn, dropWhile_newline_eq_self hlines hne,
    FrontMatter.split]
  simp only [pairsToNewline_eq_self hreturn, hlines]
  rw [if_neg (by simp [hfirst])]

/-- **What is looked for in prose is found in the linted text as it was.** -/
theorem filter_splitOn_lint {cs : List Char} (hempty : keep [] = false) (hbody : bodyOf cs = cs)
    (hprose : ∀ raw ∈ splitOn '\n' cs, fence? (stripRight raw) = none) :
    (splitOn '\n' (lint cs)).filter keep = ((splitOn '\n' cs).map stripRight).filter keep := by
  rw [lint, hbody, filter_splitOn_joinWith hempty (newline_not_mem_linesOf cs),
    filter_linesOf_of_prose hempty hprose, sourceOf]

end Docwright.Page.Lint
