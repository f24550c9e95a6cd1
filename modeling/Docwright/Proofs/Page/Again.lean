import Docwright.Proofs.Page.Dropped

/-!
# Linting again

What linting makes of lines it leaves alone when it meets them again. The reason is that taking the
lines found so far once more leads to the state in which they were found (`Replays`): what a step
puts down is taken by the next pass exactly as it was put down, an empty line before a heading
included. Every state that is reached from the start is of this kind, and closing the last fence
keeps to it, so linted lines are linted into themselves (`finish_foldl_step_linesOf`).

The lines are all there is to a text unless it opens with a block. Linting takes one block off and
looks no further, and it cuts blanks off the ends of lines, so what it leaves may open with a block
of its own; then linting again drops that one too. `lint_lint_iff` says for which texts this happens
and what is lost.
-/

namespace Docwright.Page.Lint

open Text FrontMatter

variable {s : State} {line closer : List Char} {lines block rest : List (List Char)}

namespace State

/-! ### Taking the lines that were found once more -/

theorem eq_of_fields {t : State} (hfound : s.found = t.found) (hfence : s.openFence = t.openFence)
    (hblank : s.afterBlank = t.afterBlank) : s = t := by
  cases s
  cases t
  simp_all

/-- The lines found so far, taken again from the start, lead to the same state, and so do the first
of them to themselves. -/
structure Replays (s : State) : Prop where
  self : s.found.reverse.foldl step start = s
  found : ∀ lines, lines <:+ s.found → (lines.reverse.foldl step start).found = lines
  /-- After a blank line the last one found is empty. -/
  atBreak : s.afterBlank = true → s.atBreak = true

theorem Replays.start : Replays start where
  self := rfl
  found lines hlines := by
    rw [List.suffix_nil.1 hlines]
    rfl
  atBreak := nofun

/-- An empty line is found, or it changes nothing. -/
theorem step_nil_cases (s : State) : s.step [] = s ∨ (s.step []).found = [] :: s.found := by
  cases hopen : s.openFence with
  | some ticks => exact .inr (by rw [step_nil_of_open hopen])
  | none =>
    rw [step_nil_of_none hopen]
    split
    · exact .inl rfl
    · exact .inr rfl

theorem atBreak_step (h : s.afterBlank = true → s.atBreak = true)
    (hline : stripRight line = line) (hblank : (s.step line).afterBlank = true) :
    (s.step line).atBreak = true := by
  have hnil : line = [] := by
    by_contra hne
    rw [(s.step_of_ne_nil hline hne).1] at hblank
    cases hblank
  rw [hnil] at hblank ⊢
  rcases s.step_nil_cases with hsame | hfound
  · rw [hsame] at hblank ⊢
    exact h hblank
  · rw [State.atBreak, hfound]
    rfl

/-- A line that is found with an empty one before it is found like that when the two are taken one
after the other. -/
theorem step_nil_step (hatBreak : s.afterBlank = true → s.atBreak = true)
    (hline : stripRight line = line) (hfound : (s.step line).found = line :: [] :: s.found) :
    (s.step []).found = [] :: s.found ∧ (s.step []).step line = s.step line := by
  have hne : line ≠ [] := by
    rintro rfl
    have hlength := congrArg List.length hfound
    rcases s.step_nil_cases with hstep | hstep
    · simp only [hstep, List.length_cons] at hlength
      omega
    · simp only [hstep, List.length_cons] at hlength
      omega
  -- only a heading that follows another line gets an empty line of its own
  have hheading : s.openFence = none ∧ line.head? = some '#' ∧ s.atBreak = false := by
    by_contra hnot
    rw [(s.step_of_ne_nil hline hne).2, if_neg hnot] at hfound
    exact absurd (congrArg List.length hfound) (by simp)
  obtain ⟨hopen, -, hbreak⟩ := hheading
  have hblank : s.afterBlank = false := by
    by_contra hblank
    rw [hatBreak (by simpa using hblank)] at hbreak
    cases hbreak
  have hcontent : s.found.isEmpty = false := by
    by_contra hempty
    have hfirst : s.found = [] := by simpa using hempty
    rw [State.atBreak, hfirst] at hbreak
    cases hbreak
  have hnil : s.step [] = { s with found := [] :: s.found, afterBlank := true } := by
    rw [step_nil_of_none hopen, if_neg (by simp [hblank, hcontent])]
  have hafter : (s.step []).atBreak = true := by
    rw [hnil]
    rfl
  refine ⟨by rw [hnil], eq_of_fields ?_ ?_ ?_⟩
  · rw [hfound, ((s.step []).step_of_ne_nil hline hne).2, if_neg (by simp [hafter]), hnil]
  · rw [openFence_step _ line, openFence_step s line, hnil]
  · rw [((s.step []).step_of_ne_nil hline hne).1, (s.step_of_ne_nil hline hne).1]

/-- **A step leads from such a state to another.** -/
theorem Replays.step (h : Replays s) (raw : List Char) : Replays (s.step raw) := by
  have hline : stripRight (stripRight raw) = stripRight raw := stripRight_stripRight raw
  rw [← step_stripRight]
  have hatBreak := atBreak_step h.atBreak hline
  have hcases := s.found_step_cases (stripRight raw)
  rw [hline] at hcases
  generalize stripRight raw = line at hline hatBreak hcases ⊢
  rcases hcases with ⟨rfl, hsame⟩ | hfound | hfound
  · rcases s.step_nil_cases with hstep | hother
    · rwa [hstep]
    · rw [hsame] at hother
      exact absurd (congrArg List.length hother) (by simp)
  · have hself : (s.step line).found.reverse.foldl State.step State.start = s.step line := by
      rw [hfound, List.reverse_cons, List.foldl_append, h.self]
      rfl
    refine ⟨hself, fun lines hlines ↦ ?_, hatBreak⟩
    rw [hfound, List.suffix_cons_iff] at hlines
    rcases hlines with rfl | hlines
    · rw [← hfound, hself]
    · exact h.found lines hlines
  · obtain ⟨hnil, htwo⟩ := step_nil_step h.atBreak hline hfound
    have hself : (s.step line).found.reverse.foldl State.step State.start = s.step line := by
      rw [hfound, List.reverse_cons, List.reverse_cons, List.foldl_append, List.foldl_append,
        h.self]
      exact htwo
    refine ⟨hself, fun lines hlines ↦ ?_, hatBreak⟩
    rw [hfound, List.suffix_cons_iff, List.suffix_cons_iff] at hlines
    rcases hlines with rfl | rfl | hlines
    · rw [← hfound, hself]
    · rw [List.reverse_cons, List.foldl_append, h.self]
      exact hnil
    · exact h.found lines hlines

theorem Replays.foldl (h : Replays s) (lines : List (List Char)) :
    Replays (lines.foldl State.step s) := by
  induction lines generalizing s with
  | nil => exact h
  | cons line lines ih => exact ih (h.step line)

end State

/-! ### Linted lines -/

theorem found_step_of_fence {x : Nat × List Char} (hline : stripRight line = line)
    (hfence : fence? line = some x) (s : State) : (s.step line).found = line :: s.found := by
  have hne : line ≠ [] := by
    rintro rfl
    cases hfence
  rw [(s.step_of_ne_nil hline hne).2, if_neg]
  rintro ⟨-, hhead, -⟩
  rw [fence?_of_head? hhead] at hfence
  cases hfence

/-- Linted lines are found as they are. -/
theorem found_foldl_step_linesOf (body : List Char) :
    ((linesOf body).foldl State.step State.start).found = (linesOf body).reverse := by
  let s := (sourceOf body).foldl State.step State.start
  have hreplays : s.Replays := State.Replays.start.foldl _
  have hsuffix := List.dropWhile_suffix (l := s.found) List.isEmpty
  have hopen : s.openFence = openAfter (sourceOf body) := openFence_sourceOf body
  have hreverse : (linesOf body).reverse = s.closed.dropWhile List.isEmpty := by
    rw [linesOf_eq, State.finish, List.reverse_reverse]
  cases hfence : openAfter (sourceOf body) with
  | none =>
    have hclosed : s.closed = s.found := by rw [State.closed, hopen, hfence]
    rw [hclosed] at hreverse
    rw [← List.reverse_reverse (linesOf body), hreverse, List.reverse_reverse]
    exact hreplays.found _ hsuffix
  | some ticks =>
    -- the line that closes the fence is the last one, and the others are found before it
    have hticks : (List.replicate ticks '`').isEmpty = false := by
      have hthree := three_le_of_openAfter hfence
      rw [List.isEmpty_replicate, decide_eq_false_iff_not]
      omega
    have hclosed : s.closed.dropWhile List.isEmpty
        = List.replicate ticks '`' :: s.found.dropWhile List.isEmpty := by
      rw [State.closed, hopen, hfence]
      exact List.dropWhile_cons_of_neg (by simp [hticks])
    have hlines : linesOf body
        = (s.found.dropWhile List.isEmpty).reverse ++ [List.replicate ticks '`'] := by
      rw [← List.reverse_reverse (linesOf body), hreverse, hclosed, List.reverse_cons]
    have htrimmed := (tidied_linesOf body).trimmed (List.replicate ticks '`') (by simp [hlines])
    rw [hlines, List.foldl_append, List.foldl_cons, List.foldl_nil,
      found_step_of_fence htrimmed (fence?_replicate (three_le_of_openAfter hfence)),
      hreplays.found _ hsuffix, List.reverse_append, List.reverse_reverse]
    rfl

/-- **Linted lines are linted into themselves**, with an empty line behind them or without. -/
theorem finish_foldl_step_linesOf (body : List Char) :
    ((linesOf body ++ [[]]).foldl State.step State.start).finish = linesOf body := by
  have htidied := tidied_linesOf body
  let s := (linesOf body).foldl State.step State.start
  have hfound : s.found = (linesOf body).reverse := found_foldl_step_linesOf body
  have hopen : s.openFence = none :=
    (State.openFence_foldl_step htidied.trimmed State.start).trans htidied.closed
  have hends : (linesOf body).reverse.dropWhile List.isEmpty = (linesOf body).reverse := by
    cases hlines : (linesOf body).reverse with
    | nil => rfl
    | cons line lines =>
      have hlast := htidied.ends.2
      rw [← List.head?_reverse, hlines] at hlast
      exact List.dropWhile_cons_of_neg (by simpa using hlast)
  have hstep : ((s.step []).closed).dropWhile List.isEmpty = (linesOf body).reverse := by
    have hclosed : (s.step []).closed = (s.step []).found := by
      rw [State.closed, State.openFence_step, hopen]
      rfl
    rw [hclosed]
    rcases s.step_nil_cases with hsame | hempty
    · rw [hsame, hfound, hends]
    · rw [hempty, List.dropWhile_cons_of_pos rfl, hfound, hends]
  rw [List.foldl_append, List.foldl_cons, List.foldl_nil, State.finish, hstep, List.reverse_reverse]

/-! ### The linted text -/

theorem splitOn_lint {cs : List Char} (hne : linesOf (bodyOf cs) ≠ []) :
    splitOn '\n' (lint cs) = linesOf (bodyOf cs) ++ [[]] := by
  rw [lint, splitOn_append, splitOn_joinWith (newline_not_mem_linesOf _) hne]
  rfl

/-- A linted text starts with its first line. -/
theorem textLines_lint {cs : List Char} (hne : linesOf (bodyOf cs) ≠ []) :
    textLines (lint cs) = linesOf (bodyOf cs) ++ [[]] := by
  obtain ⟨first, lines, hlines⟩ := List.exists_cons_of_ne_nil hne
  have hfirst : first ≠ [] := by
    have hhead := head?_linesOf (bodyOf cs)
    rw [hlines] at hhead
    simpa using hhead
  have hsplit := splitOn_lint hne
  rw [hlines] at hsplit ⊢
  rw [textLines, unifyNewlines_eq_self (not_mem_lint cs), dropWhile_newline_eq_self hsplit hfirst,
    hsplit]

/-- **A linted text that does not open with a block is linted into itself.** -/
theorem lint_lint_of_not_opens {cs : List Char}
    (h : ∀ block closer rest, ¬Opens (textLines (lint cs)) block closer rest) :
    lint (lint cs) = lint cs := by
  by_cases hne : linesOf (bodyOf cs) = []
  case pos =>
    have hlint : lint cs = ['\n'] := by
      rw [lint, hne]
      rfl
    rw [hlint]
    decide +kernel
  case neg =>
    have hbody : splitOn '\n' (bodyOf (lint cs)) = linesOf (bodyOf cs) ++ [[]] := by
      rw [bodyOf_of_not_opens h]
      exact textLines_lint hne
    have hlines : linesOf (bodyOf (lint cs)) = linesOf (bodyOf cs) := by
      rw [linesOf, hbody, finish_foldl_step_linesOf]
    rw [lint, hlines, ← lint]

/-! ### Blocks among the lines that are not blank -/

/-- Blank lines have no say in where a block begins and ends. -/
theorem opens_solid (h : Opens lines block closer rest) :
    Opens (solid lines) (solid block) closer (solid rest) where
  eq := by
    have hcloser : closer ≠ [] := by
      rintro rfl
      exact absurd h.closed (by decide)
    rw [h.eq, solid_cons (by decide), solid_append, solid_cons hcloser]
  inner line hline := h.inner line (List.mem_filter.1 hline).1
  closed := h.closed

theorem exists_opens_solid_iff (hhead : lines.head? ≠ some []) :
    (∃ block closer rest, Opens (solid lines) block closer rest) ↔
      ∃ block closer rest, Opens lines block closer rest := by
  constructor
  · rw [exists_opens_iff, exists_opens_iff]
    cases lines with
    | nil => exact id
    | cons first lines =>
      rw [solid_cons (by simpa using hhead)]
      rintro ⟨hfirst, line, hline, hcloses⟩
      exact ⟨hfirst, line, (List.mem_filter.1 hline).1, hcloses⟩
  · rintro ⟨block, closer, rest, h⟩
    exact ⟨_, _, _, opens_solid h⟩

/-- The line that closes a fence closes no block. -/
theorem closes_of_mem_closing {opened : Option Nat} (hline : line ∈ closing opened) :
    closes line = false := by
  cases opened with
  | none => cases hline
  | some ticks =>
    rw [List.mem_singleton.1 hline, ← Bool.not_eq_true]
    exact fun hcloses ↦ absurd (List.eq_of_mem_replicate (dash_mem_of_closes hcloses)) (by decide)

/-- Linted lines open with a block exactly if the lines of the text do, blank ones aside. -/
theorem exists_opens_linesOf_iff (body : List Char) :
    (∃ block closer rest, Opens (linesOf body) block closer rest) ↔
      ∃ block closer rest, Opens (solid (sourceOf body)) block closer rest := by
  rw [← exists_opens_solid_iff (head?_linesOf body), solid_linesOf]
  by_cases hne : solid (sourceOf body) = []
  case pos =>
    have hopen : openAfter (sourceOf body) = none := by
      rw [openAfter, ← foldl_fenceAfter_solid, hne]
      rfl
    rw [hopen, closing, List.append_nil]
  case neg => exact exists_opens_append_iff hne fun line hline ↦ closes_of_mem_closing hline

theorem exists_opens_textLines_lint_iff (cs : List Char) :
    (∃ block closer rest, Opens (textLines (lint cs)) block closer rest) ↔
      ∃ block closer rest, Opens (linesOf (bodyOf cs)) block closer rest := by
  by_cases hne : linesOf (bodyOf cs) = []
  case pos =>
    have hlint : textLines (lint cs) = [[]] := by
      rw [lint, hne]
      decide +kernel
    rw [hlint, hne, exists_opens_iff, exists_opens_iff]
    simp [delimiter]
  case neg =>
    rw [textLines_lint hne]
    exact exists_opens_append_iff hne (List.forall_mem_singleton.2 (by decide))

/-- **What linting again drops**: the block that the linted text opens with. -/
theorem solid_lint_lint {cs : List Char}
    (h : Opens (solid (splitOn '\n' (lint cs))) block closer rest) :
    solid (splitOn '\n' (lint (lint cs))) = rest ++ closing (openAfter rest) := by
  rw [solid_splitOn_lint] at h
  have hopens := (exists_opens_solid_iff (head?_linesOf (bodyOf cs))).1 ⟨_, _, _, h⟩
  obtain ⟨block', closer', rest', h'⟩ := (exists_opens_textLines_lint_iff cs).2 hopens
  have hne : linesOf (bodyOf cs) ≠ [] := by
    intro hnil
    rw [hnil] at h
    exact absurd h.eq (by simp [solid])
  have hlines := textLines_lint hne
  -- the lines that are not blank are the same in both cuts, so the blocks are
  have hrest : rest = solid rest' := by
    have hboth : solid (textLines (lint cs)) = solid (linesOf (bodyOf cs)) := by
      rw [hlines, solid_append]
      exact List.append_nil _
    have hsame := opens_solid h'
    rw [hboth] at hsame
    exact (h.eq_of_opens hsame).2.2
  have htrimmed : rest'.map stripRight = rest' := by
    refine (List.map_congr_left fun line hline ↦ ?_).trans (List.map_id _)
    have hmem : line ∈ linesOf (bodyOf cs) ++ [[]] := by
      rw [← hlines, h'.eq]
      simp [hline]
    rcases List.mem_append.1 hmem with hmem | hmem
    · exact (tidied_linesOf (bodyOf cs)).trimmed line hmem
    · rw [List.mem_singleton.1 hmem]
      rfl
  rw [(parts_of_opens h').result, htrimmed, ← hrest]

/-- **Linting twice is the same as linting once exactly if** the lines that linting starts from,
without the front matter it drops and blank ones aside, do not open with a block themselves. If they
do, the second time the block of the linted text gets lost, and nothing else. -/
theorem lint_lint_iff (cs : List Char) :
    (lint (lint cs) = lint cs ↔
      ∀ block closer rest, ¬Opens (solid (sourceOf (bodyOf cs))) block closer rest) ∧
      ∀ block closer rest, Opens (solid (splitOn '\n' (lint cs))) block closer rest →
        solid (splitOn '\n' (lint (lint cs))) = rest ++ closing (openAfter rest) := by
  have hopens := (exists_opens_textLines_lint_iff cs).trans (exists_opens_linesOf_iff (bodyOf cs))
  refine ⟨⟨fun hsame block closer rest h ↦ ?_, fun hnot ↦ ?_⟩, fun _ _ _ ↦ solid_lint_lint⟩
  · have hopened := (exists_opens_linesOf_iff (bodyOf cs)).2 ⟨block, closer, rest, h⟩
    obtain ⟨block', closer', rest', h'⟩ :=
      (exists_opens_solid_iff (head?_linesOf (bodyOf cs))).2 hopened
    rw [← solid_splitOn_lint] at h'
    -- the block has two lines, and what can be added for it is one
    have hlost := solid_lint_lint h'
    rw [hsame, h'.eq] at hlost
    have hlength := congrArg List.length hlost
    have hone := length_closing_le (openAfter rest')
    simp only [List.length_cons, List.length_append] at hlength
    omega
  · refine lint_lint_of_not_opens fun block closer rest h ↦ ?_
    obtain ⟨block', closer', rest', h'⟩ := hopens.1 ⟨block, closer, rest, h⟩
    exact hnot block' closer' rest' h'

/-- A page that begins with a rule that has a blank behind it, and has another rule further down. -/
def spaced : List Char := "--- \n\nIntro\n\n---\n\nBody\n".toList

/-- The first time only the blank gets lost, and the second time all up to the other rule. -/
theorem lint_lint_spaced : lint spaced = "---\n\nIntro\n\n---\n\nBody\n".toList ∧
    lint (lint spaced) = "Body\n".toList ∧ lint (lint spaced) ≠ lint spaced := by
  have hopens : Opens (solid (sourceOf (bodyOf spaced))) ["Intro".toList] delimiter
      ["Body".toList] :=
    ⟨by decide +kernel, by decide +kernel, by decide +kernel⟩
  refine ⟨by decide +kernel, by decide +kernel, fun hsame ↦ ?_⟩
  exact (lint_lint_iff spaced).1.1 hsame _ _ _ hopens

end Docwright.Page.Lint
