import Docwright.Page.Fallback
import Docwright.Proofs.Page.Prose

/-!
# Fenced blocks at the end of a text

A fence is chosen so that no line of what it encloses can close it. Two facts make this work. The
runs of ticks in a text are no longer than the longest (`le_longestTicks`), and cutting the text
into lines makes no new ones, however its lines are broken (`longestTicks_unifyNewlines`); so no
line of the text has as many ticks as its fence (`le_longestTicks_of_mem_sourceOf`).

What the linter makes of lines that end with such a block is said by `EndsFenced.exists_linesOf`:
the block stays as it was, line by line, and before it there is still no other.
-/

namespace Docwright.Page

open Text

/-! ### Runs of ticks -/

namespace Fallback

/-- The longest run so far and the run that ends here, one character on. -/
def tickStep (s : Nat × Nat) (c : Char) : Nat × Nat :=
  if c == '`' then (max s.1 (s.2 + 1), s.2 + 1) else (s.1, 0)

theorem longestTicks_eq (cs : List Char) : longestTicks cs = (cs.foldl tickStep (0, 0)).1 := rfl

/-- The runs at the end of a text and the runs anywhere in it. -/
theorem le_foldl_tickStep (n : Nat) (cs : List Char) :
    (List.replicate n '`' <:+ cs → n ≤ (cs.foldl tickStep (0, 0)).2) ∧
      (List.replicate n '`' <:+: cs → n ≤ (cs.foldl tickStep (0, 0)).1) := by
  induction cs using List.reverseRecOn generalizing n with
  | nil => simp
  | append_singleton cs c ih =>
    have hend : List.replicate n '`' <:+ cs ++ [c] → n = 0 ∨
        c = '`' ∧ n ≤ (cs.foldl tickStep (0, 0)).2 + 1 := by
      rw [← List.reverse_prefix, List.reverse_replicate, List.reverse_concat]
      cases n with
      | zero => exact fun _ ↦ .inl rfl
      | succ n =>
        rw [List.replicate_succ, List.cons_prefix_cons, ← List.reverse_replicate,
          List.reverse_prefix]
        rintro ⟨hc, hrun⟩
        exact .inr ⟨hc.symm, Nat.succ_le_succ ((ih n).1 hrun)⟩
    rw [List.foldl_append, List.foldl_cons, List.foldl_nil, tickStep, List.infix_concat_iff]
    by_cases hc : c = '`'
    · rw [if_pos (by simpa using hc)]
      refine ⟨fun h ↦ ?_, fun h ↦ ?_⟩
      · rcases hend h with hzero | ⟨-, hle⟩ <;> omega
      · rcases h with h | h
        · rcases hend h with hzero | ⟨-, hle⟩ <;> omega
        · exact ((ih n).2 h).trans (Nat.le_max_left _ _)
    · rw [if_neg (by simpa using hc)]
      refine ⟨fun h ↦ ?_, fun h ↦ ?_⟩
      · rcases hend h with hzero | ⟨htick, -⟩
        · exact hzero.le
        · exact absurd htick hc
      · rcases h with h | h
        · rcases hend h with rfl | ⟨htick, -⟩
          · exact Nat.zero_le _
          · exact absurd htick hc
        · exact (ih n).2 h

/-- **No run of ticks is longer than the longest.** -/
theorem le_longestTicks {n : Nat} {cs : List Char} (h : List.replicate n '`' <:+: cs) :
    n ≤ longestTicks cs :=
  (le_foldl_tickStep n cs).2 h

theorem foldl_tickStep_pairsToNewline (cs : List Char) (s : Nat × Nat) :
    (pairsToNewline cs).foldl tickStep s = cs.foldl tickStep s := by
  induction cs generalizing s with
  | nil => rfl
  | cons c cs ih =>
    rw [pairsToNewline_cons]
    split
    · rename_i hpair
      -- both characters of a pair end the run, and so does the line feed alone
      obtain ⟨hc, hhead⟩ : c = '\r' ∧ cs.head? = some '\n' := by simpa using hpair
      obtain ⟨rest, rfl⟩ := List.head?_eq_some_iff.1 hhead
      rw [ih, hc]
      rfl
    · rw [List.foldl_cons, List.foldl_cons, ih]

/-- **The longest run is the same however lines are broken.** -/
theorem longestTicks_unifyNewlines (cs : List Char) :
    longestTicks (unifyNewlines cs) = longestTicks cs := by
  have hstep (s : Nat × Nat) (c : Char) :
      tickStep s (if c == '\r' then '\n' else c) = tickStep s c := by
    by_cases hc : c = '\r'
    · rw [hc]
      rfl
    · rw [if_neg (by simpa using hc)]
  rw [longestTicks_eq, longestTicks_eq, unifyNewlines, List.foldl_map]
  simp only [hstep, foldl_tickStep_pairsToNewline]

end Fallback

/-! ### Blocks -/

namespace Lint

variable {body line info word : List Char} {lines before inner : List (List Char)} {ticks n : Nat}

/-- The ticks of a fence are a run of ticks on its line. -/
theorem replicate_infix_of_fence? (h : fence? line = some (n, info)) :
    List.replicate n '`' <:+: line := by
  simp only [fence?] at h
  split at h
  · cases h
    have hrun : (stripLeft line).takeWhile (· == '`')
        = List.replicate ((stripLeft line).takeWhile (· == '`')).length '`' :=
      List.eq_replicate_of_mem fun c hc ↦ by simpa using List.mem_takeWhile_imp hc
    rw [← hrun]
    exact (List.takeWhile_prefix _).isInfix.trans (List.dropWhile_suffix _).isInfix
  · cases h

/-- **No line of a text has a fence longer than the longest run of ticks in the text.** -/
theorem le_longestTicks_of_mem_sourceOf {cs : List Char}
    (hline : line ∈ sourceOf (unifyNewlines cs)) (h : fence? line = some (n, info)) :
    n ≤ Fallback.longestTicks cs := by
  obtain ⟨raw, hraw, rfl⟩ := List.mem_map.1 hline
  rw [← Fallback.longestTicks_unifyNewlines]
  refine Fallback.le_longestTicks ((replicate_infix_of_fence? h).trans ?_)
  have hinfix : raw <:+: unifyNewlines cs := by
    have hjoined : raw <:+: joinWith ['\n'] (splitOn '\n' (unifyNewlines cs)) := infix_joinWith hraw
    rwa [joinWith_splitOn] at hjoined
  have hstripped : stripRight raw <+: raw := stripRight_prefix raw
  exact hstripped.isInfix.trans hinfix

/-- Lines with a single fenced block, at their end: a fence, lines that cannot close it, and the
ticks that do. -/
structure EndsFenced (lines before : List (List Char)) (ticks : Nat) (word : List Char)
    (inner : List (List Char)) : Prop where
  eq : lines = before ++ (List.replicate ticks '`' ++ word) :: (inner ++ [List.replicate ticks '`'])
  three_le : 3 ≤ ticks
  word : '`' ∉ word
  /-- No line before the block is a fence. -/
  outside : ∀ line ∈ before, fence? line = none
  /-- No line of the block has as many ticks as its fence. -/
  inside : ∀ line ∈ inner, ∀ found info, fence? line = some (found, info) → found < ticks

/-- Lines of a block are put down as they are. -/
theorem State.foldl_step_inner {found : List (List Char)}
    (hstripped : ∀ line ∈ inner, stripRight line = line)
    (hinside : ∀ line ∈ inner, ∀ found info, fence? line = some (found, info) → found < ticks) :
    inner.foldl State.step ⟨found, some ticks, false⟩
      = ⟨inner.reverse ++ found, some ticks, false⟩ := by
  induction inner generalizing found with
  | nil => rfl
  | cons line inner ih =>
    obtain ⟨hline, hlines⟩ := List.forall_mem_cons.1 hstripped
    obtain ⟨hshort, hinside⟩ := List.forall_mem_cons.1 hinside
    have hstep : State.step ⟨found, some ticks, false⟩ line
        = ⟨line :: found, some ticks, false⟩ := by
      simp only [State.step, hline]
      split
      case h_1 hopen _ => cases hopen
      case h_2 hopen _ => cases hopen
      case h_3 opened found' info hopen hfence =>
        cases hopen
        rw [if_neg]
        have hlt := hshort _ _ hfence
        simp only [Bool.and_eq_true, decide_eq_true_eq]
        omega
      case h_4 hopen _ =>
        cases hopen
        rfl
    rw [List.foldl_cons, hstep, ih hlines hinside, List.reverse_cons, List.append_assoc]
    rfl

/-- **A block at the end of a text is linted into itself**, and of the lines before it only empty
ones may come and go. -/
theorem EndsFenced.exists_linesOf (h : EndsFenced lines before ticks word inner)
    (hsource : sourceOf body = lines ++ [[]]) :
    ∃ before', EndsFenced (linesOf body) before' ticks word inner ∧
      ∀ keep : List Char → Bool, keep [] = false → before'.filter keep = before.filter keep := by
  have hstripped : ∀ line ∈ sourceOf body, stripRight line = line := stripRight_of_mem_sourceOf
  simp only [hsource, h.eq, List.forall_mem_append, List.forall_mem_cons] at hstripped
  obtain ⟨⟨hbefore, hopener, hinner, hcloser, -⟩, -⟩ := hstripped
  let s := before.foldl State.step State.start
  have houtside : s.openFence = none :=
    (State.openFence_foldl_step hbefore State.start).trans (openAfter_of_prose h.outside)
  have hopen : s.step (List.replicate ticks '`' ++ word)
      = ⟨(List.replicate ticks '`' ++ word) :: s.found, some ticks, false⟩ := by
    simp only [State.step, hopener, houtside, fence?_replicate_append h.three_le h.word]
  have hclose (found : List (List Char)) :
      State.step ⟨found, some ticks, false⟩ (List.replicate ticks '`')
        = ⟨List.replicate ticks '`' :: found, none, false⟩ := by
    simp only [State.step, hcloser, fence?_replicate h.three_le, le_refl, decide_true,
      Bool.true_and]
    rfl
  have hne : (List.replicate ticks '`').isEmpty = false := by
    have hthree := h.three_le
    rw [List.isEmpty_replicate, decide_eq_false_iff_not]
    omega
  have hall : lines.foldl State.step State.start = ⟨List.replicate ticks '`' ::
      (inner.reverse ++ (List.replicate ticks '`' ++ word) :: s.found), none, false⟩ := by
    rw [h.eq, List.foldl_append, List.foldl_cons, hopen, List.foldl_append,
      State.foldl_step_inner hinner h.inside, List.foldl_cons, hclose, List.foldl_nil]
  have hlast (found : List (List Char)) :
      (State.step ⟨List.replicate ticks '`' :: found, none, false⟩ []).finish
        = (List.replicate ticks '`' :: found).reverse := by
    rw [State.step_nil_of_none rfl, if_neg (by simp)]
    show (List.dropWhile List.isEmpty ([] :: List.replicate ticks '`' :: found)).reverse = _
    rw [List.dropWhile_cons_of_pos rfl, List.dropWhile_cons_of_neg (by simp [hne])]
  have hlines : linesOf body = s.found.reverse ++
      (List.replicate ticks '`' ++ word) :: (inner ++ [List.replicate ticks '`']) := by
    rw [linesOf_eq, hsource, List.foldl_append, hall, List.foldl_cons, List.foldl_nil, hlast]
    simp
  refine ⟨s.found.reverse, ⟨hlines, h.three_le, h.word, fun line hline ↦ ?_, h.inside⟩,
    fun keep hkeep ↦ ?_⟩
  · have hfound : ∀ line ∈ s.found, fence? line = none := by
      refine State.forall_mem_foldl_step fence?_nil (fun raw hraw ↦ ?_) (by simp [State.start])
      rw [hbefore raw hraw]
      exact h.outside raw hraw
    exact hfound line (List.mem_reverse.1 hline)
  · rw [List.filter_reverse, State.filter_found_foldl_step hkeep hbefore]
    simp [State.start]

end Lint

end Docwright.Page
