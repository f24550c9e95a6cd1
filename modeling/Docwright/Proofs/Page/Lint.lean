import Docwright.Page.Lint
import Docwright.Proofs.Page.FrontMatter

/-!
# What linting leaves of a text

Linting drops lines, cuts blanks off their ends, and adds empty lines and ticks. All that it does
with one line is said by `State.found_step_cases`: the line is put before the lines so far, perhaps
with an empty one between, or it is empty and left out.

So whatever holds of the lines of a text, of an empty line and of a line of ticks holds of all lines
that come out (`forall_mem_linesOf`). Since the text has its carriage returns unified before it is
cut, none is left in what is written (`not_mem_lint`).
-/

namespace Docwright.Page.Lint

open Text

variable {p : List Char → Prop} {raws : List (List Char)} {s : State}

theorem State.found_prose_cases (s : State) (line : List Char) :
    line = [] ∧ (s.prose line).found = s.found ∨ (s.prose line).found = line :: s.found ∨
      (s.prose line).found = line :: [] :: s.found := by
  unfold State.prose
  split
  case isTrue hline =>
    rw [List.isEmpty_iff.1 hline]
    split
    · exact .inl ⟨rfl, rfl⟩
    · exact .inr (.inl rfl)
  case isFalse =>
    dsimp only
    split
    · exact .inr (.inr rfl)
    · exact .inr (.inl rfl)

/-- **What a step does to the lines so far.** -/
theorem State.found_step_cases (s : State) (raw : List Char) :
    stripRight raw = [] ∧ (s.step raw).found = s.found ∨
      (s.step raw).found = stripRight raw :: s.found ∨
      (s.step raw).found = stripRight raw :: [] :: s.found := by
  simp only [State.step]
  split
  · exact .inr (.inl rfl)
  · exact s.found_prose_cases _
  · split
    · exact .inr (.inl rfl)
    · exact .inr (.inl rfl)
  · exact .inr (.inl rfl)

theorem State.forall_mem_foldl_step (hempty : p []) (hraws : ∀ raw ∈ raws, p (stripRight raw))
    (hs : ∀ line ∈ s.found, p line) : ∀ line ∈ (raws.foldl State.step s).found, p line := by
  induction raws generalizing s with
  | nil => exact hs
  | cons raw raws ih =>
    obtain ⟨hraw, hraws⟩ := List.forall_mem_cons.1 hraws
    refine ih hraws ?_
    rcases s.found_step_cases raw with ⟨-, hfound⟩ | hfound | hfound
    · rw [hfound]
      exact hs
    · rw [hfound]
      exact List.forall_mem_cons.2 ⟨hraw, hs⟩
    · rw [hfound]
      exact List.forall_mem_cons.2 ⟨hraw, List.forall_mem_cons.2 ⟨hempty, hs⟩⟩

/-- What is written are the lines found so far and the ticks that close a fence. -/
theorem State.forall_mem_finish (hticks : ∀ ticks, p (List.replicate ticks '`'))
    (hs : ∀ line ∈ s.found, p line) : ∀ line ∈ s.finish, p line := by
  intro line hline
  have hclosed : line ∈ s.closed :=
    (List.dropWhile_suffix _).subset (List.mem_reverse.1 hline)
  unfold State.closed at hclosed
  split at hclosed
  · exact hs line hclosed
  · rcases List.mem_cons.1 hclosed with rfl | hmem
    · exact hticks _
    · exact hs line ((List.dropWhile_suffix _).subset hmem)

/-- **What holds of the lines of a text holds of the linted lines**, if it holds of an empty line
and of ticks. -/
theorem forall_mem_linesOf {body : List Char} (hempty : p [])
    (hticks : ∀ ticks, p (List.replicate ticks '`'))
    (hraws : ∀ raw ∈ splitOn '\n' body, p (stripRight raw)) : ∀ line ∈ linesOf body, p line :=
  State.forall_mem_finish hticks <| State.forall_mem_foldl_step hempty hraws <| by
    simp [State.start]

/-- The text the linter works on has line feeds only. -/
theorem not_mem_bodyOf (cs : List Char) : '\r' ∉ bodyOf cs := by
  have hnormal : '\r' ∉ (unifyNewlines cs).dropWhile (· == '\n') := fun hmem ↦
    not_mem_unifyNewlines cs ((List.dropWhile_suffix _).subset hmem)
  exact fun hmem ↦ hnormal (FrontMatter.mem_of_mem_split (by decide) hmem)

/-- No tick is another character. -/
theorem not_mem_replicate_tick {c : Char} (hc : c ≠ '`') (ticks : Nat) :
    c ∉ List.replicate ticks '`' :=
  fun hmem ↦ hc (List.eq_of_mem_replicate hmem)

/-- **Linted text holds no carriage return.** -/
theorem not_mem_lint (cs : List Char) : '\r' ∉ lint cs := by
  have hlines : ∀ line ∈ linesOf (bodyOf cs), '\r' ∉ line :=
    forall_mem_linesOf List.not_mem_nil (not_mem_replicate_tick (by decide)) fun raw hraw hmem ↦
      not_mem_bodyOf cs (mem_of_mem_splitOn hraw (mem_of_mem_stripRight hmem))
  have hjoined : ∀ c ∈ joinWith ['\n'] (linesOf (bodyOf cs)), c ≠ '\r' :=
    forall_mem_joinWith (List.forall_mem_singleton.2 (by decide))
      fun line hline c hc hr ↦ hlines line hline (hr ▸ hc)
  rw [lint, List.mem_append]
  rintro (hmem | hmem)
  · exact hjoined _ hmem rfl
  · exact absurd hmem (by decide)

end Docwright.Page.Lint
