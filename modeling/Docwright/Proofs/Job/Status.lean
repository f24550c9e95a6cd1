import Docwright.Job
import Mathlib.Data.List.Destutter

/-!
# The statuses that a job takes

A job that goes well climbs a ladder of statuses, and from every rung but the last it may fall.
`Precedes` says this of one status and the next. From it follows what a whole list of statuses looks
like when repetitions are left out (`exists_rungs`): the lower rungs of the ladder, and after them a
failure unless the top is reached.
-/

namespace Docwright.JobStatus

/-- The statuses of a job that goes well, in order. -/
def ladder : List JobStatus := [initializing, analyzing, generating, finalizing, completed]

/-- The next rung of the ladder. -/
def next? : JobStatus → Option JobStatus
  | initializing => some analyzing
  | analyzing => some generating
  | generating => some finalizing
  | finalizing => some completed
  | completed => none
  | failed => none

/-- One status may come right after another: it stays, takes the next rung or falls. -/
def Precedes (a b : JobStatus) : Prop :=
  b = a ∨ a.next? = some b ∨ (a.isTerminal = false ∧ b = failed)

/-- The ladder from a rung on. -/
def onward (a : JobStatus) : List JobStatus := ladder.dropWhile (· != a)

theorem onward_of_next? {a b : JobStatus} (h : a.next? = some b) : onward a = a :: onward b := by
  cases a <;> cases h <;> rfl

theorem exists_onward_eq {a : JobStatus} (h : a ≠ failed) : ∃ rest, onward a = a :: rest := by
  cases a with
  | failed => exact absurd rfl h
  | _ => exact ⟨_, rfl⟩

theorem onward_ne_singleton {a : JobStatus} (h : a.isTerminal = false) : [a] ≠ onward a := by
  cases a with
  | completed => cases h
  | failed => cases h
  | _ => decide

/-- After a failure nothing changes. -/
theorem eq_failed_of_precedes {b : JobStatus} (h : Precedes failed b) : b = failed := by
  rcases h with h | h | h
  · exact h
  · cases h
  · exact h.2

variable {a : JobStatus} {l : List JobStatus}

theorem destutter'_failed (h : (failed :: l).IsChain Precedes) :
    l.destutter' (· ≠ ·) failed = [failed] := by
  induction l with
  | nil => rfl
  | cons b l ih =>
    obtain ⟨hstep, hrest⟩ := List.isChain_cons_cons.1 h
    cases eq_failed_of_precedes hstep
    rw [List.destutter'_cons_neg _ (by simp)]
    exact ih hrest

/-- **Without repetitions, statuses climb the ladder** for some rungs, and may fall then unless they
have reached its end. -/
theorem exists_destutter'_eq (h : (a :: l).IsChain Precedes) (ha : a ≠ failed) :
    ∃ rungs fall, rungs <+: onward a ∧ rungs ≠ [] ∧
      l.destutter' (· ≠ ·) a = rungs ++ fall ∧
      (fall = [] ∨ fall = [failed] ∧ rungs ≠ onward a) := by
  induction l generalizing a with
  | nil =>
    obtain ⟨rest, hrest⟩ := exists_onward_eq ha
    exact ⟨[a], [], ⟨rest, hrest.symm⟩, List.cons_ne_nil _ _, rfl, Or.inl rfl⟩
  | cons b l ih =>
    obtain ⟨hstep, hchain⟩ := List.isChain_cons_cons.1 h
    rcases hstep with rfl | hnext | ⟨hterminal, rfl⟩
    · -- the status stays
      rw [List.destutter'_cons_neg _ (by simp)]
      exact ih hchain ha
    · -- the next rung
      have hne : a ≠ b := by
        rintro rfl
        cases a <;> cases hnext
      have hb : b ≠ failed := by
        rintro rfl
        cases a <;> cases hnext
      obtain ⟨rungs, fall, hprefix, -, hrungs, hfall⟩ := ih hchain hb
      rw [onward_of_next? hnext, List.destutter'_cons_pos _ hne, hrungs]
      refine ⟨a :: rungs, fall, ?_, List.cons_ne_nil _ _, rfl, ?_⟩
      · exact (List.prefix_cons_inj a).2 hprefix
      · exact hfall.imp_right fun ⟨hfailed, hshort⟩ ↦
          ⟨hfailed, fun heq ↦ hshort (List.cons.inj heq).2⟩
    · -- the fall
      rw [List.destutter'_cons_pos _ ha, destutter'_failed hchain]
      obtain ⟨rest, hrest⟩ := exists_onward_eq ha
      exact ⟨[a], [failed], ⟨rest, hrest.symm⟩, List.cons_ne_nil _ _, rfl,
        Or.inr ⟨rfl, onward_ne_singleton hterminal⟩⟩

/-- Leaving out repetitions keeps the last status. -/
theorem getLast?_destutter' (a : JobStatus) (l : List JobStatus) :
    (l.destutter' (· ≠ ·) a).getLast? = (a :: l).getLast? := by
  induction l generalizing a with
  | nil => rfl
  | cons b l ih =>
    by_cases h : a ≠ b
    · rw [List.destutter'_cons_pos _ h, List.getLast?_cons_cons, ← ih b,
        List.getLast?_cons_of_ne_nil (List.destutter'_ne_nil _ _)]
    · rw [List.destutter'_cons_neg _ h, ih a, not_not.1 h, List.getLast?_cons_cons]

/-- The rungs up to the top are the whole ladder. -/
theorem eq_ladder_of_prefix {rungs : List JobStatus} (h : rungs <+: ladder)
    (hlast : rungs.getLast? = some completed) : rungs = ladder := by
  have htake : ∀ n ≤ 5, (ladder.take n).getLast? = some completed → ladder.take n = ladder := by
    decide
  rw [List.prefix_iff_eq_take.1 h] at hlast ⊢
  exact htake _ h.length_le hlast

/-- A job whose last status is the top has climbed the whole ladder. -/
theorem destutter_eq_ladder {rungs : List JobStatus} {a : JobStatus}
    (hlast : (a :: l).getLast? = some completed)
    (h : (a :: l).destutter (· ≠ ·) = rungs ++ if rungs = ladder then [] else [failed]) :
    (a :: l).destutter (· ≠ ·) = ladder := by
  by_cases hall : rungs = ladder
  · rw [h, if_pos hall, List.append_nil, hall]
  · have hfailed : ((a :: l).destutter (· ≠ ·)).getLast? = some failed := by
      rw [h, if_neg hall, List.getLast?_concat]
    rw [List.destutter_cons', getLast?_destutter', hlast] at hfailed
    cases hfailed

/-- **The statuses of a job that has ended** are, without repetitions, the lower rungs of the ladder
and a failure, unless the job has come to the top of it. -/
theorem exists_rungs (h : (initializing :: l).IsChain Precedes) {last : JobStatus}
    (hlast : (initializing :: l).getLast? = some last) (hended : last.isTerminal = true) :
    ∃ rungs, rungs <+: ladder ∧ (rungs = ladder ↔ last = completed) ∧
      (initializing :: l).destutter (· ≠ ·) = rungs ++ if rungs = ladder then [] else [failed] := by
  obtain ⟨rungs, fall, hprefix, -, hrungs, hfall⟩ := exists_destutter'_eq h (by decide)
  rw [← getLast?_destutter', hrungs] at hlast
  rcases hfall with rfl | ⟨rfl, hshort⟩
  · rw [List.append_nil] at hlast
    have hmem : last ∈ ladder := hprefix.subset (List.mem_of_getLast? hlast)
    have hcompleted : last = completed := by
      revert hended hmem
      cases last <;> decide
    have hall : rungs = ladder := eq_ladder_of_prefix hprefix (hcompleted ▸ hlast)
    refine ⟨rungs, hprefix, iff_of_true hall hcompleted, ?_⟩
    rw [if_pos hall]
    exact hrungs
  · have hne : rungs ≠ ladder := hshort
    have hfailed : last = failed := by
      rw [List.getLast?_concat, Option.some.injEq] at hlast
      exact hlast.symm
    refine ⟨rungs, hprefix, iff_of_false hne ?_, ?_⟩
    · rw [hfailed]
      decide
    · rw [if_neg hne]
      exact hrungs

end Docwright.JobStatus
