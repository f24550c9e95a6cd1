import Docwright.Proofs.Job.Memory

/-!
# A job from its creation on

Whatever is done with a ledger after a job was created, short of creating it again, whoever asks for
the job can rely on what `conduct_of_created` says: its log only grows, its progress keeps its
bounds and everything but the log is frozen at its end; nothing but the actions addressed to it
shows in it, so that actions on different jobs may change places; and a record that was given out
stays as it was.
-/

namespace Docwright.Ledger

theorem addressed_append (id : String) (earlier later : List Action) :
    addressed id (earlier ++ later) = addressed id earlier ++ addressed id later :=
  List.filter_append ..

/-- Two actions on different jobs may change places as far as any one job is concerned. -/
theorem addressed_swap {a b : Action} (h : a.id ≠ b.id) (id : String)
    (earlier later : List Action) :
    addressed id (earlier ++ b :: a :: later) = addressed id (earlier ++ a :: b :: later) := by
  have hpair : addressed id [b, a] = addressed id [a, b] := by
    by_cases ha : a.id = id
    · have hb : b.id ≠ id := fun hb ↦ h (ha.trans hb.symm)
      rw [addressed_cons_of_ne hb, addressed_cons_of_eq ha, addressed_cons_of_eq ha,
        addressed_cons_of_ne hb]
    · rw [addressed_cons_of_ne ha]
      by_cases hb : b.id = id
      · rw [addressed_cons_of_eq hb, addressed_cons_of_eq hb, addressed_cons_of_ne ha]
      · rw [addressed_cons_of_ne hb, addressed_cons_of_ne hb, addressed_cons_of_ne ha]
  have hsplit : ∀ a b : Action, earlier ++ a :: b :: later = earlier ++ ([a, b] ++ later) :=
    fun _ _ ↦ rfl
  rw [hsplit, hsplit, addressed_append, addressed_append, hpair, addressed_append,
    addressed_append]

/-- **Actions on different jobs commute**, up to the stamps of lines, and give the same answers. -/
theorem perform_comm (l : Ledger) {a b : Action} (h : a.id ≠ b.id) (later : List Action) :
    (∀ id, ((l.after (b :: a :: later)).job? id).map Job.unstamped
        = ((l.after (a :: b :: later)).job? id).map Job.unstamped) ∧
      ((l.perform b).2.perform a).1 = (l.perform a).1 ∧
      ((l.perform a).2.perform b).1 = (l.perform b).1 := by
  refine ⟨fun id ↦ ?_, ?_, ?_⟩
  · rw [unstamped_after, unstamped_after]
    have hswap := addressed_swap h id [] later
    rw [List.nil_append, List.nil_append] at hswap
    rw [hswap]
  · rw [(perform_spec _ a).2, (perform_spec l a).2, job?_perform_of_ne h]
  · rw [(perform_spec _ b).2, (perform_spec l b).2, job?_perform_of_ne h.symm]

/-- **What holds of a job from its creation on**, whatever is done with any jobs after that except
to create this one again. From any point to any later one its log grows by one stamped line for
every message to it, in order, its progress is between zero and a hundred, and once it has ended its
status, progress and step are frozen. Up to the stamps it is a function of the actions that are
addressed to it, and actions on different jobs may change places. A record that is given out reads
the same ever after. -/
theorem conduct_of_created (l : Ledger) {id : String} {actions : List Action}
    (hkept : .create id ∉ actions) :
    (∀ earlier later, actions = earlier ++ later → ∃ j j' lines,
      ((l.create id).after earlier).job? id = some j ∧
      ((l.create id).after actions).job? id = some j' ∧
      Continues lines j j' ∧ List.Forall₂ IsStamped lines (messagesTo id later) ∧
      0 ≤ j'.progress ∧ j'.progress ≤ 100) ∧
    (((l.create id).after actions).job? id).map Job.unstamped
      = (addressed id actions).foldl (told fun message ↦ message) (some { id }) ∧
    (∀ earlier a b later, actions = earlier ++ a :: b :: later → a.id ≠ b.id →
      (∀ id', (((l.create id).after (earlier ++ b :: a :: later)).job? id').map Job.unstamped
        = (((l.create id).after actions).job? id').map Job.unstamped) ∧
      ((((l.create id).after earlier).perform b).2.perform a).1
        = (((l.create id).after earlier).perform a).1 ∧
      ((((l.create id).after earlier).perform a).2.perform b).1
        = (((l.create id).after earlier).perform b).1) ∧
    (∃ m, Represents m (l.create id)) ∧
    ∀ m, Represents m (l.create id) → ∀ earlier a later, actions = earlier ++ a :: later →
      ((m.after earlier).perform a).1.reads (m.after actions)
        = (((l.create id).after earlier).perform a).1 := by
  have hnew : (l.create id).job? id = some { id } := job?_setJob l id { id }
  refine ⟨?_, ?_, ?_, exists_represents _, ?_⟩
  · rintro earlier later rfl
    obtain ⟨j, lines, hj, hcontinues, -⟩ :=
      exists_after (fun h ↦ hkept (List.mem_append_left later h)) hnew
    obtain ⟨j', lines', hj', hcontinues', hlines'⟩ :=
      exists_after (fun h ↦ hkept (List.mem_append_right earlier h)) hj
    refine ⟨j, j', lines', hj, by rw [after_append, hj'], hcontinues', hlines', ?_⟩
    exact (hcontinues.trans hcontinues').bounded ⟨Int.le_refl 0, show (0 : Int) ≤ 100 by decide⟩
  · rw [unstamped_after, hnew]
    rfl
  · rintro earlier a b later rfl hne
    rw [after_append, after_append]
    exact perform_comm _ hne later
  · rintro m hm earlier a later rfl
    have hbefore := hm.after earlier
    have hdone := performed hbefore.tidy a
    have hafter : m.after (earlier ++ a :: later) = ((m.after earlier).perform a).2.after later :=
      List.foldl_append
    rw [hafter, reads_after hdone.tidy hdone.loose later]
    exact (hbefore.perform a).2

/-- What is done with two jobs at a time. -/
def twoJobs : List Action := [
  .append "a" "parsing" (some (.number (.whole 250))) (some "parse"), .create "b",
  .append "b" "starting" (some (.text "some")) none, .setStatus "a" .completed, .read "a",
  .setStatus "a" .failed, .append "a" "tidying up" (some (.number (.whole 5))) (some "tidy")]

/-- The first of them has ended with all its progress, and a line came after that. -/
theorem conduct_twoJobs : Action.create "a" ∉ twoJobs ∧
    ((((⟨[], ⟨0⟩, []⟩ : Ledger).create "a").after twoJobs).job? "a").map Job.unstamped
      = some ⟨"a", .completed, 100, "parse", ["parsing", "tidying up"]⟩ := by
  have hkept : Action.create "a" ∉ twoJobs := by simp [twoJobs]
  exact ⟨hkept, (conduct_of_created ⟨[], ⟨0⟩, []⟩ hkept).2.1⟩

end Docwright.Ledger
