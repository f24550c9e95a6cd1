import Docwright.Proofs.Job.Ledger

/-!
# A job that goes on

Between two ledgers a job may only have taken on states (`Ledger.Grows`): nothing is given up, and
the status in which the site is written (`finalizing`) is not among the new ones. If besides the job
has not been ended it goes on (`Ledger.GoesOn`). Both compose, and every operation on the ledger but
the two statuses keeps them, so what a stage of a job does to the ledger is said by the operations
that it is made of.

A job that was over before stays as it ended. Its status does not tell how far it has come since,
but the log does, where every status is told of that came too late.
-/

namespace Docwright

theorem Job.status_advance (j : Job) (progress : Option Int) (step : Option String) :
    (j.advance progress step).status = j.status := by
  rw [advance]
  split <;> rfl

theorem Job.status_setStatus (j : Job) (status : JobStatus) :
    (j.setStatus status).status = if j.status.isTerminal then j.status else status := by
  rw [setStatus]
  split <;> rfl

/-- Of two statuses the second counts, unless the first ends the job. -/
theorem Job.status_setStatus_setStatus (j : Job) {status : JobStatus}
    (hstatus : status.isTerminal = false) (status' : JobStatus) :
    ((j.setStatus status).setStatus status').status = (j.setStatus status').status := by
  rw [status_setStatus, status_setStatus, status_setStatus]
  by_cases hover : j.status.isTerminal = true
  · rw [if_pos hover, if_pos hover]
  · rw [if_neg hover, if_neg hover, hstatus]
    rfl

namespace Ledger

variable {job : String} {l l' : Ledger}

/-- From one ledger to another states are added to a job, and it does not come to the end of its
work, where the site is written. -/
structure Grows (job : String) (l l' : Ledger) : Prop where
  states : ∃ taken, l'.states job = l.states job ++ taken ∧
    ∀ j ∈ taken, j.status = .finalizing → (l.jobOrNew job).status = .finalizing
  early : (l'.jobOrNew job).status = .finalizing → (l.jobOrNew job).status = .finalizing
  ended : (l.jobOrNew job).status.isTerminal = true →
    (l'.jobOrNew job).status = (l.jobOrNew job).status
  log : l.log <+: l'.log

/-- The job goes on: it does not end either. -/
structure GoesOn (job : String) (l l' : Ledger) : Prop extends Grows job l l' where
  lasting : (l.jobOrNew job).status.isTerminal = false →
    (l'.jobOrNew job).status.isTerminal = false

/-- A status is a new state of the job. -/
theorem states_setStatus (l : Ledger) (job : String) (status : JobStatus) :
    (l.setStatus job status).states job
      = l.states job ++ [(l.jobOrNew job).setStatus status] := by
  rw [setStatus]
  split
  · exact states_setJob l job _
  · exact states_setJob l job _

/-- A status that comes after the end of the job is told of in the log. -/
theorem log_setStatus (l : Ledger) (job : String) (status : JobStatus) :
    (l.setStatus job status).log = l.log ++
      if (l.jobOrNew job).status.isTerminal then ignoredLog job status (l.jobOrNew job).status
      else [] := by
  rw [setStatus]
  split
  · rfl
  · exact (List.append_nil _).symm

namespace Grows

theorem trans {l₁ l₂ l₃ : Ledger} (h : Grows job l₁ l₂) (h' : Grows job l₂ l₃) :
    Grows job l₁ l₃ := by
  obtain ⟨taken, htaken, hstatus⟩ := h.states
  obtain ⟨taken', htaken', hstatus'⟩ := h'.states
  refine ⟨⟨taken ++ taken', by rw [htaken', htaken, List.append_assoc], fun j hj hj' ↦ ?_⟩,
    fun hlast ↦ h.early (h'.early hlast), fun hover ↦ ?_, h.log.trans h'.log⟩
  · rcases List.mem_append.1 hj with hj | hj
    · exact hstatus j hj hj'
    · exact h.early (hstatus' j hj hj')
  · have hsame := h.ended hover
    rw [h'.ended (by rwa [hsame]), hsame]

/-- One more state, of a status to which the job has come already or which is another one. -/
theorem of_state {j : Job} (hstates : l'.states job = l.states job ++ [j])
    (hlast : l'.jobOrNew job = j)
    (hearly : j.status = .finalizing → (l.jobOrNew job).status = .finalizing)
    (hover : (l.jobOrNew job).status.isTerminal = true → j.status = (l.jobOrNew job).status)
    (hlog : l.log <+: l'.log) : Grows job l l' := by
  refine ⟨⟨[j], hstates, fun i hi ↦ ?_⟩, ?_, ?_, hlog⟩
  · rw [List.mem_singleton.1 hi]
    exact hearly
  · rwa [hlast]
  · rwa [hlast]

theorem setStatus (h : Grows job l l') {status : JobStatus} (hearly : status ≠ .finalizing) :
    Grows job l (l'.setStatus job status) := by
  have hstatus := (l'.jobOrNew job).status_setStatus status
  refine h.trans (.of_state (states_setStatus l' job status) (jobOrNew_setStatus l' job status)
    (fun hfinalizing ↦ ?_) (fun hover ↦ ?_) ?_)
  · rw [hstatus] at hfinalizing
    split at hfinalizing
    · exact hfinalizing
    · exact absurd hfinalizing hearly
  · rw [hstatus, if_pos hover]
  · rw [log_setStatus]
    exact List.prefix_append _ _

end Grows

namespace GoesOn

theorem of_history_eq (h : l'.history = l.history) (hlog : l.log <+: l'.log) :
    GoesOn job l l' := by
  have hjob := jobOrNew_congr h job
  refine ⟨⟨⟨[], by rw [states_congr h, List.append_nil], ?_⟩, ?_, ?_, hlog⟩, ?_⟩
  · exact fun j hj ↦ absurd hj List.not_mem_nil
  · exact fun hstatus ↦ by rwa [hjob] at hstatus
  · exact fun _ ↦ by rw [hjob]
  · exact fun hopen ↦ by rwa [hjob]

theorem refl (job : String) (l : Ledger) : GoesOn job l l :=
  of_history_eq rfl List.prefix_rfl

theorem trans {l₁ l₂ l₃ : Ledger} (h : GoesOn job l₁ l₂) (h' : GoesOn job l₂ l₃) :
    GoesOn job l₁ l₃ :=
  ⟨h.toGrows.trans h'.toGrows, fun hopen ↦ h'.lasting (h.lasting hopen)⟩

theorem record (h : GoesOn job l l') (log : Log) : GoesOn job l (l'.record log) :=
  h.trans (.of_history_eq rfl (List.prefix_append _ _))

theorem tick (h : GoesOn job l l') : GoesOn job l l'.tick :=
  h.trans (.of_history_eq rfl List.prefix_rfl)

theorem append (h : GoesOn job l l') (message : String) (progress : Option Int)
    (step : Option String) : GoesOn job l (l'.append job message progress step) := by
  have hlast := jobOrNew_append l' job message progress step
  have hstatus : (((l'.jobOrNew job).addLine (l'.tick.stampedLine message)).advance progress
      step).status = (l'.jobOrNew job).status := Job.status_advance _ progress step
  refine h.trans ⟨.of_state (states_setJob l'.tick job _) hlast (fun hfinalizing ↦ ?_)
    (fun _ ↦ hstatus) (List.prefix_append _ _), fun hopen ↦ ?_⟩
  · exact hstatus.symm.trans hfinalizing
  · rw [hlast, hstatus]
    exact hopen

/-- A status may be set that is not the end of the job or of its work. -/
theorem setStatus (h : GoesOn job l l') {status : JobStatus} (hstatus : status.isTerminal = false)
    (hearly : status ≠ .finalizing) : GoesOn job l (l'.setStatus job status) := by
  refine ⟨h.toGrows.setStatus hearly, fun hopen ↦ ?_⟩
  rw [jobOrNew_setStatus, Job.status_setStatus, h.lasting hopen]
  exact hstatus

theorem chats (h : GoesOn job l l') {l'' : Ledger} (hchats : Chats (some job) l' l'') :
    GoesOn job l l'' := by
  induction hchats with
  | refl => exact h
  | record log _ ih => exact ih.record log
  | tick _ ih => exact ih.tick
  | note message _ ih => exact ih.append message none none

/-- Starting a job that is not there yet is a state of it, too. -/
theorem ensure (job : String) (l : Ledger) : GoesOn job l (l.ensure job) := by
  rw [Ledger.ensure]
  split
  · exact refl job l
  · rename_i hnone
    have hnew : l.jobOrNew job = { id := job } := by
      rw [jobOrNew, Option.not_isSome_iff_eq_none.1 hnone]
      rfl
    refine ⟨.of_state (states_setJob l job _) (jobOrNew_setJob l job _) (fun hfinalizing ↦ ?_)
      (fun hover ↦ ?_) List.prefix_rfl, fun _ ↦ ?_⟩
    · cases hfinalizing
    · rw [hnew]
    · rw [create, jobOrNew_setJob]
      rfl

/-- Going on makes no difference to the status with which a job ends. -/
theorem status_setStatus (h : GoesOn job l l') (status : JobStatus) :
    ((l'.jobOrNew job).setStatus status).status
      = ((l.jobOrNew job).setStatus status).status := by
  rw [Job.status_setStatus, Job.status_setStatus]
  by_cases hover : (l.jobOrNew job).status.isTerminal = true
  · have hsame := h.ended hover
    rw [if_pos hover, hsame, if_pos hover]
  · rw [if_neg hover, if_neg]
    rw [h.lasting (by simpa using hover)]
    exact Bool.false_ne_true

end GoesOn

end Ledger

end Docwright
