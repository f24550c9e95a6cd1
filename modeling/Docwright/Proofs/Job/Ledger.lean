import Docwright.Proofs.Job.Status
import Mathlib.Data.List.Chain

/-!
# What a ledger tells about a job

The ledger keeps every state that a job has taken (`Ledger.states`). One ledger leads to another for
a job when the states in between follow one another in order: the status takes its next rung or
falls, the progress does not go back, lines are only added (`Job.Advances`, `Ledger.Leads`).

Most of the program only chats: it adds records and lines and reads the clock (`Ledger.Chats`). That
never touches status, progress or step, so it is enough to follow the job through the few places
that do (`Ledger.Stands`).
-/

namespace Docwright

open JobStatus

namespace Job

/-- One state of a job may come right after another. -/
structure Advances (a b : Job) : Prop where
  status : a.status.Precedes b.status
  progress : a.progress ≤ b.progress
  nonneg : 0 ≤ b.progress
  le_hundred : b.progress ≤ 100
  log : a.log <+: b.log

/-- A progress within its bounds is kept as it is. -/
theorem clamp_of_le {n : Int} (hnonneg : 0 ≤ n) (hle : n ≤ 100) : clamp n = n := by
  unfold clamp
  omega

theorem advance_none (j : Job) : j.advance none none = j := by
  unfold advance
  split <;> rfl

theorem advance_of_not_terminal {j : Job} (h : j.status.isTerminal = false) (progress : Option Int)
    (step : Option String) :
    j.advance progress step
      = { j with progress := (progress.map clamp).getD j.progress, step := step.getD j.step } := by
  rw [advance, h]
  rfl

@[simp] theorem log_advance (j : Job) (progress : Option Int) (step : Option String) :
    (j.advance progress step).log = j.log := by
  unfold advance
  split <;> rfl

@[simp] theorem log_setStatus (j : Job) (status : JobStatus) :
    (j.setStatus status).log = j.log := by
  unfold setStatus
  split <;> rfl

end Job

namespace Ledger

variable {id : String} {job : Option String} {l l' : Ledger}

/-- The states that a job has taken, in order. -/
def states (l : Ledger) (id : String) : List Job :=
  ((l.history.filter (·.1 == id)).map (·.2)).reverse

theorem lookup_eq_head? (id : String) (history : List (String × Job)) :
    history.lookup id = ((history.filter (·.1 == id)).map (·.2)).head? := by
  induction history with
  | nil => rfl
  | cons entry history ih =>
    obtain ⟨key, j⟩ := entry
    by_cases h : key = id
    · subst h
      simp
    · rw [List.lookup_cons, List.filter_cons, beq_eq_false_iff_ne.2 h,
        beq_eq_false_iff_ne.2 (Ne.symm h), ih]
      rfl

/-- The latest state is the last one. -/
theorem getLast?_states (l : Ledger) (id : String) : (l.states id).getLast? = l.job? id := by
  rw [states, List.getLast?_reverse, job?, lookup_eq_head?]

theorem states_setJob (l : Ledger) (id : String) (j : Job) :
    (l.setJob id j).states id = l.states id ++ [j] := by
  simp [states, setJob]

@[simp] theorem job?_setJob (l : Ledger) (id : String) (j : Job) :
    (l.setJob id j).job? id = some j :=
  List.lookup_cons_self

@[simp] theorem jobOrNew_setJob (l : Ledger) (id : String) (j : Job) :
    (l.setJob id j).jobOrNew id = j := by
  rw [jobOrNew, job?_setJob]
  rfl

theorem states_congr (h : l'.history = l.history) (id : String) : l'.states id = l.states id := by
  rw [states, states, h]

theorem jobOrNew_congr (h : l'.history = l.history) (id : String) :
    l'.jobOrNew id = l.jobOrNew id := by
  rw [jobOrNew, jobOrNew, job?, job?, h]

theorem jobOrNew_append (l : Ledger) (id message : String) (progress : Option Int)
    (step : Option String) :
    (l.append id message progress step).jobOrNew id
      = ((l.jobOrNew id).addLine (l.tick.stampedLine message)).advance progress step :=
  jobOrNew_setJob l.tick id _

theorem jobOrNew_setStatus (l : Ledger) (id : String) (status : JobStatus) :
    (l.setStatus id status).jobOrNew id = (l.jobOrNew id).setStatus status := by
  rw [setStatus]
  split
  · exact jobOrNew_setJob l id _
  · exact jobOrNew_setJob l id _

/-! ### One state after the other -/

/-- From one ledger to another the job has taken states that follow one another. -/
def Leads (id : String) (l l' : Ledger) : Prop :=
  ∃ taken, l'.states id = l.states id ++ taken ∧ (l.jobOrNew id :: taken).IsChain Job.Advances

namespace Leads

theorem of_history_eq (h : l'.history = l.history) : Leads id l l' :=
  ⟨[], by rw [states_congr h, List.append_nil], List.isChain_singleton _⟩

theorem refl (id : String) (l : Ledger) : Leads id l l :=
  of_history_eq rfl

theorem setJob {j : Job} (h : (l.jobOrNew id).Advances j) : Leads id l (l.setJob id j) :=
  ⟨[j], states_setJob l id j, List.isChain_pair.2 h⟩

/-- The latest state comes last. -/
theorem getLast?_eq {taken : List Job} (h : l'.states id = l.states id ++ taken) :
    (l.jobOrNew id :: taken).getLast? = some (l'.jobOrNew id) := by
  have hlatest := getLast?_states l' id
  rw [h, List.getLast?_append] at hlatest
  rw [List.getLast?_cons, jobOrNew, jobOrNew, ← hlatest, ← getLast?_states]
  cases taken.getLast? <;> rfl

theorem trans {l₁ l₂ l₃ : Ledger} (h : Leads id l₁ l₂) (h' : Leads id l₂ l₃) : Leads id l₁ l₃ := by
  obtain ⟨taken, htaken, hchain⟩ := h
  obtain ⟨taken', htaken', hchain'⟩ := h'
  refine ⟨taken ++ taken', by rw [htaken', htaken, List.append_assoc], ?_⟩
  -- the two lists of states share the state in the middle
  have hsplit := List.dropLast_append_getLast? _ (getLast?_eq htaken)
  rw [← hsplit] at hchain
  have hrest : ([l₂.jobOrNew id] ++ taken').IsChain Job.Advances := hchain'
  have hboth := hchain.append_overlap hrest (List.cons_ne_nil _ _)
  rw [hsplit] at hboth
  exact hboth

end Leads

/-! ### Chatting -/

/-- From one ledger to another only records and lines to the given job are added, and the clock is
read. -/
inductive Chats (job : Option String) : Ledger → Ledger → Prop
  | refl (l : Ledger) : Chats job l l
  | record {l l' : Ledger} (log : Log) (h : Chats job l l') : Chats job l (l'.record log)
  | tick {l l' : Ledger} (h : Chats job l l') : Chats job l l'.tick
  | note {l l' : Ledger} (message : String) (h : Chats job l l') : Chats job l (l'.note job message)

namespace Chats

theorem trans {l₁ l₂ l₃ : Ledger} (h : Chats job l₁ l₂) (h' : Chats job l₂ l₃) :
    Chats job l₁ l₃ := by
  induction h' with
  | refl => exact h
  | record log _ ih => exact ih.record log
  | tick _ ih => exact ih.tick
  | note message _ ih => exact ih.note message

/-- A loop chats when every step of it does. -/
theorem foldl {σ β : Type} (ledger : σ → Ledger) {f : σ → β → σ}
    (h : ∀ s b, Chats job (ledger s) (ledger (f s b))) (bs : List β) (s : σ) :
    Chats job (ledger s) (ledger (bs.foldl f s)) := by
  induction bs generalizing s with
  | nil => exact .refl _
  | cons b bs ih => exact (h s b).trans (ih (f s b))

/-- Nothing is taken back from the log. -/
theorem keeps_log (h : Chats job l l') : l.log <+: l'.log := by
  induction h with
  | refl => exact List.prefix_rfl
  | record log _ ih => exact ih.trans (List.prefix_append _ log)
  | tick _ ih => exact ih
  | note message _ ih =>
    cases job with
    | none => exact ih
    | some id => exact ih.trans (List.prefix_append _ (lineLog id message))

end Chats

/-! ### Where a job stands -/

/-- Since `origin` the job has taken states that follow one another, and it has come to the given
status, progress and step. -/
structure Stands (id : String) (origin l : Ledger) (status : JobStatus) (progress : Int)
    (step : String) : Prop where
  leads : Leads id origin l
  status_eq : (l.jobOrNew id).status = status
  progress_eq : (l.jobOrNew id).progress = progress
  step_eq : (l.jobOrNew id).step = step
  nonneg : 0 ≤ progress
  le_hundred : progress ≤ 100

namespace Stands

variable {origin : Ledger} {status : JobStatus} {progress : Int} {step : String}

/-- A new job stands at the beginning. -/
theorem start (h : l.jobOrNew id = { id }) : Stands id l l .initializing 0 "initializing" where
  leads := .refl id l
  status_eq := by rw [h]
  progress_eq := by rw [h]
  step_eq := by rw [h]
  nonneg := Int.le_refl 0
  le_hundred := by decide

theorem of_history_eq (h : Stands id origin l status progress step)
    (heq : l'.history = l.history) : Stands id origin l' status progress step where
  leads := h.leads.trans (.of_history_eq heq)
  status_eq := by rw [jobOrNew_congr heq, h.status_eq]
  progress_eq := by rw [jobOrNew_congr heq, h.progress_eq]
  step_eq := by rw [jobOrNew_congr heq, h.step_eq]
  nonneg := h.nonneg
  le_hundred := h.le_hundred

theorem record (h : Stands id origin l status progress step) (log : Log) :
    Stands id origin (l.record log) status progress step :=
  h.of_history_eq rfl

/-- A new state of the job is where it stands then. -/
theorem setJob (h : Stands id origin l status progress step) {j : Job}
    {status' : JobStatus} {progress' : Int} {step' : String} (hstatus : j.status = status')
    (hprogress : j.progress = progress') (hstep : j.step = step')
    (hprecedes : status.Precedes status') (hle : progress ≤ progress') (hhundred : progress' ≤ 100)
    (hlog : (l.jobOrNew id).log <+: j.log) :
    Stands id origin (l.setJob id j) status' progress' step' where
  leads := by
    refine h.leads.trans (.setJob ⟨?_, ?_, ?_, ?_, hlog⟩)
    · rwa [h.status_eq, hstatus]
    · rwa [h.progress_eq, hprogress]
    · rw [hprogress]
      exact Int.le_trans h.nonneg hle
    · rwa [hprogress]
  status_eq := by rwa [jobOrNew_setJob]
  progress_eq := by rwa [jobOrNew_setJob]
  step_eq := by rwa [jobOrNew_setJob]
  nonneg := Int.le_trans h.nonneg hle
  le_hundred := hhundred

/-- **A line alone changes nothing else**, even when the job is over. -/
theorem line (h : Stands id origin l status progress step) (message : String) :
    Stands id origin (l.append id message) status progress step := by
  rw [append, Job.advance_none]
  have htick : Stands id origin l.tick status progress step := h.of_history_eq rfl
  have hnext := htick.setJob (j := (l.jobOrNew id).addLine (l.tick.stampedLine message))
    h.status_eq h.progress_eq h.step_eq (Or.inl rfl) (Int.le_refl progress) h.le_hundred
    (List.prefix_append _ _)
  exact hnext.of_history_eq rfl

/-- **A line with a step, and perhaps a progress**, that are taken on unless the job is over. -/
theorem told (h : Stands id origin l status progress step) (hterminal : status.isTerminal = false)
    (message : String) (given : Option Int) (step' : String)
    (hle : progress ≤ given.getD progress) (hhundred : given.getD progress ≤ 100) :
    Stands id origin (l.append id message given (some step')) status (given.getD progress)
      step' := by
  have hline :
      ((l.tick.jobOrNew id).addLine (l.tick.stampedLine message)).status.isTerminal = false := by
    rw [← hterminal, ← h.status_eq]
    rfl
  have hclamp : (given.map Job.clamp).getD (l.jobOrNew id).progress = given.getD progress := by
    cases given with
    | none => exact h.progress_eq
    | some n => exact Job.clamp_of_le (Int.le_trans h.nonneg hle) hhundred
  rw [append, Job.advance_of_not_terminal hline]
  have htick : Stands id origin l.tick status progress step := h.of_history_eq rfl
  have hnext := htick.setJob
    (j := { (l.jobOrNew id).addLine (l.tick.stampedLine message) with
      progress := (given.map Job.clamp).getD (l.jobOrNew id).progress, step := step' })
    h.status_eq hclamp rfl (Or.inl rfl) hle hhundred (List.prefix_append _ _)
  exact hnext.of_history_eq rfl

/-- **The next status**, unless the job is over. -/
theorem setStatus (h : Stands id origin l status progress step)
    (hterminal : status.isTerminal = false) {status' : JobStatus}
    (hprecedes : status.Precedes status') :
    Stands id origin (l.setStatus id status') status' progress step := by
  have hjob : (l.jobOrNew id).status.isTerminal = false := by rw [h.status_eq, hterminal]
  have hset : l.setStatus id status'
      = l.setJob id { l.jobOrNew id with status := status' } := by
    rw [Ledger.setStatus, Job.setStatus, hjob]
    rfl
  rw [hset]
  exact h.setJob rfl h.progress_eq h.step_eq hprecedes (Int.le_refl progress) h.le_hundred
    List.prefix_rfl

/-- **Chatting leaves a job where it stands.** -/
theorem chats (h : Stands id origin l status progress step) (hchats : Chats (some id) l l') :
    Stands id origin l' status progress step := by
  induction hchats with
  | refl => exact h
  | record log _ ih => exact ih.of_history_eq rfl
  | tick _ ih => exact ih.of_history_eq rfl
  | note message _ ih => exact ih.line message

end Stands

end Ledger

end Docwright
