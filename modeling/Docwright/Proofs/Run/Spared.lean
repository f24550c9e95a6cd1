import Docwright.Proofs.Run.Career

/-!
# A job leaves all others alone

Whatever a job does to the ledger, only the job itself takes on states (`Ledger.Spares`): every
status and every line is given under its own id, and the rest are records and readings of the clock.
`spares_runJob` says this of a whole run, whatever the service and the disk do.
-/

namespace Docwright

namespace Ledger

variable {job : String} {l l' : Ledger}

/-- From one ledger to another no job but the given one has taken a state. -/
def Spares (job : String) (l l' : Ledger) : Prop :=
  ∀ id, id ≠ job → l'.states id = l.states id

theorem states_setJob_of_ne {id : String} (h : id ≠ job) (l : Ledger) (j : Job) :
    (l.setJob job j).states id = l.states id := by
  have hkey : (job == id) = false := beq_eq_false_iff_ne.2 h.symm
  rw [states, setJob, List.filter_cons_of_neg (by simp [hkey]), states]

namespace Spares

theorem of_history_eq (h : l'.history = l.history) : Spares job l l' :=
  fun id _ ↦ states_congr h id

theorem refl (job : String) (l : Ledger) : Spares job l l :=
  of_history_eq rfl

theorem trans {l₁ l₂ l₃ : Ledger} (h : Spares job l₁ l₂) (h' : Spares job l₂ l₃) :
    Spares job l₁ l₃ :=
  fun id hid ↦ (h' id hid).trans (h id hid)

theorem setJob (h : Spares job l l') (j : Job) : Spares job l (l'.setJob job j) :=
  h.trans fun _ hid ↦ states_setJob_of_ne hid l' j

theorem record (h : Spares job l l') (log : Log) : Spares job l (l'.record log) :=
  h.trans (of_history_eq rfl)

theorem tick (h : Spares job l l') : Spares job l l'.tick :=
  h.trans (of_history_eq rfl)

theorem append (h : Spares job l l') (message : String) (progress : Option Int)
    (step : Option String) : Spares job l (l'.append job message progress step) :=
  (h.tick.setJob _).record _

theorem setStatus (h : Spares job l l') (status : JobStatus) :
    Spares job l (l'.setStatus job status) := by
  rw [Ledger.setStatus]
  split
  · exact (h.setJob _).record _
  · exact h.setJob _

theorem create (h : Spares job l l') : Spares job l (l'.create job) :=
  h.setJob _

theorem ensure (h : Spares job l l') : Spares job l (l'.ensure job) := by
  rw [Ledger.ensure]
  split
  · exact h
  · exact h.create

/-- Chatting is done under the id of the job. -/
theorem chats (h : Spares job l l') {l'' : Ledger} (hchats : Chats (some job) l' l'') :
    Spares job l l'' := by
  induction hchats with
  | refl => exact h
  | record log _ ih => exact ih.record log
  | tick _ ih => exact ih.tick
  | note message _ ih => exact ih.append message none none

/-- The other jobs are what they were. -/
theorem job?_eq (h : Spares job l l') {id : String} (hid : id ≠ job) : l'.job? id = l.job? id := by
  rw [← getLast?_states, ← getLast?_states, h id hid]

end Spares

end Ledger

open Ledger (Spares)

namespace Run

theorem spares_prepare (p : Pipeline) (job mode : String) (files : List SourceFile) (w : Works) :
    Spares job w.desk.ledger (prepare p job mode files w).2.desk.ledger := by
  have hstart (message : String) : Spares job w.desk.ledger
      ((w.desk.ledger.setStatus job .initializing).append job message (some 5)
        (some "initializing")) :=
    ((Spares.refl job _).setStatus _).append message _ _
  have hanalyzing (message message' : String) (log log' : Log) :=
    ((((hstart message).setStatus .analyzing).record log).append message' (some 15)
      (some "analyzing")).record log'
  have hgenerating {l : Ledger} (hl : Spares job w.desk.ledger l) (log : Log)
      (message message' message'' : String) :=
    ((((hl.append message (some 20) (some "analyzing")).record log).append message' (some 25)
      (some "classifying")).setStatus .generating).append message'' (some generationStart)
        (some "generating")
  simp only [prepare, Works.onLedger]
  split
  · exact hstart _
  · split
    · exact hanalyzing _ _ _ _
    · split
      · exact hanalyzing _ _ _ _
      · exact hgenerating (hanalyzing _ _ _ _) _ _ _ _

theorem spares_generateAll (p : Pipeline) (job : String) (all done : Nat)
    (units : List Page.PageUnit) (w : Works) :
    Spares job w.desk.ledger (generateAll p job all done units w).2.desk.ledger := by
  induction units generalizing done w with
  | nil => exact .refl job _
  | cons u rest ih =>
    have hmade := (Spares.refl job w.desk.ledger).chats
      (Generation.chats_generate p.generation p.service (some job) (done + 2) u w.desk)
    rw [generateAll]
    split
    · rename_i heq
      rw [heq] at hmade
      exact hmade
    · rename_i document desk heq
      rw [heq] at hmade
      split
      · exact hmade
      · simp only
        generalize hw' : Works.onLedger _ _ = w'
        have htold : Spares job w.desk.ledger w'.desk.ledger := by
          rw [← hw']
          exact hmade.append _ _ _
        have hrest := htold.trans (ih (done + 1) w')
        split
        · rename_i heq'
          rw [heq'] at hrest
          exact hrest
        · rename_i heq'
          rw [heq'] at hrest
          exact hrest

theorem spares_finish (p : Pipeline) (job : String) (documents : List Page.Document)
    (destination : Files.Path) (w : Works) :
    Spares job w.desk.ledger (finish p job documents destination w).2.desk.ledger := by
  have hwritten (message : String) := ((((Spares.refl job w.desk.ledger).setStatus
    .finalizing).append message (some 80) (some "finalizing")).chats
      (Site.chats_materialize p.sidebar documents destination (some job) Site.landingLabel
        ⟨w.disk, (w.desk.ledger.setStatus job .finalizing).append job message (some 80)
          (some "finalizing")⟩))
  simp only [finish, Works.onLedger]
  split
  · exact hwritten _
  · generalize hw' : Works.mk _ _ _ = w'
    have hsaved : Spares job w.desk.ledger (persistCache w').2.desk.ledger := by
      rw [persistCache_ledger, ← hw']
      exact hwritten _
    split
    · rename_i heq
      rw [heq] at hsaved
      exact hsaved
    · rename_i heq
      rw [heq] at hsaved
      exact ((((hsaved.append _ _ _).append _ _ _).setStatus _).record _)

theorem spares_stages (p : Pipeline) (job mode : String) (files : List SourceFile)
    (destination : Files.Path) (w : Works) :
    Spares job w.desk.ledger (stages p job mode files destination w).2.desk.ledger := by
  rw [stages]
  split
  · exact .refl job _
  · have hprepared := spares_prepare p job mode files w
    split
    · rename_i heq
      rw [heq] at hprepared
      exact hprepared
    · rename_i units w₁ heq
      rw [heq] at hprepared
      have hgenerated := hprepared.trans (spares_generateAll p job units.length 0 units w₁)
      split
      · rename_i heq'
        rw [heq'] at hgenerated
        exact hgenerated
      · rename_i documents w₂ heq'
        rw [heq'] at hgenerated
        exact hgenerated.trans (spares_finish p job documents destination w₂)

theorem spares_fail (job reason : String) (l : Ledger) : Spares job l (fail job reason l) :=
  (((Spares.refl job l).record _).append _ none (some "failed")).setStatus _

theorem spares_failFor (job : String) (fault : Fault) (l : Ledger) :
    Spares job l (failFor job fault l) := by
  cases fault with
  | precondition reason => exact spares_fail job reason l
  | generation fault => exact spares_fail job fault.message l
  | crashed crash => exact ((Spares.refl job l).record _).trans (spares_fail job _ _)
  | dividedByZero => exact ((Spares.refl job l).record _).trans (spares_fail job _ _)

end Run

/-- **A run leaves all other jobs alone**, whatever becomes of it. -/
theorem spares_runJob (p : Pipeline) (job : String) (files : List SourceFile)
    (destination : Files.Path) (mode : Option String) (w : Works) :
    Spares job w.desk.ledger (runJob p job files destination mode w).2.desk.ledger := by
  have hensured : Spares job w.desk.ledger (w.onLedger (·.ensure job)).desk.ledger :=
    (Spares.refl job w.desk.ledger).ensure
  have hstages := hensured.trans (Run.spares_stages p job
    ((Service.nonEmpty mode).getD p.mode) files destination (w.onLedger (·.ensure job)))
  rw [runJob]
  split
  · rename_i heq
    rw [heq] at hstages
    exact hstages
  · rename_i fault w' heq
    rw [heq] at hstages
    exact hstages.trans (Run.spares_failFor job fault w'.desk.ledger)

end Docwright
