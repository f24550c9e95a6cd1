import Docwright.Api.Serve
import Docwright.Proofs.Run.Spared

/-!
# What a request does to the jobs

A request that is not accepted only adds records. One that is accepted starts the job with its id
afresh and leaves all other jobs alone. So the jobs that were there stay as they were exactly if
none of them has that id (`serve_jobs`): whoever submits a job under the id of an earlier one,
finished or not, takes its record away.
-/

namespace Docwright.Api

open Ledger (Spares)

/-- From one ledger to another a job has been started afresh and has run its course. -/
structure RunsAnew (id : String) (l l' : Ledger) : Prop where
  spares : Spares id l l'
  states : ∃ taken final, l'.states id = l.states id ++ { id := id } :: taken ∧
    l'.job? id = some final ∧ ({ id := id } :: taken).getLast? = some final ∧
    ({ id := id } :: taken).IsChain (fun a b ↦ a.progress ≤ b.progress ∧ a.log <+: b.log) ∧
    final.status.isTerminal = true

/-- A job that is created runs its course, whether there was one with its id or not. -/
theorem runsAnew_create (p : Pipeline) (id : String) (files : List SourceFile)
    (destination : Files.Path) (mode : Option String) (w : Works) :
    RunsAnew id w.desk.ledger
      (runJob p id files destination mode (w.onLedger (·.create id))).2.desk.ledger where
  spares :=
    (Spares.refl id w.desk.ledger).create.trans (spares_runJob p id files destination mode _)
  states := by
    have hnew : (w.onLedger (·.create id)).desk.ledger.jobOrNew id = { id } :=
      Ledger.jobOrNew_setJob w.desk.ledger id { id }
    obtain ⟨⟨taken, hstates, hjob, hlast, hchain, -⟩, hdone, hfailed, -⟩ :=
      runJob_career p id files destination mode (w.onLedger (·.create id)) hnew
    have hcreated : (w.onLedger (·.create id)).desk.ledger.states id
        = w.desk.ledger.states id ++ [{ id := id }] :=
      Ledger.states_setJob w.desk.ledger id { id := id }
    refine ⟨taken, _, ?_, hjob, hlast, hchain, ?_⟩
    · rw [hstates, hcreated, List.append_assoc, List.singleton_append]
    · cases hran : (runJob p id files destination mode (w.onLedger (·.create id))).1 with
      | none =>
        rw [(hfailed hran).1]
        rfl
      | some nav =>
        rw [(hdone.1 (by rw [hran]; rfl)).1]
        rfl

theorem RunsAnew.of_record {id : String} {l l' : Ledger} {log : Log}
    (h : RunsAnew id (l.record log) l') : RunsAnew id l l' where
  spares := ((Spares.refl id l).record log).trans h.spares
  states := h.states

/-- The jobs that were there have kept their states exactly if none of them was started afresh. -/
theorem RunsAnew.kept_iff {id : String} {l l' : Ledger} (h : RunsAnew id l l') :
    (∀ other, (l.job? other).isSome → l'.states other = l.states other) ↔ l.job? id = none := by
  constructor
  · intro hkept
    by_contra hsome
    obtain ⟨taken, -, hstates, -⟩ := h.states
    have hsame := hkept id (Option.isSome_iff_ne_none.2 hsome)
    rw [hstates] at hsame
    simp at hsame
  · intro hnone other hother
    refine h.spares other fun heq ↦ ?_
    rw [heq, hnone] at hother
    cases hother

theorem idOr_desk (w : Works) (id : Option String) : (w.idOr id).2.desk = w.desk := by
  rw [Works.idOr]
  split
  · rfl
  · rfl

/-- What becomes of a request: nothing but records are added, or the job of its submission is
accepted and runs. -/
inductive Serves (r : Request) (w : Works) : Except Crash Answer × Works → Prop
  | unaccepted {answer : Except Crash Answer} (log : Log) (h : ∀ id, answer ≠ .ok (.accepted id)) :
    Serves r w (answer, w.onLedger (·.record log))
  | accepted {s : Submission} {w' : Works} (hs : Submission.ofBytes r.body = some (.ok s))
    (h : RunsAnew (w.idOr s.jobId).1 w.desk.ledger w'.desk.ledger) :
    Serves r w (.ok (.accepted (w.idOr s.jobId).1), w')

theorem Serves.same {r : Request} {w : Works} {answer : Except Crash Answer}
    (h : ∀ id, answer ≠ .ok (.accepted id)) : Serves r w (answer, w) := by
  have hw : w.onLedger (·.record []) = w := by
    rw [Works.onLedger, Ledger.record, List.append_nil]
  have hserves : Serves r w (answer, w.onLedger (·.record [])) := .unaccepted [] h
  rwa [hw] at hserves

/-- A refusal for the sources of a submission accepts nothing. -/
theorem refusal_ne {d : Files.Disk} {input : Input} {log : Log} {refusal : Answer}
    (h : sources d input = (log, .ok (.error refusal))) (id : String) :
    refusal ≠ .accepted id := by
  have hfound := congrArg Prod.snd h
  cases input with
  | folder path =>
    simp only [sources] at hfound
    split at hfound
    · cases hfound
    · cases hfound
    · cases hfound
      exact Answer.noConfusion
    · cases hfound
      exact Answer.noConfusion
  | files files =>
    simp only [sources] at hfound
    split at hfound
    · cases hfound
      exact Answer.noConfusion
    · cases hfound

theorem serves_submit (p : Pipeline) {r : Request} {s : Submission}
    (hs : Submission.ofBytes r.body = some (.ok s)) (w : Works) : Serves r w (submit p s w) := by
  rw [submit]
  cases hsources : sources w.disk s.input with
  | mk log found =>
    cases found with
    | error crash => exact .unaccepted log fun id h ↦ by cases h
    | ok found =>
      cases found with
      | error refusal =>
        exact .unaccepted log fun id h ↦ refusal_ne hsources id (Except.ok.inj h)
      | ok files =>
        have hid : ((w.onLedger (·.record log)).idOr s.jobId).1 = (w.idOr s.jobId).1 := by
          rw [Works.idOr, Works.idOr]
          split <;> rfl
        have hran := runsAnew_create p ((w.onLedger (·.record log)).idOr s.jobId).1 files
          (.ofString s.outputDir) s.mode ((w.onLedger (·.record log)).idOr s.jobId).2
        rw [idOr_desk] at hran
        simp only
        rw [hid] at hran ⊢
        exact .accepted hs hran.of_record

theorem serves (p : Pipeline) (r : Request) (w : Works) : Serves r w (serve p r w) := by
  rw [serve]
  split
  · have hastray : ∀ id, astray r.path ≠ .accepted id := fun id ↦ by
      rw [astray]
      split
      · exact Answer.noConfusion
      · exact Answer.noConfusion
    exact .same fun id h ↦ hastray id (Except.ok.inj h)
  · split
    · exact .same fun id h ↦ by cases h
    · split
      · exact .same fun id h ↦ by cases h
      · exact .same fun id h ↦ by cases h
      · split
        · exact .same fun id h ↦ by cases h
        · exact .same fun id h ↦ by cases h
      · split
        · exact .same fun id h ↦ by cases h
        · exact .same fun id h ↦ by cases h
        · rename_i s hs
          exact serves_submit p hs w

/-- **What a request does to the jobs.** Unless it is accepted it only adds records and starts no
job. If it is accepted all other jobs stay as they were, and the job of its submission takes on a
state that is new and runs from there to its end; so the jobs that were there keep their states
exactly if none of them has the id of the submission. -/
theorem serve_jobs (p : Pipeline) (r : Request) (w : Works) :
    let served := serve p r w
    ((∀ id, served.1 ≠ .ok (.accepted id)) → ∃ log, served.2 = w.onLedger (·.record log)) ∧
    ∀ id, served.1 = .ok (.accepted id) →
      (∃ s, Submission.ofBytes r.body = some (.ok s) ∧ id = (w.idOr s.jobId).1) ∧
      (∀ other, other ≠ id → served.2.desk.ledger.states other = w.desk.ledger.states other ∧
        served.2.desk.ledger.job? other = w.desk.ledger.job? other) ∧
      (∃ taken final, served.2.desk.ledger.states id
          = w.desk.ledger.states id ++ { id := id } :: taken ∧
        served.2.desk.ledger.job? id = some final ∧
        ({ id := id } :: taken).getLast? = some final ∧
        ({ id := id } :: taken).IsChain (fun a b ↦ a.progress ≤ b.progress ∧ a.log <+: b.log) ∧
        final.status.isTerminal = true) ∧
      ((∀ other, (w.desk.ledger.job? other).isSome →
          served.2.desk.ledger.states other = w.desk.ledger.states other) ↔
        w.desk.ledger.job? id = none) := by
  intro served
  have hserves : Serves r w served := serves p r w
  generalize served = served at hserves ⊢
  cases hserves with
  | unaccepted log h => exact ⟨fun _ ↦ ⟨log, rfl⟩, fun id hid ↦ absurd hid (h id)⟩
  | accepted hs h =>
    refine ⟨fun hne ↦ absurd rfl (hne _), fun id hid ↦ ?_⟩
    cases hid
    exact ⟨⟨_, hs, rfl⟩, fun other hne ↦ ⟨h.spares other hne, h.spares.job?_eq hne⟩, h.states,
      h.kept_iff⟩

/-- A submission without any files under the id of the client's choice. -/
def emptySubmission : Request where
  method := "POST"
  path := "/jobs"
  body := Text.Utf8.ofString "\x7b\"files\": [], \"job_id\": \"nightly\"\x7d"

/-- The works after it was submitted for the first time. -/
def submittedOnce : Works :=
  (serve mutePipeline emptySubmission emptyWorks).2

/-- The id of an accepted job, if there is one. -/
def Answer.acceptedId? : Except Crash Answer → Option String
  | .ok (.accepted id) => some id
  | _ => none

theorem Answer.eq_of_acceptedId? {answer : Except Crash Answer} {id : String}
    (h : acceptedId? answer = some id) : answer = .ok (.accepted id) := by
  rw [acceptedId?.eq_def] at h
  split at h
  · rw [Option.some.inj h]
  · cases h

/-- Submitted again, it is accepted although the job is there and has failed; another record stands
in the place of its own afterwards. -/
theorem not_kept_submittedOnce :
    (submittedOnce.desk.ledger.job? "nightly").map Job.status = some .failed ∧
      (serve mutePipeline emptySubmission submittedOnce).1 = .ok (.accepted "nightly") ∧
      (¬∀ other, (submittedOnce.desk.ledger.job? other).isSome →
        (serve mutePipeline emptySubmission submittedOnce).2.desk.ledger.states other
          = submittedOnce.desk.ledger.states other) ∧
      (serve mutePipeline emptySubmission submittedOnce).2.desk.ledger.job? "nightly"
        ≠ submittedOnce.desk.ledger.job? "nightly" := by
  have hfailed : (submittedOnce.desk.ledger.job? "nightly").map Job.status = some .failed := by
    decide +kernel
  have haccepted : (serve mutePipeline emptySubmission submittedOnce).1
      = .ok (.accepted "nightly") := Answer.eq_of_acceptedId? (by decide +kernel)
  obtain ⟨-, -, -, hkept⟩ := (serve_jobs mutePipeline emptySubmission submittedOnce).2 _ haccepted
  refine ⟨hfailed, haccepted, fun h ↦ ?_, by decide +kernel⟩
  rw [hkept.1 h] at hfailed
  cases hfailed

end Docwright.Api
