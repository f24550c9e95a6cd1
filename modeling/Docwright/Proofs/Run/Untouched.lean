import Docwright.Proofs.Outline.Batch
import Docwright.Proofs.Run.Stages

/-!
# Jobs that fail before they write

The last thing that a job does is to write the site and the snapshot of the cache, and it says so by
a status (`finalizing`). A job that fails before has left the disk as it was, whatever it failed of:
for want of a mode, of files or of outlines, or at any of its units. All that it leaves behind is in
the ledger and in the cache in memory, where the texts are that were accepted for the units before.

* `runJob_untouched` - the state of disk and cache after such a failure, for every service and every
  file list.

How far the job came is read off the ledger (`Ledger.ComesTo`), because the job is given the status
before it writes and nothing is given up from there (`Run.Finishes.grows`). A job that was over
before the run takes on no status; there the log tells.
-/

namespace Docwright

namespace Ledger

/-- The statuses that a job has taken from one ledger to another, in order. -/
def statusesSince (job : String) (l l' : Ledger) : List JobStatus :=
  ((l'.states job).drop (l.states job).length).map Job.status

/-- From one ledger to another a job has come to a status: it has taken it, or it was over before
and the log tells that the status came too late. -/
def ComesTo (job : String) (status : JobStatus) (l l' : Ledger) : Prop :=
  if (l.jobOrNew job).status.isTerminal then
    ignoredLog job status (l.jobOrNew job).status <:+: l'.log.drop l.log.length
  else status ∈ statusesSince job l l'

end Ledger

open Ledger (Grows GoesOn ComesTo)

namespace Run

variable {p : Pipeline} {job : String} {files : List SourceFile} {w : Works}

/-- A job has come to every status that it was given on the way. -/
theorem comesTo_of_setStatus {l l₁ l' : Ledger} {status : JobStatus} (hbefore : GoesOn job l l₁)
    (hafter : Grows job (l₁.setStatus job status) l') : ComesTo job status l l' := by
  rw [ComesTo]
  split
  · rename_i hover
    obtain ⟨said, hsaid⟩ := hbefore.log
    obtain ⟨later, hlater⟩ := hafter.log
    rw [Ledger.log_setStatus, hbefore.ended hover, if_pos hover] at hlater
    rw [← hlater, ← hsaid, List.append_assoc, List.append_assoc, List.drop_left]
    exact ⟨said, later, List.append_assoc _ _ _⟩
  · rename_i hopen
    obtain ⟨taken, htaken, -⟩ := hbefore.states
    obtain ⟨taken', htaken', -⟩ := hafter.states
    rw [Ledger.statusesSince, htaken', Ledger.states_setStatus, htaken, List.append_assoc,
      List.append_assoc, List.drop_left]
    have hstatus : ((l₁.jobOrNew job).setStatus status).status = status := by
      rw [Job.status_setStatus, hbefore.lasting (by simpa using hopen)]
      rfl
    refine List.mem_map.2 ⟨_, List.mem_append_right _ (List.mem_append_left _ ?_), hstatus⟩
    exact List.mem_singleton.2 rfl

/-- A job that has only gone on has not come to the end of its work. -/
theorem not_comesTo_of_grows {l l' : Ledger} (h : Grows job l l')
    (hopen : (l.jobOrNew job).status.isTerminal = false)
    (hstart : (l.jobOrNew job).status ≠ .finalizing) : ¬ComesTo job .finalizing l l' := by
  obtain ⟨taken, htaken, hstatus⟩ := h.states
  rw [ComesTo, hopen, if_neg Bool.false_ne_true, Ledger.statusesSince, htaken, List.drop_left,
    List.mem_map]
  rintro ⟨j, hj, hfinalizing⟩
  exact hstart (hstatus j hj hfinalizing)

theorem grows_fail (job reason : String) (l : Ledger) : Grows job l (fail job reason l) :=
  (((GoesOn.refl job l).record _).append _ none (some "failed")).toGrows.setStatus (by decide)

theorem grows_failFor (job : String) (fault : Fault) (l : Ledger) :
    Grows job l (failFor job fault l) := by
  cases fault with
  | precondition reason => exact grows_fail job reason l
  | generation fault => exact grows_fail job fault.message l
  | crashed crash => exact ((GoesOn.refl job l).record _).toGrows.trans (grows_fail job _ _)
  | dividedByZero => exact ((GoesOn.refl job l).record _).toGrows.trans (grows_fail job _ _)

theorem status_fail (job reason : String) (l : Ledger) :
    ((fail job reason l).jobOrNew job).status = ((l.jobOrNew job).setStatus .failed).status := by
  have hline := ((GoesOn.refl job l).record
    [⟨.error, "orchestrator", s!"Job {job} failed: {reason}"⟩]).append s!"ERROR: {reason}" none
      (some "failed")
  rw [fail, Ledger.jobOrNew_setStatus]
  exact hline.status_setStatus .failed

/-- A job that is not over is failed, whatever it fails of. -/
theorem status_failFor (job : String) (fault : Fault) (l : Ledger) :
    ((failFor job fault l).jobOrNew job).status
      = ((l.jobOrNew job).setStatus .failed).status := by
  cases fault with
  | precondition reason => exact status_fail job reason l
  | generation fault => exact status_fail job fault.message l
  | crashed crash => exact status_fail job _ (l.record _)
  | dividedByZero => exact status_fail job _ (l.record _)

/-- Whatever comes of writing, it starts with the status that tells of it. -/
theorem Finishes.grows {made : Except Crash Site.NavNode × Site.Workshop}
    {r : Except Fault Site.NavNode × Works} (h : Finishes job w made r) :
    Grows job (w.desk.ledger.setStatus job .finalizing) r.2.desk.ledger := by
  cases h with
  | unwritten _ _ _ hgoesOn => exact hgoesOn.toGrows
  | unsaved _ _ _ hgoesOn => exact hgoesOn.toGrows
  | completed _ _ hgoesOn hlast =>
    rw [hlast]
    exact (hgoesOn.toGrows.setStatus (by decide)).trans ((GoesOn.refl job _).record _).toGrows

open Generation (Turn Session)

/-- Where a job stops after the calls that have brought a document. -/
inductive StopsAfter (p : Pipeline) (mode : String) (files : List SourceFile) (made : List Turn)
    (c : Cache) : Prop
  /-- It has no units, for want of a mode or of outlines. -/
  | unprepared (hnot : ∀ units, ¬Prepared p mode files units) (hmade : made = [])
  /-- The call for the next unit, which finds the cache as it is now, brings none. -/
  | atUnit {t : Turn} {rest : List Page.PageUnit} {fault : GenerationFault}
    (hprepared : Prepared p mode files (made.map Turn.unit ++ t.unit :: rest))
    (hmade : ∀ x ∈ made, ∃ document, (x.result p.generation p.service).1 = .ok document)
    (hdesk : t.desk.cache = c) (hfault : (t.result p.generation p.service).1 = .error fault)

/-- **A run that does not come to writing** has failed, has left the disk alone and has stopped
after some calls. -/
theorem Reaches.stops {destination : Files.Path} {mode : String}
    {r : Except Fault Site.NavNode × Works} (h : Reaches p job mode files destination w r)
    {l l' : Ledger} (hbefore : GoesOn job l w.desk.ledger) (hafter : Grows job r.2.desk.ledger l')
    (hearly : ¬ComesTo job .finalizing l l') :
    ∃ fault, r.1 = .error fault ∧ GoesOn job l r.2.desk.ledger ∧ r.2.disk = w.disk ∧
      ∃ made, Session p.generation p.service w.desk.cache made r.2.desk.cache ∧
        StopsAfter p mode files made r.2.desk.cache := by
  cases h with
  | unprepared hnot hdisk hcache hgoesOn =>
    refine ⟨_, rfl, hbefore.trans hgoesOn, hdisk, [], ?_, .unprepared hnot rfl⟩
    rw [← hcache]
    exact .nil _
  | stopped hprepared hdisk hgoesOn hcourse =>
    cases hcourse with
    | stopped hsession hunits hmade hdesk hfault =>
      subst hunits
      exact ⟨_, rfl, hbefore.trans hgoesOn, hdisk, _, hsession,
        .atUnit hprepared hmade hdesk hfault⟩
  | @finishing units documents w' _ _ hgoesOn _ =>
    exact absurd (comesTo_of_setStatus (hbefore.trans hgoesOn)
      ((finishes_finish p job documents destination w').grows.trans hafter)) hearly

end Run

open Generation (Turn Session)

/-- **A job that fails before it writes leaves no trace on the disk.** When a run ends without
having come to the status in which it writes, the job has failed, unless it was over before, and the
disk with all its files is what it was, the snapshot of the cache included. The cache in memory has
what it had, and the texts that were accepted, each after passing review, for the units before the
one that brought no document; there are none when the job did not come to its units. -/
theorem runJob_untouched (p : Pipeline) (job : String) (files : List SourceFile)
    (destination : Files.Path) (mode : Option String) (w : Works)
    (hearly : ¬ComesTo job .finalizing w.desk.ledger
      (runJob p job files destination mode w).2.desk.ledger) :
    let ran := runJob p job files destination mode w
    let cache := ran.2.desk.cache
    let accepted? := Turn.accepted? p.generation p.service
    ran.1 = none ∧ (ran.2.desk.ledger.jobOrNew job).status
        = ((w.desk.ledger.jobOrNew job).setStatus .failed).status ∧ ran.2.disk = w.disk ∧
      ∃ made : List Turn, Session p.generation p.service w.desk.cache made cache ∧
        Run.StopsAfter p ((Service.nonEmpty mode).getD p.mode) files made cache ∧
        (∀ k, cache.get? k = (w.desk.cache.get? k).or ((made.filterMap accepted?).lookup k)) ∧
        (∀ k, cache.contains k =
          (w.desk.cache.contains k || (made.filterMap accepted?).any (·.1 == k))) ∧
        ∀ t ∈ made, ∀ k text, accepted? t = some (k, text) → k = t.key p.generation ∧
          Page.review (p.generation.checks t.unit) text = [] := by
  intro ran cache accepted?
  have hreaches := Run.reaches_stages p job ((Service.nonEmpty mode).getD p.mode) files destination
    (w.onLedger (·.ensure job))
  cases hstages : Run.stages p job ((Service.nonEmpty mode).getD p.mode) files destination
      (w.onLedger (·.ensure job)) with
  | mk result w' =>
    rw [hstages] at hreaches
    have hafter : Grows job w'.desk.ledger ran.2.desk.ledger := by
      cases result with
      | ok nav =>
        rw [show ran = _ from runJob_of_ok hstages]
        exact (GoesOn.refl job _).toGrows
      | error fault =>
        rw [show ran = _ from runJob_of_error hstages]
        exact Run.grows_failFor job fault _
    obtain ⟨fault, hfault, hgoesOn, hdisk, made, hsession, hstops⟩ :=
      hreaches.stops (.ensure job w.desk.ledger) hafter hearly
    cases hfault
    have hran : ran = (none, w'.onLedger (Run.failFor job fault)) := runJob_of_error hstages
    have hcache : cache = w'.desk.cache := congrArg (fun r ↦ r.2.desk.cache) hran
    have hstatus := (Run.status_failFor job fault w'.desk.ledger).trans
      (hgoesOn.status_setStatus .failed)
    rw [hcache, hran]
    exact ⟨rfl, hstatus, hdisk, made, hsession, hstops, hsession.get?_eq,
      hsession.contains_eq, fun t _ k text h ↦ Turn.review_of_accepted h⟩

/-- A run whose stages only go on does not come to the status in which it writes. -/
theorem not_comesTo_runJob {p : Pipeline} {job : String} {files : List SourceFile}
    {destination : Files.Path} {mode : Option String} {w : Works}
    {r : Except Run.Fault Site.NavNode × Works}
    (hr : Run.stages p job ((Service.nonEmpty mode).getD p.mode) files destination
      (w.onLedger (·.ensure job)) = r) {fault : Run.Fault} (hfault : r.1 = .error fault)
    (hgrows : Grows job (w.desk.ledger.ensure job) r.2.desk.ledger)
    (hopen : (w.desk.ledger.jobOrNew job).status.isTerminal = false)
    (hstart : (w.desk.ledger.jobOrNew job).status ≠ .finalizing) :
    ¬ComesTo job .finalizing w.desk.ledger
      (runJob p job files destination mode w).2.desk.ledger := by
  obtain ⟨result, w'⟩ := r
  cases hfault
  rw [runJob_of_error hr]
  refine Run.not_comesTo_of_grows ?_ hopen hstart
  exact ((GoesOn.ensure job w.desk.ledger).toGrows.trans hgrows).trans
    (Run.grows_failFor job fault _)

/-! ### A service that refuses everything -/

namespace Refusal

open Service

/-- The service that refuses everything for good. -/
def service : ServiceBehaviour := fun _ _ ↦ .error (.permanent "no" none)

/-- A pipeline with that service. -/
def pipeline : Pipeline where
  trees := Outline.Unisolated.treesOf
  service := service

/-- A unit that is not in the cache has no document. -/
theorem exists_fault {s : GenerationSettings} (hbudget : s.maxAttempts ≤ 1000) {t : Turn}
    (hmiss : t.desk.cache.get? (t.key s) = none)
    (hkind : t.unit.kind = .group ∨ t.unit.kind = .file) :
    ∃ fault, (t.result s service).1 = .error fault := by
  obtain ⟨prompt, hprompt⟩ := Generation.exists_prompt_full s hkind
  have hsettled : Generation.Settled s service t.unit t.position t.desk (t.result s service).1
      (t.result s service).2 :=
    Generation.settled_generate hbudget (fun n q crash h ↦ by cases h) t.job t.position hmiss
      hprompt
  obtain ⟨full, simplified, htiers⟩ := hsettled.tiers
  refine hsettled.raises.2 ?_
  -- the first answer is a refusal already
  have hfull := htiers.tries_full.ne_nil
  have hanswers := htiers.answers
  cases full with
  | nil => exact absurd rfl hfull
  | cons a rest =>
    refine ⟨[], a, rest ++ simplified, hanswers, ?_, fun b hb ↦ absurd hb List.not_mem_nil⟩
    have ha : a ∈ t.desk.answers service _ := hanswers ▸ List.mem_append_left _ List.mem_cons_self
    obtain ⟨question, -, rfl⟩ := List.mem_map.1 ha
    exact ⟨"no", none, rfl⟩

/-- No run comes to writing. -/
theorem grows_of_reaches {job mode : String} {files : List SourceFile} {destination : Files.Path}
    {w : Works} {r : Except Run.Fault Site.NavNode × Works}
    (h : Run.Reaches pipeline job mode files destination w r) (hempty : w.desk.cache = {}) :
    ∃ fault, r.1 = .error fault ∧ Grows job w.desk.ledger r.2.desk.ledger := by
  cases h with
  | unprepared hnot hdisk hcache hgoesOn => exact ⟨_, rfl, hgoesOn.toGrows⟩
  | stopped hprepared hdisk hgoesOn hcourse => exact ⟨_, rfl, hgoesOn.toGrows⟩
  | finishing hprepared hdisk hgoesOn hcourse =>
    cases hcourse with
    | @completed made _ _ hsession hunits hmade =>
      have hne := hprepared.ne_nil
      cases hmade with
      | nil => exact absurd hunits.symm hne
      | @cons t document turns documents hfirst _ =>
        cases hsession with
        | cons hdesk =>
          have hkind := hprepared.kind (u := t.unit) (hunits ▸ List.mem_cons_self)
          obtain ⟨fault, hfault⟩ := exists_fault (s := pipeline.generation) (by decide)
            (by rw [hdesk, hempty]; rfl) hkind
          rw [show (t.result pipeline.generation pipeline.service).1 = _ from hfault] at hfirst
          cases hfirst

/-- The run of a job for a file with a function, about which the service refuses to say anything. -/
def ran : Option Site.NavNode × Works :=
  runJob pipeline "job" [Outline.Unisolated.named] ⟨false, ["site"]⟩ none emptyWorks

theorem not_comesTo_ran :
    ¬ComesTo "job" .finalizing emptyWorks.desk.ledger ran.2.desk.ledger := by
  obtain ⟨fault, hfault, hgrows⟩ := grows_of_reaches (Run.reaches_stages pipeline "job"
    ((Service.nonEmpty none).getD pipeline.mode) [Outline.Unisolated.named] ⟨false, ["site"]⟩
    (emptyWorks.onLedger (·.ensure "job"))) rfl
  exact not_comesTo_runJob rfl hfault hgrows rfl (by decide)

/-- It fails without a trace on the disk. -/
theorem runJob_untouched_refused :
    ¬ComesTo "job" .finalizing emptyWorks.desk.ledger ran.2.desk.ledger ∧ ran.1 = none ∧
      (ran.2.desk.ledger.jobOrNew "job").status = .failed ∧ ran.2.disk = emptyWorks.disk := by
  obtain ⟨hnone, hstatus, hdisk, -⟩ := runJob_untouched pipeline "job" [Outline.Unisolated.named]
    ⟨false, ["site"]⟩ none emptyWorks not_comesTo_ran
  exact ⟨not_comesTo_ran, hnone, hstatus, hdisk⟩

end Refusal

end Docwright
