import Docwright.Proofs.Run.Chats

/-!
# The career of a job

`runJob_career`: a job that is new goes through the stages in order and ends in one of two ways. It
completes, with the navigation of the site, or it fails with a line that says why; on the way its
progress never goes back, its log only grows, and its statuses climb the ladder.

Every stage says where the job stands when it is done, and that the job is still open when it fails
(`Ends`). Between the places where a stage moves the job on, everything only chats, so nothing that
the service or the disk does can matter.
-/

namespace Docwright

open Ledger (Stands)

namespace Run

variable {job : String} {origin : Ledger} {w : Works}

/-- The job is not over and has not come too far to fail. -/
def Open (job : String) (origin l : Ledger) : Prop :=
  ∃ status progress step, Stands job origin l status progress step ∧
    status.isTerminal = false ∧ progress ≤ 90

/-- A stage ends well in a ledger of the given kind, or with a job that is still open and a fault
that is not a division by zero. -/
def Ends {α : Type} (job : String) (origin : Ledger) (good : Ledger → Prop)
    (r : Except Fault α × Works) : Prop :=
  match r.1 with
  | .ok _ => good r.2.desk.ledger
  | .error fault => fault ≠ .dividedByZero ∧ Open job origin r.2.desk.ledger

/-! ### Preparing -/

/-- **Preparing** takes a new job up to the start of generating. -/
theorem ends_prepare (p : Pipeline) (mode : String) (files : List SourceFile)
    (h : Stands job origin w.desk.ledger .initializing 0 "initializing") :
    Ends job origin (Stands job origin · .generating generationStart "generating")
      (prepare p job mode files w) := by
  have hstart (message : String) : Stands job origin
      ((w.desk.ledger.setStatus job .initializing).append job message (some 5)
        (some "initializing")) .initializing 5 "initializing" :=
    (h.setStatus rfl (Or.inl rfl)).told rfl message (some 5) _ (by decide) (by decide)
  have hanalyzing {l : Ledger} (hl : Stands job origin l .initializing 5 "initializing")
      (log log' : Log) (message : String) : Stands job origin
        ((((l.setStatus job .analyzing).record log).append job message (some 15)
          (some "analyzing")).record log') .analyzing 15 "analyzing" :=
    (((hl.setStatus rfl (Or.inr (Or.inl rfl))).record log).told rfl message (some 15) "analyzing"
      (by decide) (by decide)).record log'
  have hgenerating {l : Ledger} (hl : Stands job origin l .analyzing 15 "analyzing")
      (log : Log) (message message' message'' : String) : Stands job origin
        ((((((l.append job message (some 20) (some "analyzing")).record log).append job message'
          (some 25) (some "classifying"))).setStatus job .generating).append job message''
          (some generationStart) (some "generating")) .generating generationStart "generating" := by
    have hextracted := hl.told rfl message (some 20) "analyzing" (by decide) (by decide)
    have hclassified := (hextracted.record log).told rfl message' (some 25) "classifying"
      (by decide) (by decide)
    have hgenerating := hclassified.setStatus rfl (Or.inr (Or.inl rfl))
    exact hgenerating.told rfl message'' (some generationStart) "generating" (by decide) (by decide)
  simp only [prepare, Works.onLedger]
  split
  · exact ⟨Fault.noConfusion, _, _, _, hstart _, rfl, by decide⟩
  · split
    · exact ⟨Fault.noConfusion, _, _, _, hanalyzing (hstart _) _ _ _, rfl, by decide⟩
    · split
      · exact ⟨Fault.noConfusion, _, _, _, hanalyzing (hstart _) _ _ _, rfl, by decide⟩
      · exact hgenerating (hanalyzing (hstart _) _ _ _) _ _ _ _

/-! ### Generating -/

/-- The progress once `done` of `all` documents have been generated. -/
def progressAt (done all : Nat) : Int :=
  generationStart + (generationEnd - generationStart) * done / all

theorem progressAfter?_eq {all : Nat} (h : all ≠ 0) (done : Nat) :
    progressAfter? done all = some (progressAt done all) := by
  rw [progressAfter?, if_neg h]
  rfl

theorem progressAt_zero (all : Nat) : progressAt 0 all = generationStart := by
  simp [progressAt]

theorem progressAt_le_succ {all : Nat} (h : all ≠ 0) (done : Nat) :
    progressAt done all ≤ progressAt (done + 1) all := by
  have hpos : (0 : Int) < all := by omega
  have hdivide := Int.ediv_le_ediv hpos
    (show (generationEnd - generationStart) * (done : Int)
        ≤ (generationEnd - generationStart) * ((done + 1 : Nat) : Int) by
      simp only [generationEnd, generationStart]
      omega)
  exact Int.add_le_add_left hdivide generationStart

theorem progressAt_le_end {done all : Nat} (hall : all ≠ 0) (h : done ≤ all) :
    progressAt done all ≤ generationEnd := by
  have hpos : (0 : Int) < all := by omega
  have hdivide : (generationEnd - generationStart) * (done : Int) / all
      ≤ generationEnd - generationStart := by
    refine Int.ediv_le_of_le_mul hpos ?_
    simp only [generationEnd, generationStart]
    omega
  simp only [progressAt]
  simp only [generationEnd, generationStart] at hdivide ⊢
  omega

/-- Generating, of however many documents, ends before the site is written. -/
theorem progressAt_self_le (all : Nat) : progressAt all all ≤ 80 := by
  by_cases hall : all = 0
  · rw [hall, progressAt_zero]
    decide
  · have hend := progressAt_le_end hall (Nat.le_refl all)
    simp only [generationEnd] at hend
    omega

theorem ofGeneration_ne (fault : GenerationFault) : Fault.ofGeneration fault ≠ .dividedByZero := by
  cases fault <;> exact Fault.noConfusion

/-- **Generating** takes a job from one document to the next, and there is always a progress to
report. -/
theorem ends_generateAll (p : Pipeline) {all done : Nat} {units : List Page.PageUnit}
    (hall : done + units.length = all)
    (h : Stands job origin w.desk.ledger .generating (progressAt done all) "generating") :
    Ends job origin (Stands job origin · .generating (progressAt all all) "generating")
      (generateAll p job all done units w) := by
  induction units generalizing done w with
  | nil =>
    have hdone : done = all := hall
    rw [hdone] at h
    exact h
  | cons u rest ih =>
    have hpos : all ≠ 0 := by
      rw [List.length_cons] at hall
      omega
    have hle : done + 1 ≤ all := by
      rw [List.length_cons] at hall
      omega
    have hend := progressAt_le_end hpos hle
    have hstep := progressAt_le_succ hpos done
    have hmade := h.chats
      (Generation.chats_generate p.generation p.service (some job) (done + 2) u w.desk)
    rw [generateAll]
    split
    · rename_i fault desk heq
      rw [heq] at hmade
      refine ⟨ofGeneration_ne fault, _, _, _, hmade, rfl, ?_⟩
      simp only [generationEnd] at hend
      omega
    · rename_i document desk heq
      rw [heq] at hmade
      rw [progressAfter?_eq hpos]
      have htold (message : String) := hmade.told rfl message (some (progressAt (done + 1) all))
        "generating" hstep (by simp only [generationEnd, Option.getD_some] at hend ⊢; omega)
      simp only
      generalize hw' : Works.onLedger _ _ = w'
      have hstands : Stands job origin w'.desk.ledger .generating (progressAt (done + 1) all)
          "generating" := by
        rw [← hw']
        exact htold _
      have hrest := ih (by rw [List.length_cons] at hall; omega) hstands
      split
      · rename_i heq'
        rw [heq'] at hrest
        exact hrest
      · rename_i heq'
        rw [heq'] at hrest
        exact hrest

/-! ### Finishing -/

/-- Writing the snapshot of the cache leaves the ledger alone. -/
theorem persistCache_ledger (w : Works) : (persistCache w).2.desk.ledger = w.desk.ledger := by
  rw [persistCache]
  split <;> rfl

theorem persistCache_ne (w : Works) : (persistCache w).1 ≠ .error .dividedByZero := by
  rw [persistCache]
  split <;> exact fun h ↦ by cases h

/-- **Finishing** completes a job, unless the site or the snapshot cannot be written. -/
theorem ends_finish (p : Pipeline) {progress : Int} (documents : List Page.Document)
    (destination : Files.Path)
    (h : Stands job origin w.desk.ledger .generating progress "generating") (hle : progress ≤ 80) :
    Ends job origin (Stands job origin · .completed 100 "completed")
      (finish p job documents destination w) := by
  have hfinalizing (message : String) : Stands job origin
      ((w.desk.ledger.setStatus job .finalizing).append job message (some 80) (some "finalizing"))
      .finalizing 80 "finalizing" :=
    (h.setStatus rfl (Or.inr (Or.inl rfl))).told rfl message (some 80) "finalizing" hle
      (show (80 : Int) ≤ 100 by decide)
  have hcompleted {l : Ledger} (hl : Stands job origin l .finalizing 80 "finalizing")
      (message message' : String) (log : Log) : Stands job origin
        ((((l.append job message (some 90) (some "finalizing")).append job message' (some 100)
          (some "completed")).setStatus job .completed).record log) .completed 100 "completed" := by
    have hrebuilt := hl.told rfl message (some 90) "finalizing" (by decide) (by decide)
    have hall := hrebuilt.told rfl message' (some 100) "completed" (by decide) (by decide)
    exact (hall.setStatus rfl (Or.inr (Or.inl rfl))).record log
  have hwritten (message : String) := (hfinalizing message).chats
    (Site.chats_materialize p.sidebar documents destination (some job) Site.landingLabel
      ⟨w.disk, (w.desk.ledger.setStatus job .finalizing).append job message (some 80)
        (some "finalizing")⟩)
  simp only [finish, Works.onLedger]
  split
  · exact ⟨Fault.noConfusion, _, _, _, hwritten _, rfl, by decide⟩
  · generalize hw' : Works.mk _ _ _ = w'
    have hstands :
        Stands job origin (persistCache w').2.desk.ledger .finalizing 80 "finalizing" := by
      rw [persistCache_ledger, ← hw']
      exact hwritten _
    have hfault := persistCache_ne w'
    split
    · rename_i heq
      rw [heq] at hstands hfault
      exact ⟨fun h ↦ hfault (congrArg Except.error h), _, _, _, hstands, rfl, by decide⟩
    · rename_i heq
      rw [heq] at hstands
      exact hcompleted hstands _ _ _

/-- **All stages together** complete a new job or leave it open. -/
theorem ends_stages (p : Pipeline) (mode : String) (files : List SourceFile)
    (destination : Files.Path)
    (h : Stands job origin w.desk.ledger .initializing 0 "initializing") :
    Ends job origin (Stands job origin · .completed 100 "completed")
      (stages p job mode files destination w) := by
  rw [stages]
  split
  · exact ⟨Fault.noConfusion, _, _, _, h, rfl, by decide⟩
  · have hprepared := ends_prepare p mode files h
    split
    · rename_i heq
      rw [heq] at hprepared
      exact hprepared
    · rename_i units w₁ heq
      rw [heq] at hprepared
      have hready : Stands job origin w₁.desk.ledger .generating (progressAt 0 units.length)
          "generating" := by
        rw [progressAt_zero]
        exact hprepared
      have hgenerated := ends_generateAll p (Nat.zero_add units.length) hready
      split
      · rename_i heq'
        rw [heq'] at hgenerated
        exact hgenerated
      · rename_i heq'
        rw [heq'] at hgenerated
        exact ends_finish p _ destination hgenerated (progressAt_self_le units.length)

/-! ### Failing -/

/-- A job that is open is failed at the progress it had, and its last line says why. -/
structure Failed (job : String) (origin l : Ledger) : Prop where
  stands : ∃ progress ≤ 90, Stands job origin l .failed progress "failed"
  last : ∃ (l' : Ledger) (reason : String),
    (l.jobOrNew job).log.getLast? = some (l'.stampedLine s!"ERROR: {reason}")

theorem failed_fail {l : Ledger} (h : Open job origin l) (reason : String) :
    Failed job origin (fail job reason l) := by
  obtain ⟨status, progress, step, hstands, hterminal, hle⟩ := h
  refine ⟨⟨progress, hle, ?_⟩, ?_⟩
  · exact ((hstands.record _).told hterminal _ none "failed" (Int.le_refl progress)
      hstands.le_hundred).setStatus hterminal (Or.inr (Or.inr ⟨hterminal, rfl⟩))
  · rw [fail, Ledger.jobOrNew_setStatus, Job.log_setStatus, Ledger.jobOrNew_append, Job.log_advance]
    exact ⟨_, reason, List.getLast?_concat⟩

theorem failed_failFor {l : Ledger} (h : Open job origin l) (fault : Fault) :
    Failed job origin (failFor job fault l) := by
  have hrecord (log : Log) : Open job origin (l.record log) := by
    obtain ⟨status, progress, step, hstands, hrest⟩ := h
    exact ⟨status, progress, step, hstands.record log, hrest⟩
  cases fault with
  | precondition reason => exact failed_fail h reason
  | generation fault => exact failed_fail h fault.message
  | crashed crash => exact failed_fail (hrecord _) _
  | dividedByZero => exact failed_fail (hrecord _) _

end Run

/-! ### The whole job -/

variable {job : String} {w : Works}

/-- A job that is new stands at the beginning once it has been started. -/
theorem stands_ensure {l : Ledger} (h : l.jobOrNew job = { id := job }) :
    Stands job l (l.ensure job) .initializing 0 "initializing" := by
  rw [Ledger.ensure]
  split
  · exact .start h
  · refine (Stands.start h).setJob rfl rfl rfl (Or.inl rfl) (Int.le_refl 0) (by decide) ?_
    rewrite [h]
    exact List.prefix_rfl

/-- The states after the first keep their progress within its bounds. -/
theorem bounds_of_isChain {j : Job} {taken : List Job} (h : (j :: taken).IsChain Job.Advances) :
    ∀ i ∈ taken, 0 ≤ i.progress ∧ i.progress ≤ 100 := by
  induction taken generalizing j with
  | nil => exact fun i hi ↦ absurd hi List.not_mem_nil
  | cons k taken ih =>
    obtain ⟨hstep, hrest⟩ := List.isChain_cons_cons.1 h
    intro i hi
    rcases List.mem_cons.1 hi with rfl | hi
    · exact ⟨hstep.nonneg, hstep.le_hundred⟩
    · exact ih hrest i hi

/-- **What the states of a job that has ended look like**, from the new job on. -/
theorem exists_states {l l' : Ledger} (hnew : l.jobOrNew job = { id := job })
    (hleads : Ledger.Leads job l l') (hended : (l'.jobOrNew job).status.isTerminal = true) :
    ∃ taken, l'.states job = l.states job ++ taken ∧
      l'.job? job = some (l'.jobOrNew job) ∧
      ({ id := job } :: taken).getLast? = some (l'.jobOrNew job) ∧
      ({ id := job } :: taken).IsChain (fun a b ↦ a.progress ≤ b.progress ∧ a.log <+: b.log) ∧
      (∀ j ∈ { id := job } :: taken, 0 ≤ j.progress ∧ j.progress ≤ 100) ∧
      ∃ rungs, rungs <+: JobStatus.ladder ∧
        (({ id := job } :: taken).map Job.status).destutter (· ≠ ·)
          = rungs ++ if rungs = JobStatus.ladder then [] else [.failed] := by
  obtain ⟨taken, htaken, hchain⟩ := hleads
  have hlast := Ledger.Leads.getLast?_eq htaken
  rw [hnew] at hchain hlast
  -- the new job has not ended, so another state has followed
  have hne : l'.states job ≠ [] := by
    intro hnil
    rw [htaken, List.append_eq_nil_iff] at hnil
    rw [hnil.2, List.getLast?_singleton, Option.some.injEq] at hlast
    rw [← hlast] at hended
    cases hended
  have hjob : l'.job? job = some (l'.jobOrNew job) := by
    rw [Ledger.jobOrNew, ← Ledger.getLast?_states, List.getLast?_eq_some_getLast hne]
    rfl
  have hstatuses : ((({ id := job } : Job) :: taken).map Job.status).IsChain JobStatus.Precedes :=
    List.isChain_map_of_isChain _ (fun a b h ↦ h.status) hchain
  have hlastStatus : ((({ id := job } : Job) :: taken).map Job.status).getLast?
      = some (l'.jobOrNew job).status := by
    rw [List.getLast?_map, hlast]
    rfl
  obtain ⟨rungs, hprefix, -, hrungs⟩ := JobStatus.exists_rungs hstatuses hlastStatus hended
  refine ⟨taken, htaken, hjob, hlast, hchain.imp fun a b h ↦ ⟨h.progress, h.log⟩, ?_, rungs,
    hprefix, hrungs⟩
  intro j hj
  rcases List.mem_cons.1 hj with rfl | hj
  · exact ⟨Int.le_refl 0, show (0 : Int) ≤ 100 by decide⟩
  · exact bounds_of_isChain hchain j hj

/-- **The career of a job.** A job that is new, or is not there yet, ends in one of two ways: there
is a navigation exactly when it completes, and otherwise it fails before its progress exceeds 90,
with an error as its last line. Its progress never goes back and stays within its bounds, its log
only grows, and without repetitions its statuses are the lower rungs of the ladder and a failure, or
the whole ladder. No progress is ever computed out of no documents. -/
theorem runJob_career (p : Pipeline) (job : String) (files : List SourceFile)
    (destination : Files.Path) (mode : Option String) (w : Works)
    (hnew : w.desk.ledger.jobOrNew job = { id := job }) :
    let ran := runJob p job files destination mode w
    let final := ran.2.desk.ledger.jobOrNew job
    (∃ taken, ran.2.desk.ledger.states job = w.desk.ledger.states job ++ taken ∧
      ran.2.desk.ledger.job? job = some final ∧
      ({ id := job } :: taken).getLast? = some final ∧
      ({ id := job } :: taken).IsChain (fun a b ↦ a.progress ≤ b.progress ∧ a.log <+: b.log) ∧
      (∀ j ∈ { id := job } :: taken, 0 ≤ j.progress ∧ j.progress ≤ 100) ∧
      ∃ rungs, rungs <+: JobStatus.ladder ∧
        (({ id := job } :: taken).map Job.status).destutter (· ≠ ·)
          = rungs ++ if rungs = JobStatus.ladder then [] else [.failed]) ∧
    (ran.1.isSome ↔ final.status = .completed ∧ final.progress = 100 ∧ final.step = "completed") ∧
    (ran.1 = none → final.status = .failed ∧ final.progress ≤ 90 ∧ final.step = "failed" ∧
      ∃ (l : Ledger) (reason : String),
        final.log.getLast? = some (l.stampedLine s!"ERROR: {reason}")) ∧
    (Run.stages p job ((Service.nonEmpty mode).getD p.mode) files destination
      (w.onLedger (·.ensure job))).1 ≠ .error .dividedByZero := by
  intro ran final
  have hstages := Run.ends_stages p ((Service.nonEmpty mode).getD p.mode) files destination
    (w := w.onLedger (·.ensure job)) (stands_ensure hnew)
  cases hresult : Run.stages p job ((Service.nonEmpty mode).getD p.mode) files destination
      (w.onLedger (·.ensure job)) with
  | mk made w' =>
    rw [hresult] at hstages
    cases made with
    | ok nav =>
      have hran : ran = (some nav, w') := by
        show runJob p job files destination mode w = _
        rw [runJob, hresult]
      have hfinal : final = w'.desk.ledger.jobOrNew job := by
        show ran.2.desk.ledger.jobOrNew job = _
        rw [hran]
      have hcompleted : Stands job w.desk.ledger w'.desk.ledger .completed 100 "completed" :=
        hstages
      have hstates := exists_states hnew hcompleted.leads (by rw [hcompleted.status_eq]; rfl)
      rw [hran, hfinal]
      refine ⟨hstates, iff_of_true rfl ⟨hcompleted.status_eq, hcompleted.progress_eq,
        hcompleted.step_eq⟩, ?_, ?_⟩
      · intro h
        cases h
      · intro h
        cases h
    | error fault =>
      obtain ⟨hfault, hopen⟩ := hstages
      have hran : ran = (none, w'.onLedger (Run.failFor job fault)) := by
        show runJob p job files destination mode w = _
        rw [runJob, hresult]
      have hfinal : final = (Run.failFor job fault w'.desk.ledger).jobOrNew job := by
        show ran.2.desk.ledger.jobOrNew job = _
        rw [hran]
        rfl
      obtain ⟨⟨progress, hle, hfailed⟩, hline⟩ := Run.failed_failFor hopen fault
      have hstates := exists_states hnew hfailed.leads (by rw [hfailed.status_eq]; rfl)
      rw [hran, hfinal]
      refine ⟨hstates, iff_of_false Bool.false_ne_true ?_, fun _ ↦ ⟨hfailed.status_eq, ?_,
        hfailed.step_eq, hline⟩, fun h ↦ hfault (Except.error.inj h)⟩
      · rintro ⟨hcompleted, -⟩
        rw [hfailed.status_eq] at hcompleted
        cases hcompleted
      · rw [hfailed.progress_eq]
        exact hle

/-- What a job works on before there is any. -/
def emptyWorks : Works where
  desk := { ledger := { clock := ⟨0⟩ }, gate := ⟨1.0, none⟩ }
  disk := { tree := .emptyFolder, here := [] }

/-- A pipeline with a service that knows nothing. -/
def mutePipeline : Pipeline where
  trees _ _ := .mk "module" true false false true none 0 0 0 0 []
  service _ _ := .ok ""

end Docwright
