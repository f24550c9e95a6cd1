import Docwright.Proofs.Feature.Groups
import Docwright.Proofs.Generation.Session
import Docwright.Proofs.Job.Growth
import Docwright.Proofs.Run.Career

/-!
# The stages of a job

`Run.reaches_stages` says how far a job comes: it never comes to generating, it is stopped at a
unit, or it has a document for every unit and goes on to write the site. Until then the disk is left
alone and the job goes on. What comes of a job that writes is one of three things
(`Run.finishes_finish`).

All that is proved about whole jobs is read off these two, so no other proof opens a stage.
-/

namespace Docwright

namespace Run

open Generation (Turn Session Course)
open Ledger (GoesOn)

variable {p : Pipeline} {job mode : String} {files : List SourceFile} {w : Works}

/-- A job with these files comes to generating, and these are its units. -/
def Prepared (p : Pipeline) (mode : String) (files : List SourceFile)
    (units : List Page.PageUnit) : Prop :=
  mode ∈ generationModes ∧ ∃ outlines,
    (Outline.outline p.trees (Source.documentable files)).2 = .ok outlines ∧ outlines ≠ [] ∧
      units = unitsOf mode files (Feature.groups Feature.standardTable outlines)

/-- The units of a job hold the outlines of its files, each once. -/
theorem Prepared.perm {units : List Page.PageUnit} (h : Prepared p mode files units) :
    ∃ outlines, (Outline.outline p.trees (Source.documentable files)).2 = .ok outlines ∧
      outlines ≠ [] ∧ (units.flatMap (·.outlines)).Perm outlines := by
  obtain ⟨-, outlines, houtlines, hne, rfl⟩ := h
  exact ⟨outlines, houtlines, hne, Feature.unitsOf_perm _ mode files outlines⟩

/-- There is a full prompt for every unit of a job. -/
theorem Prepared.kind {units : List Page.PageUnit} (h : Prepared p mode files units)
    {u : Page.PageUnit} (hu : u ∈ units) : u.kind = .group ∨ u.kind = .file := by
  obtain ⟨-, outlines, -, -, rfl⟩ := h
  exact Feature.kind_of_mem_unitsOf hu

theorem Prepared.ne_nil {units : List Page.PageUnit} (h : Prepared p mode files units) :
    units ≠ [] := by
  rintro rfl
  obtain ⟨outlines, -, hne, hperm⟩ := h.perm
  exact hne hperm.nil_eq.symm

/-- The units of a job are settled by its files. -/
theorem Prepared.eq {units units' : List Page.PageUnit}
    (h : Prepared p mode files units) (h' : Prepared p mode files units') : units = units' := by
  obtain ⟨-, outlines, houtlines, -, rfl⟩ := h
  obtain ⟨-, outlines', houtlines', -, rfl⟩ := h'
  rw [houtlines] at houtlines'
  cases houtlines'
  rfl

/-- **Preparing** leaves the disk and the cache alone, and comes to the units of the job exactly
when some file has an outline. -/
theorem prepare_spec (p : Pipeline) (job mode : String) (files : List SourceFile) (w : Works) :
    let prepared := prepare p job mode files w
    prepared.2.disk = w.disk ∧ prepared.2.desk.cache = w.desk.cache ∧
      GoesOn job w.desk.ledger prepared.2.desk.ledger ∧
      ∀ units, prepared.1 = .ok units ↔ ∃ outlines,
        (Outline.outline p.trees (Source.documentable files)).2 = .ok outlines ∧ outlines ≠ [] ∧
          units = unitsOf mode files (Feature.groups Feature.standardTable outlines) := by
  have hstart (message : String) : GoesOn job w.desk.ledger
      ((w.desk.ledger.setStatus job .initializing).append job message (some 5)
        (some "initializing")) :=
    ((GoesOn.refl job _).setStatus rfl (by decide)).append message _ _
  have hanalyzing {l : Ledger} (hl : GoesOn job w.desk.ledger l) (log log' : Log)
      (message : String) : GoesOn job w.desk.ledger
        ((((l.setStatus job .analyzing).record log).append job message (some 15)
          (some "analyzing")).record log') :=
    (((hl.setStatus rfl (by decide)).record log).append message _ _).record log'
  have hgenerating {l : Ledger} (hl : GoesOn job w.desk.ledger l) (log : Log)
      (message message' message'' : String) : GoesOn job w.desk.ledger
        ((((((l.append job message (some 20) (some "analyzing")).record log).append job message'
          (some 25) (some "classifying"))).setStatus job .generating).append job message''
          (some generationStart) (some "generating")) :=
    ((((hl.append message _ _).record log).append message' _ _).setStatus rfl (by decide)).append
      message'' _ _
  intro prepared
  simp only [prepared, prepare, Works.onLedger]
  split
  · rename_i hfiles
    refine ⟨rfl, rfl, hstart _, fun units ↦ ⟨fun h ↦ (by cases h), ?_⟩⟩
    rintro ⟨outlines, houtlines, hne, -⟩
    rw [List.isEmpty_iff.1 hfiles] at houtlines
    exact absurd (Except.ok.inj houtlines).symm hne
  · split
    · rename_i hfault
      refine ⟨rfl, rfl, hanalyzing (hstart _) _ _ _, fun units ↦ ⟨fun h ↦ (by cases h), ?_⟩⟩
      rintro ⟨outlines, houtlines, -⟩
      rw [hfault] at houtlines
      cases houtlines
    · rename_i outlines houtlines
      split
      · rename_i hempty
        refine ⟨rfl, rfl, hanalyzing (hstart _) _ _ _, fun units ↦ ⟨fun h ↦ (by cases h), ?_⟩⟩
        rintro ⟨outlines', houtlines', hne, -⟩
        rw [houtlines] at houtlines'
        cases houtlines'
        exact absurd (List.isEmpty_iff.1 hempty) hne
      · rename_i hne
        refine ⟨rfl, rfl, hgenerating (hanalyzing (hstart _) _ _ _) _ _ _ _, fun units ↦ ⟨?_, ?_⟩⟩
        · intro h
          exact ⟨outlines, houtlines, by simpa using hne, (Except.ok.inj h).symm⟩
        · rintro ⟨outlines', houtlines', -, rfl⟩
          rw [houtlines] at houtlines'
          cases houtlines'
          rfl

/-- **Generating** leaves the disk alone, and takes its course whatever the service does. The
induction is on the units that are left. -/
theorem generateAll_spec (p : Pipeline) (job : String) {all done : Nat}
    {units : List Page.PageUnit} (hall : done + units.length = all) (w : Works) :
    let generated := generateAll p job all done units w
    generated.2.disk = w.disk ∧ GoesOn job w.desk.ledger generated.2.desk.ledger ∧
      Course p.generation p.service w.desk.cache units generated.1 generated.2.desk.cache := by
  intro generated
  induction units generalizing done w with
  | nil => exact ⟨rfl, .refl job _, .completed (.nil _) rfl .nil⟩
  | cons u rest ih =>
    rw [List.length_cons] at hall
    have hpos : all ≠ 0 := by omega
    have hchats := (GoesOn.refl job w.desk.ledger).chats
      (Generation.chats_generate p.generation p.service (some job) (done + 2) u w.desk)
    let t : Turn := ⟨some job, done + 2, u, w.desk⟩
    have hresult : t.result p.generation p.service
        = Generation.generate p.generation p.service (some job) (done + 2) u w.desk := rfl
    simp only [generated, generateAll]
    split
    · rename_i fault desk heq
      rw [heq] at hchats hresult
      have hcache := Turn.cache_of_error (congrArg Prod.fst hresult)
      rw [hresult] at hcache
      have hsession : Session p.generation p.service w.desk.cache [] desk.cache := by
        rw [hcache]
        exact .nil _
      exact ⟨rfl, hchats, .stopped (t := t) hsession rfl (fun x hx ↦ absurd hx List.not_mem_nil)
        hcache.symm (congrArg Prod.fst hresult)⟩
    · rename_i document desk heq
      rw [heq] at hchats hresult
      have hmade : (t.result p.generation p.service).1 = .ok document := congrArg Prod.fst hresult
      rw [progressAfter?_eq hpos]
      simp only
      generalize hw' : Works.onLedger _ _ = w'
      obtain ⟨hdisk, hgoesOn, hcourse⟩ := ih (show done + 1 + rest.length = all by omega) w'
      have hcache : w'.desk.cache = (t.result p.generation p.service).2.cache := by
        rw [hresult, ← hw']
        rfl
      rw [hcache] at hcourse
      have hnext := hcourse.cons hmade
      replace hdisk : _ = w.disk := hdisk.trans (by rw [← hw']; rfl)
      replace hgoesOn : GoesOn job w.desk.ledger _ :=
        GoesOn.trans (by rw [← hw']; exact hchats.append _ _ _) hgoesOn
      split
      · rename_i heq'
        rw [heq'] at hnext hdisk hgoesOn
        exact ⟨hdisk, hgoesOn, hnext⟩
      · rename_i heq'
        rw [heq'] at hnext hdisk hgoesOn
        exact ⟨hdisk, hgoesOn, hnext⟩

/-- What the site is written with once the job has said that it comes to that. -/
def openShop (job : String) (destination : Files.Path) (w : Works) : Site.Workshop :=
  ⟨w.disk, (w.desk.ledger.setStatus job .finalizing).append job
    s!"Writing documentation to {destination.text}" (some 80) (some "finalizing")⟩

/-- How a job ends that has come to writing, by what has become of the site: the site is not
written, the snapshot of the cache is not, or both are. -/
inductive Finishes (job : String) (w : Works) (made : Except Crash Site.NavNode × Site.Workshop) :
    Except Fault Site.NavNode × Works → Prop
  | unwritten {crash : Crash} {w' : Works} (hmade : made.1 = .error crash)
    (hdisk : w'.disk = made.2.disk) (hcache : w'.desk.cache = w.desk.cache)
    (hgoesOn : GoesOn job (w.desk.ledger.setStatus job .finalizing) w'.desk.ledger) :
    Finishes job w made (.error (.crashed crash), w')
  | unsaved {nav : Site.NavNode} {e : Files.FileError} {w' : Works} (hmade : made.1 = .ok nav)
    (hpersist : w.desk.cache.persist made.2.disk = (.error e, w'.disk))
    (hcache : w'.desk.cache = w.desk.cache)
    (hgoesOn : GoesOn job (w.desk.ledger.setStatus job .finalizing) w'.desk.ledger) :
    Finishes job w made (.error (.crashed (.file e)), w')
  | completed {nav : Site.NavNode} {w' : Works} {l : Ledger} {log : Log}
    (hmade : made.1 = .ok nav)
    (hpersist : w.desk.cache.persist made.2.disk = (.ok w'.desk.cache, w'.disk))
    (hgoesOn : GoesOn job (w.desk.ledger.setStatus job .finalizing) l)
    (hlast : w'.desk.ledger = (l.setStatus job .completed).record log) :
    Finishes job w made (.ok nav, w')

/-- **Every job that comes to writing ends like that.** -/
theorem finishes_finish (p : Pipeline) (job : String) (documents : List Page.Document)
    (destination : Files.Path) (w : Works) :
    Finishes job w (Site.materialize p.sidebar documents destination (some job) Site.landingLabel
      (openShop job destination w)) (finish p job documents destination w) := by
  have hwritten := ((GoesOn.refl job (w.desk.ledger.setStatus job .finalizing)).append
    s!"Writing documentation to {destination.text}" (some 80) (some "finalizing")).chats
    (Site.chats_materialize p.sidebar documents destination (some job) Site.landingLabel
      (openShop job destination w))
  simp only [finish, Works.onLedger]
  rw [show Site.Workshop.mk w.disk _ = openShop job destination w from rfl]
  generalize Site.materialize p.sidebar documents destination (some job) Site.landingLabel
    (openShop job destination w) = made at hwritten ⊢
  obtain ⟨result, shop⟩ := made
  cases result with
  | error crash => exact .unwritten rfl rfl rfl hwritten
  | ok nav =>
    cases hpersist : w.desk.cache.persist shop.disk with
    | mk saved disk =>
      simp only [persistCache, hpersist]
      cases saved with
      | error e => exact .unsaved rfl hpersist rfl hwritten
      | ok cache => exact .completed rfl hpersist ((hwritten.append _ _ _).append _ _ _) rfl

/-- How far a job comes. -/
inductive Reaches (p : Pipeline) (job mode : String) (files : List SourceFile)
    (destination : Files.Path) (w : Works) : Except Fault Site.NavNode × Works → Prop
  /-- It does not come to generating. -/
  | unprepared {fault : Fault} {w' : Works} (hnot : ∀ units, ¬Prepared p mode files units)
    (hdisk : w'.disk = w.disk) (hcache : w'.desk.cache = w.desk.cache)
    (hgoesOn : GoesOn job w.desk.ledger w'.desk.ledger) :
    Reaches p job mode files destination w (.error fault, w')
  /-- It is stopped at a unit. -/
  | stopped {units : List Page.PageUnit} {fault : Fault} {w' : Works}
    (hprepared : Prepared p mode files units) (hdisk : w'.disk = w.disk)
    (hgoesOn : GoesOn job w.desk.ledger w'.desk.ledger)
    (hcourse : Course p.generation p.service w.desk.cache units (.error fault) w'.desk.cache) :
    Reaches p job mode files destination w (.error fault, w')
  /-- It has a document for every unit and goes on to write the site. -/
  | finishing {units : List Page.PageUnit} {documents : List Page.Document} {w' : Works}
    (hprepared : Prepared p mode files units) (hdisk : w'.disk = w.disk)
    (hgoesOn : GoesOn job w.desk.ledger w'.desk.ledger)
    (hcourse : Course p.generation p.service w.desk.cache units (.ok documents) w'.desk.cache) :
    Reaches p job mode files destination w (finish p job documents destination w')

/-- **Every job comes as far as one of these.** -/
theorem reaches_stages (p : Pipeline) (job mode : String) (files : List SourceFile)
    (destination : Files.Path) (w : Works) :
    Reaches p job mode files destination w (stages p job mode files destination w) := by
  rw [stages]
  split
  · rename_i hmode
    exact .unprepared (fun units h ↦ by simp [h.1] at hmode) rfl rfl (.refl job _)
  · rename_i hmode
    have hmode : mode ∈ generationModes := by simpa using hmode
    obtain ⟨hdisk, hcache, hgoesOn, hunits⟩ := prepare_spec p job mode files w
    split
    · rename_i fault w₁ heq
      rw [heq] at hdisk hcache hgoesOn hunits
      refine .unprepared (fun units h ↦ ?_) hdisk hcache hgoesOn
      cases (hunits units).2 h.2
    · rename_i units w₁ heq
      rw [heq] at hdisk hcache hgoesOn hunits
      have hprepared : Prepared p mode files units := ⟨hmode, (hunits units).1 rfl⟩
      obtain ⟨hdisk₂, hgoesOn₂, hcourse⟩ := generateAll_spec p job (Nat.zero_add units.length) w₁
      replace hdisk₂ := hdisk₂.trans hdisk
      replace hgoesOn₂ := hgoesOn.trans hgoesOn₂
      simp only at hcache
      rw [hcache] at hcourse
      split
      · rename_i heq'
        rw [heq'] at hdisk₂ hgoesOn₂ hcourse
        exact .stopped hprepared hdisk₂ hgoesOn₂ hcourse
      · rename_i heq'
        rw [heq'] at hdisk₂ hgoesOn₂ hcourse
        exact .finishing hprepared hdisk₂ hgoesOn₂ hcourse

end Run

variable {p : Pipeline} {job : String} {files : List SourceFile} {destination : Files.Path}
  {mode : Option String} {w w' : Works}

/-- A run ends with what its stages come to, and a job whose stages fail is failed for that. -/
theorem runJob_of_error {fault : Run.Fault}
    (h : Run.stages p job ((Service.nonEmpty mode).getD p.mode) files destination
      (w.onLedger (·.ensure job)) = (.error fault, w')) :
    runJob p job files destination mode w = (none, w'.onLedger (Run.failFor job fault)) := by
  rw [runJob, h]

theorem runJob_of_ok {nav : Site.NavNode}
    (h : Run.stages p job ((Service.nonEmpty mode).getD p.mode) files destination
      (w.onLedger (·.ensure job)) = (.ok nav, w')) :
    runJob p job files destination mode w = (some nav, w') := by
  rw [runJob, h]

/-- The disk and the cache are as the stages leave them, however the job ends. -/
theorem runJob_works (p : Pipeline) (job : String) (files : List SourceFile)
    (destination : Files.Path) (mode : Option String) (w : Works) :
    let ran := runJob p job files destination mode w
    let stages := Run.stages p job ((Service.nonEmpty mode).getD p.mode) files destination
      (w.onLedger (·.ensure job))
    ran.2.disk = stages.2.disk ∧ ran.2.desk.cache = stages.2.desk.cache := by
  intro ran stages
  cases hstages : stages with
  | mk result w' =>
    cases result with
    | ok nav =>
      rw [show ran = _ from runJob_of_ok hstages]
      exact ⟨rfl, rfl⟩
    | error fault =>
      rw [show ran = _ from runJob_of_error hstages]
      exact ⟨rfl, rfl⟩

end Docwright
