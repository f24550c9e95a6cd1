import Docwright.Proofs.Cache.Snapshot
import Docwright.Proofs.Generation.Unavailable
import Docwright.Proofs.Outline.Batch
import Docwright.Proofs.Run.Stages
import Docwright.Proofs.Site.Quiet

/-!
# Jobs without the service

A job whose service is of no use at any of its units comes to its end all the same: there is a page
for every unit, made from the symbols of its files, and nothing is kept in the cache
(`runJob_outlined`).

Nothing stops such a job before it writes. The cache is empty, so every unit is asked about, and in
vain; that leaves the cache as it is, so the next unit finds it empty too (`Session.outlined`).

One such job is followed through from its creation to its end (`Outage.ran`).
-/

namespace Docwright

namespace Generation

open Service

variable {s : GenerationSettings} {service : ServiceBehaviour} {c c' : Cache} {turns : List Turn}
  {units : List Page.PageUnit} {r : Except Run.Fault (List Page.Document)}

/-- A unit about which the service is asked in vain: it has prompts, and no answer is of any use. -/
structure InVain (s : GenerationSettings) (service : ServiceBehaviour) (u : Page.PageUnit) :
    Prop where
  kind : u.kind = .group ∨ u.kind = .file
  unhelpful : Unhelpful s service u

/-- **Without the service calls that start from an empty cache all bring outlines**, and leave the
cache empty. -/
theorem Session.outlined (hbudget : s.maxAttempts ≤ 1000) (hempty : ∀ k, c.get? k = none)
    (hvain : ∀ t ∈ turns, InVain s service t.unit) (h : Session s service c turns c') :
    c' = c ∧ ∀ t ∈ turns, ∃ document, (t.result s service).1 = .ok document ∧
      Page.IsOutline t.unit document := by
  induction h with
  | nil c => exact ⟨rfl, fun t ht ↦ absurd ht List.not_mem_nil⟩
  | @cons t turns c c' hdesk _ ih =>
    obtain ⟨hfirst, hrest⟩ := List.forall_mem_cons.1 hvain
    obtain ⟨hmade, hcache⟩ := generate_of_unhelpful hbudget hfirst.unhelpful hfirst.kind t.job
      t.position (d := t.desk) (by rw [hdesk]; exact hempty _)
    replace hcache : (t.result s service).2.cache = c := hcache.trans hdesk
    rw [hcache] at ih
    obtain ⟨hlast, hall⟩ := ih hempty hrest
    exact ⟨hlast, List.forall_mem_cons.2 ⟨hmade, hall⟩⟩

/-- No unit is in the way of the others. -/
theorem Course.outlined (hbudget : s.maxAttempts ≤ 1000) (hempty : ∀ k, c.get? k = none)
    (hvain : ∀ u ∈ units, InVain s service u) (h : Course s service c units r c') :
    c' = c ∧ ∃ documents, r = .ok documents ∧ List.Forall₂ Page.IsOutline units documents := by
  cases h with
  | completed hsession hunits hmade =>
    subst hunits
    obtain ⟨hcache, hall⟩ := hsession.outlined hbudget hempty (List.forall_mem_map.1 hvain)
    refine ⟨hcache, _, rfl, List.forall₂_map_left_iff.2 ?_⟩
    refine (List.forall₂_and_left _ _).2 ⟨hall, hmade⟩ |>.imp ?_
    rintro t document ⟨⟨document', hdocument', houtline⟩, hdocument⟩
    cases hdocument'.symm.trans hdocument
    exact houtline
  | stopped hsession hunits hmade hdesk hfault =>
    subst hunits
    obtain ⟨hbefore, hnext⟩ := List.forall_mem_append.1 hvain
    obtain ⟨hcache, -⟩ := hsession.outlined hbudget hempty (List.forall_mem_map.1 hbefore)
    -- the unit at which the job would stop has an outline like any other
    have hone := Session.outlined hbudget (by rw [hdesk, hcache]; exact hempty)
      (List.forall_mem_singleton.2 (hnext _ List.mem_cons_self)) (.cons rfl (.nil _))
    obtain ⟨document, hdocument, -⟩ := hone.2 _ (List.mem_singleton_self _)
    rw [hfault] at hdocument
    cases hdocument

end Generation

namespace Run

open Ledger (GoesOn)

variable {p : Pipeline} {job : String} {documents : List Page.Document}
  {destination : Files.Path} {w : Works}

/-- **What writing comes to is what comes of the job**, when there is no snapshot to write. -/
theorem Finishes.of_clean {made : Except Crash Site.NavNode × Site.Workshop}
    {r : Except Fault Site.NavNode × Works} (h : Finishes job w made r)
    (hclean : w.desk.cache.dirty = false) :
    r.2.disk = made.2.disk ∧ r.2.desk.cache = w.desk.cache ∧
      ∀ nav, made.1 = .ok nav → r.1 = .ok nav ∧ (r.2.desk.ledger.jobOrNew job).status
        = ((w.desk.ledger.jobOrNew job).setStatus .completed).status := by
  cases h with
  | unwritten hmade hdisk hcache _ =>
    refine ⟨hdisk, hcache, fun nav hnav ↦ ?_⟩
    rw [hnav] at hmade
    cases hmade
  | unsaved _ hpersist _ _ =>
    rw [Cache.persist_of_clean hclean] at hpersist
    cases hpersist
  | completed hmade hpersist hgoesOn hlast =>
    rw [Cache.persist_of_clean hclean, Prod.mk.injEq, Except.ok.injEq] at hpersist
    obtain ⟨hcache, hdisk⟩ := hpersist
    refine ⟨hdisk.symm, hcache.symm, fun nav hnav ↦ ?_⟩
    rw [hnav] at hmade
    cases hmade
    refine ⟨rfl, ?_⟩
    -- the status that says where the job stands does not end it
    have hfinalizing : (((w.desk.ledger.setStatus job .finalizing).jobOrNew job).setStatus
        .completed).status = ((w.desk.ledger.jobOrNew job).setStatus .completed).status := by
      rw [Ledger.jobOrNew_setStatus]
      exact Job.status_setStatus_setStatus _ rfl .completed
    rw [hlast, ← hfinalizing, ← hgoesOn.status_setStatus]
    exact congrArg Job.status (Ledger.jobOrNew_setStatus _ job .completed)

/-- **Without the service a job comes to writing**, with an outline for every unit. -/
theorem Reaches.outlined {mode : String} {files : List SourceFile} {units : List Page.PageUnit}
    {r : Except Fault Site.NavNode × Works} (h : Reaches p job mode files destination w r)
    (hprepared : Prepared p mode files units) (hbudget : p.generation.maxAttempts ≤ 1000)
    (hempty : ∀ k, w.desk.cache.get? k = none)
    (hservice : ∀ u ∈ units, Generation.Unhelpful p.generation p.service u) :
    ∃ documents w', List.Forall₂ Page.IsOutline units documents ∧
      r = finish p job documents destination w' ∧ w'.disk = w.disk ∧
      w'.desk.cache = w.desk.cache ∧ GoesOn job w.desk.ledger w'.desk.ledger := by
  have hvain : ∀ u ∈ units, Generation.InVain p.generation p.service u := fun u hu ↦
    ⟨hprepared.kind hu, hservice u hu⟩
  cases h with
  | unprepared hnot => exact absurd hprepared (hnot units)
  | stopped hprepared' hdisk hgoesOn hcourse =>
    obtain rfl := hprepared.eq hprepared'
    obtain ⟨-, documents, hdocuments, -⟩ := hcourse.outlined hbudget hempty hvain
    cases hdocuments
  | finishing hprepared' hdisk hgoesOn hcourse =>
    obtain rfl := hprepared.eq hprepared'
    obtain ⟨hcache, documents, hdocuments, houtlines⟩ := hcourse.outlined hbudget hempty hvain
    cases hdocuments
    exact ⟨_, _, houtlines, rfl, hdisk, hcache, hgoesOn⟩

end Run

open Ledger (GoesOn)

/-- What a job without the service comes to: it writes an outline for every unit, with the cache as
it was, and what writing comes to is what comes of the job. -/
theorem Run.exists_shop_runJob (p : Pipeline) (job : String) (files : List SourceFile)
    (destination : Files.Path) (mode : Option String) (w : Works) {units : List Page.PageUnit}
    (hprepared : Run.Prepared p ((Service.nonEmpty mode).getD p.mode) files units)
    (hstyle : (Site.SidebarStyle.ofName? p.sidebar).isSome = true)
    (hbudget : p.generation.maxAttempts ≤ 1000)
    (hempty : w.desk.cache.entries = []) (hclean : w.desk.cache.dirty = false)
    (hservice : ∀ u ∈ units, Generation.Unhelpful p.generation p.service u) :
    let ran := runJob p job files destination mode w
    ran.2.desk.cache = w.desk.cache ∧
      ∃ documents shop, List.Forall₂ Page.IsOutline units documents ∧ shop.disk = w.disk ∧
        let made := Site.materialize p.sidebar documents destination (some job) Site.landingLabel
          shop
        ran.2.disk = made.2.disk ∧ (Site.Smooth shop made →
          (∃ nav, made.1 = .ok nav ∧ ran.1 = some nav) ∧
            (ran.2.desk.ledger.jobOrNew job).status
              = ((w.desk.ledger.jobOrNew job).setStatus .completed).status ∧
            Site.Delivers destination (some job) documents shop ran.2.disk) := by
  intro ran
  have hmiss : ∀ k, w.desk.cache.get? k = none := fun k ↦ by
    rw [Cache.get?, hempty]
    rfl
  have hensure : GoesOn job w.desk.ledger (w.onLedger (·.ensure job)).desk.ledger := .ensure job _
  obtain ⟨documents, w', houtlined, hfinish, hdisk, hcache, hgoesOn⟩ :=
    (Run.reaches_stages p job ((Service.nonEmpty mode).getD p.mode) files destination
      (w.onLedger (·.ensure job))).outlined hprepared hbudget hmiss hservice
  obtain ⟨hwritten, hkept, hnav⟩ := (Run.finishes_finish p job documents destination w').of_clean
    (by rw [hcache]; exact hclean)
  obtain ⟨hdiskRan, hcacheRan⟩ := runJob_works p job files destination mode w
  rw [hfinish] at hdiskRan hcacheRan
  refine ⟨hcacheRan.trans (hkept.trans hcache), documents, Run.openShop job destination w',
    houtlined, hdisk, hdiskRan.trans hwritten, fun hsmooth ↦ ?_⟩
  obtain ⟨nav, hmade⟩ := Site.exists_nav_of_smooth hstyle hsmooth
  obtain ⟨hresult, hstatus⟩ := hnav nav hmade
  have hran : ran = (some nav, (Run.finish p job documents destination w').2) :=
    runJob_of_ok (hfinish.trans (Prod.ext hresult rfl))
  rw [hran]
  refine ⟨⟨nav, hmade, rfl⟩, hstatus.trans ((hensure.trans hgoesOn).status_setStatus _), ?_⟩
  rw [hwritten]
  exact Site.delivers_of_smooth hsmooth

/-- **Without the service a job comes to its end with a page for every unit.** When some file has an
outline, the cache is empty and no answer of the service about a unit is of any use, then there is
one document for every group or, in the other mode, for every file of one; each is made from the
symbols of its files and names all of them between ticks, and every file with an outline is covered
by one of them. The cache stays as it was. If every write succeeds the job is completed, unless it
was over before, and the documents are the pages that were written. -/
theorem runJob_outlined (p : Pipeline) (job : String) (files : List SourceFile)
    (destination : Files.Path) (mode : Option String) (w : Works) {outlines : List Outline}
    {units : List Page.PageUnit}
    (hmode : (Service.nonEmpty mode).getD p.mode ∈ generationModes)
    (hstyle : (Site.SidebarStyle.ofName? p.sidebar).isSome = true)
    (hbudget : p.generation.maxAttempts ≤ 1000)
    (houtlines : (Outline.outline p.trees (Source.documentable files)).2 = .ok outlines)
    (hne : outlines ≠ [])
    (hunits : units = Run.unitsOf ((Service.nonEmpty mode).getD p.mode) files
      (Feature.groups Feature.standardTable outlines))
    (hempty : w.desk.cache.entries = []) (hclean : w.desk.cache.dirty = false)
    (hservice : ∀ u ∈ units, Generation.Unhelpful p.generation p.service u) :
    let ran := runJob p job files destination mode w
    let groups := Feature.groups Feature.standardTable outlines
    Feature.IsGrouping Feature.standardTable outlines groups ∧
      (units.map fun u ↦ (u.category, u.outlines))
        = Feature.shares ((Service.nonEmpty mode).getD p.mode) groups ∧
      (∀ u ∈ units, u.files = u.outlines.map Outline.path) ∧
      (units.flatMap (·.outlines)).Perm outlines ∧
      ran.2.desk.cache = w.desk.cache ∧
      ∃ documents shop, List.Forall₂ Page.IsOutline units documents ∧ shop.disk = w.disk ∧
        let made := Site.materialize p.sidebar documents destination (some job) Site.landingLabel
          shop
        ran.2.disk = made.2.disk ∧ (Site.Smooth shop made →
          (∃ nav, made.1 = .ok nav ∧ ran.1 = some nav) ∧
            (ran.2.desk.ledger.jobOrNew job).status
              = ((w.desk.ledger.jobOrNew job).setStatus .completed).status ∧
            Site.Delivers destination (some job) documents shop ran.2.disk) := by
  intro ran groups
  have hprepared : Run.Prepared p ((Service.nonEmpty mode).getD p.mode) files units :=
    ⟨hmode, outlines, houtlines, hne, hunits⟩
  refine ⟨Feature.groups_isGrouping _ outlines, ?_, ?_, ?_,
    Run.exists_shop_runJob p job files destination mode w hprepared hstyle hbudget hempty hclean
      hservice⟩
  · rw [hunits]
    exact Feature.unitsOf_shares _ files _
  · rw [hunits]
    exact (Feature.unitsOf_takesOver _ files _).files
  · rw [hunits]
    exact Feature.unitsOf_perm _ _ files outlines

/-! ### A service that is down -/

namespace Outage

open Service Site

/-- A service that is down, and says now and then that it was asked too often. -/
def service : ServiceBehaviour := fun n _ ↦
  .error (if n % 2 = 0 then .transient "down" none else .rateLimited "slow down" none)

/-- A pipeline with that service. -/
def pipeline : Pipeline where
  trees := Outline.Unisolated.treesOf
  service := service

/-- The unit of the only feature of a file with a function. -/
def onlyUnit : Page.PageUnit := .ofGroup "Other" [Outline.Unisolated.outlined]

theorem unhelpful_service (s : GenerationSettings) (u : Page.PageUnit) :
    Generation.Unhelpful s service u := fun _ _ _ n ↦ by
  refine .inl ⟨_, rfl, ?_⟩
  split <;> rfl

theorem outline_named :
    (Outline.outline pipeline.trees (Source.documentable [Outline.Unisolated.named])).2
      = .ok [Outline.Unisolated.outlined] := by
  have hfile := Outline.Unisolated.outlineFile_named
  rw [show Source.documentable [Outline.Unisolated.named] = [Outline.Unisolated.named] from rfl,
    Outline.outline_singleton, show pipeline.trees = Outline.Unisolated.treesOf from rfl, hfile]
  rfl

theorem unitsOf_named :
    Run.unitsOf ((nonEmpty none).getD pipeline.mode) [Outline.Unisolated.named]
      (Feature.groups Feature.standardTable [Outline.Unisolated.outlined]) = [onlyUnit] := by
  have hof : Feature.of Feature.standardTable Outline.Unisolated.outlined = "Other" := by
    decide +kernel
  have hgroups : Feature.groups Feature.standardTable [Outline.Unisolated.outlined]
      = [("Other", [Outline.Unisolated.outlined])] := by
    simp only [Feature.groups, List.filter_cons, List.filter_nil, hof]
    rfl
  rw [hgroups]
  rfl

/-- What is made of the unit alone is one page. -/
theorem exists_page {documents : List Page.Document}
    (h : List.Forall₂ Page.IsOutline [onlyUnit] documents) :
    ∃ d, documents = [d] ∧ Page.IsOutline onlyUnit d := by
  obtain ⟨d, rest, houtline, hrest, rfl⟩ := List.forall₂_cons_left_iff.1 h
  obtain rfl := List.forall₂_nil_left_iff.1 hrest
  exact ⟨d, rfl, houtline⟩

/-- The page of the unit is `other/other.md`. -/
theorem placements_onlyUnit {d : Page.Document} (h : Page.IsOutline onlyUnit d) :
    categorySlug d.category = "other" ∧ freeId (fileId d.id) [] = "other" := by
  obtain ⟨reason, position, rfl⟩ := h.made
  show categorySlug onlyUnit.category = "other" ∧ freeId (fileId onlyUnit.pageId) [] = "other"
  decide +kernel

/-- Writing it into an empty folder meets no resistance. -/
theorem smooth_onlyUnit {shop : Workshop} (hshop : shop.disk = emptyWorks.disk)
    {d : Page.Document} (h : Page.IsOutline onlyUnit d) :
    Smooth shop (materialize "json" [d] ⟨false, ["site"]⟩ (some "job") landingLabel shop) := by
  obtain ⟨hslug, hid⟩ := placements_onlyUnit h
  have hvacant : Vacant shop.disk ⟨false, ["site"]⟩ := by
    rw [hshop]
    exact ⟨_, makeFolders_site rfl, members_emptySite _⟩
  refine smooth_of_fits hvacant (fun place ↦ by rw [hshop]; rfl) "json" [d] ?_ _ _
  rw [freshNames_singleton "json" d hslug hid]
  decide +kernel

/-- The run of a job for the file. -/
def ran : Option NavNode × Works :=
  runJob pipeline "job" [Outline.Unisolated.named] ⟨false, ["site"]⟩ none emptyWorks

theorem ran_eq :
    ran = runJob pipeline "job" [Outline.Unisolated.named] ⟨false, ["site"]⟩ none emptyWorks :=
  rfl

/-- The job is completed with one page, which names the function. -/
theorem runJob_outlined_outage :
    (∀ u, Generation.Unhelpful pipeline.generation pipeline.service u) ∧
      (ran.2.desk.ledger.jobOrNew "job").status = .completed ∧ (∃ nav, ran.1 = some nav) ∧
      ran.2.desk.cache = {} ∧ ∃ d, Page.IsOutline onlyUnit d ∧
        (Page.Fallback.ticked "f").toList <:+: d.body.toList ∧
        ran.2.disk.read ⟨false, ["site", "other", "other.md"]⟩
          = .ok (Text.Utf8.ofString (pageText "other" d)) := by
  obtain ⟨-, -, -, -, hcache, documents, shop, houtlines, hshop, -, hrun⟩ := runJob_outlined
    pipeline "job" [Outline.Unisolated.named] ⟨false, ["site"]⟩ none emptyWorks List.mem_cons_self
    rfl (by decide) outline_named (List.cons_ne_nil _ _) unitsOf_named.symm rfl rfl
    (fun u _ ↦ unhelpful_service _ u)
  obtain ⟨d, rfl, houtline⟩ := exists_page houtlines
  obtain ⟨⟨nav, -, hnav⟩, hstatus, hdelivers⟩ := hrun (smooth_onlyUnit hshop houtline)
  obtain ⟨hslug, hid⟩ := placements_onlyUnit houtline
  have hready : Ready shop.disk ⟨false, ["site"]⟩ := by
    rw [hshop]
    exact Vacant.ready ⟨_, makeFolders_site rfl, members_emptySite _⟩
  refine ⟨unhelpful_service _, hstatus, ⟨nav, hnav⟩, hcache, d, houtline, ?_, ?_⟩
  · exact houtline.names Outline.Unisolated.outlined List.mem_cons_self "f" (by decide)
  · refine hdelivers.found hready ⟨d, "other", "other"⟩ ?_
    rw [placements_singleton hslug hid]
    exact List.mem_singleton_self _

theorem prepared_onlyUnit : Run.Prepared pipeline ((nonEmpty none).getD pipeline.mode)
    [Outline.Unisolated.named] [onlyUnit] :=
  ⟨List.mem_cons_self, _, outline_named, List.cons_ne_nil _ _, unitsOf_named.symm⟩

/-- There is a navigation in the end. -/
theorem isSome_ran : ran.1.isSome := by
  obtain ⟨-, documents, shop, houtlines, hshop, -, hrun⟩ := Run.exists_shop_runJob pipeline "job"
    [Outline.Unisolated.named] ⟨false, ["site"]⟩ none emptyWorks prepared_onlyUnit rfl (by decide)
    rfl rfl (fun u _ ↦ unhelpful_service _ u)
  obtain ⟨d, rfl, houtline⟩ := exists_page houtlines
  obtain ⟨⟨nav, -, hnav⟩, -⟩ := hrun (smooth_onlyUnit hshop houtline)
  rw [ran_eq]
  exact Option.isSome_iff_exists.2 ⟨nav, hnav⟩

/-- The job climbs the whole ladder, though every call to the service fails. -/
theorem runJob_career_outage :
    emptyWorks.desk.ledger.jobOrNew "job" = { id := "job" } ∧ ran.1.isSome ∧
      (ran.2.desk.ledger.jobOrNew "job").status = .completed ∧
      (ran.2.desk.ledger.jobOrNew "job").progress = 100 ∧
      (ran.2.desk.ledger.jobOrNew "job").step = "completed" ∧
      ∃ taken, ran.2.desk.ledger.states "job" = taken ∧
        ({ id := "job" } :: taken).IsChain (fun a b ↦ a.progress ≤ b.progress ∧ a.log <+: b.log) ∧
        (({ id := "job" } :: taken).map Job.status).destutter (· ≠ ·) = JobStatus.ladder := by
  have hnew : emptyWorks.desk.ledger.jobOrNew "job" = { id := "job" } := rfl
  have hsome := isSome_ran
  rw [ran_eq] at hsome ⊢
  obtain ⟨⟨taken, htaken, -, hlast, hchain, -, rungs, -, hrungs⟩, hends, -⟩ :=
    runJob_career pipeline "job" [Outline.Unisolated.named] ⟨false, ["site"]⟩ none emptyWorks hnew
  obtain ⟨hstatus, hprogress, hstep⟩ := hends.1 hsome
  refine ⟨hnew, hsome, hstatus, hprogress, hstep, taken, htaken, hchain, ?_⟩
  have hcompleted : ((({ id := "job" } : Job) :: taken).map Job.status).getLast?
      = some .completed := by
    rw [List.getLast?_map, hlast, Option.map_some, hstatus]
  exact JobStatus.destutter_eq_ladder hcompleted hrungs

end Outage

end Docwright
