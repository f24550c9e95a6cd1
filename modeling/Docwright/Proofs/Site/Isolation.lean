import Docwright.Proofs.Site.Overview
import Docwright.Proofs.Site.Vacant

/-!
# Failures stay with their pages

A page that cannot be written is left out, and nothing else changes. `failures_isolated` compares a
run with one in which nothing fails: it comes to its end as well, the pages that it writes are found
by the same paths with the same bytes, and its overview lists exactly these.

Which pages can be written is decided before the first one is, so an earlier failure does not bring
about a later one. Names are given to all pages, written or not, so none moves up. And after the
pages only an index page whose name is too long can end the run (`Bare.finish_cases`), of which the
run in which nothing fails has none.
-/

namespace Docwright.Site

open Files Page

namespace Bare

variable {g : Ground} {s : Entry} {style : String}

theorem forall_mem_titlesOf (P : String → Prop) {pages : List Written} :
    (∀ c ∈ titlesOf pages, P c.1) ↔ ∀ p ∈ pages, P p.slug := by
  refine ⟨fun h p hp ↦ ?_, fun h c hc ↦ ?_⟩
  · obtain ⟨c, hc, hslug⟩ := List.mem_map.1 (mem_slugsOf.2 (List.mem_map_of_mem hp))
    exact hslug ▸ h c hc
  · obtain ⟨p, hp, rfl⟩ := exists_of_mem_titlesOf hc
    exact h p hp

/-- Index pages are looked at one after the other as long as their names fit. -/
theorem indexes_fst_eq_ok_iff {titles : List (String × String)} :
    (indexes g s titles).1 = .ok () ↔ ∀ c ∈ titles, g.fits (indexNames c.1) = true := by
  induction titles generalizing s with
  | nil => simp [indexes]
  | cons category rest ih =>
    rw [List.forall_mem_cons, indexes, index]
    by_cases hfits : g.fits (indexNames category.1) = true
    · rw [if_pos hfits, and_iff_right hfits]
      exact ih
    · rw [if_neg hfits]
      simp [hfits]

/-- **What comes after the pages comes to its end exactly where the names of all index pages
fit.** -/
theorem finish_cases (hstyle : (SidebarStyle.ofName? style).isSome = true) (title : String)
    (written : List Written) (s : Entry) :
    ((∀ p ∈ written, g.fits (indexNames p.slug) = true) ∧
        ∃ nav, (finish g style title written s).1 = .ok nav) ∨
      ((¬∀ p ∈ written, g.fits (indexNames p.slug) = true) ∧
        ∃ e, (finish g style title written s).1 = .error (.file e)) := by
  obtain ⟨form, hform⟩ := Option.isSome_iff_exists.1 hstyle
  rw [← forall_mem_titlesOf fun slug ↦ g.fits (indexNames slug) = true,
    ← indexes_fst_eq_ok_iff (s := s), finish, landings]
  cases hindexes : indexes g s (titlesOf written) with
  | mk r s' =>
    cases r with
    | error e => exact .inr ⟨by simp, e, rfl⟩
    | ok => exact .inl ⟨rfl, by simp only [sidebars, hform]; exact ⟨_, rfl⟩⟩

/-- **The whole run comes to its end exactly where the names of the index pages fit** that belong to
pages that can be written. -/
theorem run_cases {pages : List Written} (hs : Tidy s) (hnamed : ∀ p ∈ pages, p.Named)
    (hnodup : (pages.map Written.names).Nodup)
    (hstyle : (SidebarStyle.ofName? style).isSome = true) (title : String) :
    ((∀ p ∈ pages.filter (shelves g s), g.fits (indexNames p.slug) = true) ∧
        ∃ nav, (run g style title pages s).1 = .ok nav) ∨
      ((¬∀ p ∈ pages.filter (shelves g s), g.fits (indexNames p.slug) = true) ∧
        ∃ e, (run g style title pages s).1 = .error (.file e)) := by
  obtain ⟨s1, hshelf, -⟩ := shelveAll_eq (g := g) hs hnamed hnodup
  rw [run, hshelf]
  exact finish_cases hstyle title _ s1

/-- **The overview of the pages that were written is there in the end**, where it is granted. -/
theorem get?_overview {pages : List Written} (hs : Tidy s) (hnamed : ∀ p ∈ pages, p.Named)
    (hnodup : (pages.map Written.names).Nodup) {title : String}
    (hok : ∃ nav, (run g style title pages s).1 = .ok nav)
    (hgrants : g.grants s [pageFileName overviewId] = true) :
    (run g style title pages s).2.get? [pageFileName overviewId]
      = some (.file (Text.Utf8.ofString (overviewText title (pages.filter (shelves g s))
        (titlesOf (pages.filter (shelves g s)))))) := by
  obtain ⟨s1, hshelf, hs1, hgrows1, -, hrooms⟩ := shelveAll_eq (g := g) hs hnamed hnodup
  generalize pages.filter (shelves g s) = written at hshelf hrooms ⊢
  obtain ⟨r, s2, hindexes, hs2, hgrows2, -⟩ := indexes_eq (g := g) hs1 hrooms
  rw [run, hshelf] at hok ⊢
  simp only [finish, landings, hindexes] at hok ⊢
  cases r with
  | error e =>
    obtain ⟨nav, hnav⟩ := hok
    cases hnav
  | ok =>
    have hplaced := overview_placed hs2
    have hgrows3 : Grows g [[pageFileName overviewId]] s2 (overview g title written s2) :=
      hplaced.grows_write hs2 _
    have hs3 : Tidy (overview g title written s2) := hs2.write hplaced.ne_nil hplaced.parent _
    obtain ⟨r, s4, later, hsidebars, -, hgrows4, hlast, -⟩ :=
      sidebars_eq (g := g) hs3 style title
    -- no sidebar has the name of a page, so the overview stays as it was written
    have hfree : [pageFileName overviewId] ∉ later := fun hmem ↦
      pageFileName_ne_fileName overviewId style (Option.some.inj (hlast _ hmem))
    have hsettled := (settled_write (g := g) hplaced.ne_nil hplaced.folder
      (Text.Utf8.ofString (overviewText title written (titlesOf written)))).grows hgrows4
        hplaced.room hfree
    have hwhole := ((hgrows1.trans hgrows2).trans hgrows3).trans hgrows4
    simp only [hsidebars]
    exact hsettled ((hwhole.grants_eq hplaced.room).trans hgrants)

end Bare

/-! ### The pages of a run -/

/-- The pages that a run writes. -/
def writtenPages (root : Path) (job : Option String) (documents : List Document) (w : Workshop) :
    List Written :=
  (documents.foldl (Shelf.add root job)
    { workshop := { w with disk := (w.disk.makeFolders root).2 } }).written

/-- Whether a page can be written on a disk. -/
def Written.writable (d : Disk) (root : Path) (p : Written) : Bool :=
  (writePage d (root.child p.slug) p.pageId p.document).1.toBool

/-- Whether a file can be written to a path on a disk. -/
def takes (d : Disk) (p : Path) : Bool :=
  (d.write p []).toBool

/-- No index page that the pages call for has a name or a path that is too long. This is a matter of
the path of the destination alone. -/
def IndexesFit (root : Path) (pages : List Written) : Prop :=
  ∀ g : Ground, g.path = root → ∀ p ∈ pages, g.fits (Bare.indexNames p.slug) = true

section Run

variable {made : Disk} {g : Ground} {site : Entry}

theorem writable_eq (h : made.Carries g site) {p : Written} (hp : p.Named) :
    p.writable made g.path = Bare.shelves g site p := by
  rw [Written.writable]
  obtain ⟨-, ⟨hshelves, hwrite⟩ | ⟨hdenied, e, hwrite⟩⟩ := writePage_cases h hp
  · rw [hwrite, hshelves]
    rfl
  · rw [hwrite, hdenied]
    rfl

theorem takes_eq (h : made.Carries g site) {ns : List String} (hplaced : Bare.Placed site ns) :
    takes made (g.path.along ns) = g.grants site ns := by
  rw [takes]
  rcases h.write_along hplaced.ne_nil hplaced.parent hplaced.folder [] with
    ⟨hgrants, hwrite⟩ | ⟨hdenied, e, hwrite⟩
  · rw [hwrite, hgrants]
    rfl
  · rw [hwrite, hdenied]
    rfl

/-- **Which pages a run writes is decided by the disk that it starts from.** -/
theorem writtenPages_eq {w : Workshop} (h : made.Carries g site)
    (hfolders : w.disk.makeFolders g.path = (.ok (), made)) (job : Option String)
    (documents : List Document) :
    writtenPages g.path job documents w = (placements documents).filter (Bare.shelves g site) := by
  obtain ⟨s1, hshelf, -⟩ := Bare.shelveAll_eq (g := g) ⟨h.folder, h.plain⟩
    (fun _ ↦ named_of_mem_placements) (Bare.nodup_names_placements documents)
  have hwritten := (Shelf.agrees_foldl h w.ledger job documents).written
  rw [hshelf] at hwritten
  rw [writtenPages, hfolders, hwritten]

/-- **A run writes the pages that can be written on the disk that it starts from.** -/
theorem writtenPages_eq_filter {w : Workshop} {root : Path} (h : Ready w.disk root)
    (documents : List Document) (job : Option String) :
    writtenPages root job documents w
      = (placements documents).filter (Written.writable (w.disk.makeFolders root).2 root) := by
  obtain ⟨made, ms, hfolders, hmembers, hplain⟩ := h
  obtain ⟨g, rfl, hmade⟩ := Disk.carries_of_members hmembers hplain
  rw [writtenPages_eq hmade hfolders, hfolders]
  exact List.filter_congr fun p hp ↦ (writable_eq hmade (named_of_mem_placements hp)).symm

end Run

variable {w : Workshop} {root : Path} {documents : List Document} {job : Option String}
  {style title : String}

/-- **A run in which nothing fails writes all pages**, and the names of their index pages fit. -/
theorem writtenPages_of_smooth (h : Ready w.disk root)
    (hstyle : (SidebarStyle.ofName? style).isSome = true)
    (hsmooth : Smooth w (materialize style documents root job title w)) :
    writtenPages root job documents w = placements documents ∧
      IndexesFit root (placements documents) := by
  obtain ⟨made, g, site, rfl, hmade, hs, hfolders, hresult, hstands⟩ :=
    exists_bare h style documents job title
  obtain ⟨hok, hquiet⟩ := hsmooth
  obtain ⟨more, hlog, haccounts⟩ := hstands.log
  rw [addedLog, hlog, List.drop_left] at hquiet
  have hshelves := Bare.shelves_of_deniedPages
    (List.append_eq_nil_iff.1 (haccounts.denied_eq_nil hquiet)).1
  have hall : (placements documents).filter (Bare.shelves g site) = placements documents :=
    List.filter_eq_self.2 hshelves
  refine ⟨(writtenPages_eq hmade hfolders job documents).trans hall, fun g' hpath p hp ↦ ?_⟩
  rcases Bare.run_cases (g := g) hs (fun _ ↦ named_of_mem_placements)
    (Bare.nodup_names_placements documents) hstyle title with ⟨hfits, -⟩ | ⟨-, e, herror⟩
  · rw [hall] at hfits
    rw [Ground.fits, hpath]
    exact hfits p hp
  · exact absurd (hresult.trans herror) (hok e)

/-- **A run comes to its end** where the names of the index pages fit. -/
theorem exists_nav_of_fits (h : Ready w.disk root)
    (hstyle : (SidebarStyle.ofName? style).isSome = true) (title : String)
    (hfits : IndexesFit root (placements documents)) :
    ∃ nav, (materialize style documents root job title w).1 = .ok nav := by
  obtain ⟨made, g, site, rfl, hmade, hs, hfolders, hresult, hstands⟩ :=
    exists_bare h style documents job title
  rw [hresult]
  rcases Bare.run_cases (g := g) hs (fun _ ↦ named_of_mem_placements)
    (Bare.nodup_names_placements documents) hstyle title with ⟨-, hnav⟩ | ⟨hnot, -⟩
  · exact hnav
  · exact absurd (fun p hp ↦ hfits g rfl p (List.mem_filter.1 hp).1) hnot

/-- **The pages of a run are found afterwards**, with what was written to them. -/
theorem read_writtenPages (h : Ready w.disk root) (style title : String) :
    ∀ p ∈ writtenPages root job documents w,
      (materialize style documents root job title w).2.disk.read (p.path root) = .ok p.bytes := by
  obtain ⟨made, g, site, rfl, hmade, hs, hfolders, -, hstands⟩ :=
    exists_bare h style documents job title
  obtain ⟨r, site', touched, hrun, hs', hgrows, hshelved, -⟩ := Bare.run_eq (g := g) hs
    (fun _ ↦ named_of_mem_placements) (Bare.nodup_names_placements documents) style title
  rw [hrun] at hstands
  rw [writtenPages_eq hmade hfolders]
  intro p hp
  obtain ⟨hmem, hshelves⟩ := List.mem_filter.1 hp
  have hnamed := named_of_mem_placements hmem
  rw [← Bare.shelves_eq_of_grows hs hs' hnamed hgrows] at hshelves
  exact read_of_shelves hstands hnamed (hshelved p hmem) hshelves

/-- The text of the overview holds no carriage return. -/
theorem return_not_mem_overviewText (title : String) (written : List Written) :
    '\r' ∉ (overviewText title written (titlesOf written)).toList := by
  rw [toList_overviewText, List.mem_append, List.mem_cons]
  rintro (h | h | h)
  · exact FrontMatter.not_mem_blockText overviewId title 1 h
  · exact absurd h (by decide)
  · exact Lint.not_mem_lint _ h

/-- **The overview of a run lists the pages of the run**, where it can be written. -/
theorem readText_overview (h : Ready w.disk root)
    (hok : ∃ nav, (materialize style documents root job title w).1 = .ok nav)
    (htakes : takes (w.disk.makeFolders root).2 (root.child (pageFileName overviewId)) = true) :
    let written := writtenPages root job documents w
    (materialize style documents root job title w).2.disk.readText
        (root.child (pageFileName overviewId))
      = .ok (overviewText title written (titlesOf written)).toList := by
  obtain ⟨made, g, site, rfl, hmade, hs, hfolders, hresult, hstands⟩ :=
    exists_bare h style documents job title
  rw [hresult] at hok
  rw [hfolders, Path.child_eq_along, takes_eq hmade (Bare.overview_placed hs)] at htakes
  have hget := Bare.get?_overview hs (fun _ ↦ named_of_mem_placements)
    (Bare.nodup_names_placements documents) hok htakes
  rw [← writtenPages_eq hmade hfolders job documents] at hget
  exact Disk.readText_of_read (return_not_mem_overviewText title _)
    (hstands.carries.read_along (by simp) (by decide) (Ground.fits_of_grants htakes) hget)

/-- **A page that cannot be written is left out and nothing else changes.** Beside a run stands one
in which nothing fails, with the same documents and the same destination. The run comes to its end
too. The other run writes all pages; this one writes those that can be written on the disk that it
starts from, each to the same path with the same bytes. And where the overview can be written, its
headings and entries are those of the pages that were written: a heading for each category that has
one, and under it an entry for each page, by position, that starts with the link to the page. -/
theorem failures_isolated {w w₀ : Workshop} {root : Path} (h : Ready w.disk root)
    (h₀ : Ready w₀.disk root) {style : String}
    (hstyle : (SidebarStyle.ofName? style).isSome = true) (documents : List Document)
    (job : Option String) (title : String)
    (hsmooth : Smooth w₀ (materialize style documents root job title w₀)) :
    let after := materialize style documents root job title w
    let after₀ := materialize style documents root job title w₀
    let pages := placements documents
    let written := writtenPages root job documents w
    let overview := root.child (pageFileName overviewId)
    (∃ nav, after.1 = .ok nav) ∧
      pages.map Written.document = documents ∧ writtenPages root job documents w₀ = pages ∧
      written = pages.filter (Written.writable (w.disk.makeFolders root).2 root) ∧
      (∀ p ∈ written, after.2.disk.read (p.path root) = .ok p.bytes ∧
        after₀.2.disk.read (p.path root) = .ok p.bytes) ∧
      (takes (w.disk.makeFolders root).2 overview = true → OnOneLine title →
        (∀ d ∈ documents, Lined d) →
        ∃ cs sections, after.2.disk.readText overview = .ok cs ∧ Sections written sections ∧
          (Text.splitOn '\n' cs).filter isItem = sections.flatMap (sectionLines written) ∧
          ∀ p ∈ written, (entryLink p).toList <+: (overviewEntry p).toList) := by
  intro after after₀ pages written overview
  obtain ⟨hall, hfits⟩ := writtenPages_of_smooth h₀ hstyle hsmooth
  have hnav : ∃ nav, after.1 = .ok nav := exists_nav_of_fits h hstyle title hfits
  have hfilter := writtenPages_eq_filter h documents job
  have hmem : ∀ p ∈ writtenPages root job documents w, p ∈ placements documents := fun p hp ↦ by
    rw [hfilter] at hp
    exact (List.mem_filter.1 hp).1
  refine ⟨hnav, map_document_placements documents, hall, hfilter,
    fun p hp ↦ ⟨read_writtenPages h style title p hp, ?_⟩, fun htakes htitle hlined ↦ ?_⟩
  · exact read_writtenPages h₀ style title p (by rw [hall]; exact hmem p hp)
  · obtain ⟨sections, hsections, hitems⟩ := items_overviewText htitle
      (fun p hp ↦ named_of_mem_placements (hmem p hp))
      fun p hp ↦ hlined _ (exists_of_mem_placements (hmem p hp)).1
    exact ⟨_, sections, readText_overview h hnav htakes, hsections, hitems,
      fun p _ ↦ prefix_overviewEntry p⟩

/-- A workshop with an empty disk on which one page may not be written. -/
def locked : Workshop :=
  ⟨{ tree := .folder [], here := []
     refuses := fun place ↦
      if place = ["site", "api", "routes.md"] then some ⟨13, "Permission denied"⟩ else none },
    { clock := ⟨0⟩ }⟩

theorem Vacant.ready {d : Disk} {root : Path} (h : Vacant d root) : Ready d root := by
  obtain ⟨made, hfolders, hmembers⟩ := h
  exact ⟨made, [], hfolders, hmembers, Entry.plain_emptyFolder⟩

theorem vacant_locked : Vacant locked.disk ⟨false, ["site"]⟩ :=
  ⟨_, makeFolders_site rfl, members_emptySite _⟩

theorem lined_twins : ∀ d ∈ twins, Lined d :=
  List.forall_mem_cons.2 ⟨⟨by decide, by decide, by simp⟩,
    List.forall_mem_singleton.2 ⟨by decide, by decide, by simp⟩⟩

theorem carries_emptySite (refuses : List String → Option Trouble) :
    (emptySite refuses).Carries ⟨⟨false, ["site"]⟩, ["site"], refuses⟩ (.folder []) where
  refuses := rfl
  locate := Disk.locate_name (by decide) (by decide) (by simp [emptySite]) true
  get? := rfl
  folder := rfl
  plain := Entry.plain_emptyFolder

/-- Only the second of the twins is written. -/
theorem writtenPages_locked :
    (writtenPages ⟨false, ["site"]⟩ none twins locked).map Written.pageId = ["routes-2"] := by
  have hpages := writtenPages_eq (w := locked) (carries_emptySite locked.disk.refuses)
    (makeFolders_site rfl) none twins
  rw [hpages]
  decide +kernel

theorem takes_locked :
    takes (locked.disk.makeFolders ⟨false, ["site"]⟩).2 ⟨false, ["site", "overview.md"]⟩
      = true := by
  have hmade := takes_eq (carries_emptySite locked.disk.refuses)
    (Bare.overview_placed Bare.tidy_empty)
  rw [show locked.disk.makeFolders _ = _ from makeFolders_site rfl]
  exact hmade.trans (by decide +kernel)

/-- The second of the twins stays where it is when the first cannot be written. -/
theorem failures_isolated_locked :
    let root : Path := ⟨false, ["site"]⟩
    let after := materialize "json" twins root none "Docs" locked
    let after₀ := materialize "json" twins root none "Docs" blank
    let pages := placements twins
    let written := writtenPages root none twins locked
    let overview := root.child (pageFileName overviewId)
    Ready locked.disk root ∧ Ready blank.disk root ∧
      (SidebarStyle.ofName? "json").isSome = true ∧ Smooth blank after₀ ∧
      written.map Written.pageId = ["routes-2"] ∧ (∃ nav, after.1 = .ok nav) ∧
      pages.map Written.document = twins ∧ writtenPages root none twins blank = pages ∧
      written = pages.filter (Written.writable (locked.disk.makeFolders root).2 root) ∧
      (∀ p ∈ written, after.2.disk.read (p.path root) = .ok p.bytes ∧
        after₀.2.disk.read (p.path root) = .ok p.bytes) ∧
      ∃ cs sections, after.2.disk.readText overview = .ok cs ∧ Sections written sections ∧
        (Text.splitOn '\n' cs).filter isItem = sections.flatMap (sectionLines written) ∧
        ∀ p ∈ written, (entryLink p).toList <+: (overviewEntry p).toList := by
  obtain ⟨hnav, hdocuments, hall, hfilter, hpages, hoverview⟩ :=
    failures_isolated vacant_locked.ready vacant_blank.ready (by decide) twins none "Docs"
      smooth_twins
  exact ⟨vacant_locked.ready, vacant_blank.ready, by decide, smooth_twins, writtenPages_locked,
    hnav, hdocuments, hall, hfilter, hpages, hoverview takes_locked (by decide) lined_twins⟩

end Docwright.Site
