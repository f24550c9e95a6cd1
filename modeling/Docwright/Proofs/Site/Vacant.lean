import Docwright.Proofs.Site.Materialize
import Docwright.Proofs.Site.Navigation

/-!
# A site in an empty destination

When the destination is empty (`Vacant`) and every write succeeds (`Smooth`), `materialize` returns
the navigation that its documents make (`materialize_fresh`), though it reads it back from the disk.

Nothing has to be known of the run to see that it is smooth: `smooth_of_fits` says that every write
succeeds where the disk refuses nothing and no name is too long. The names of all files are known
beforehand (`freshNames`), and what is granted in the empty folder is granted ever after.
-/

namespace Docwright.Site

open Files Page

/-! ### Where nothing is denied -/

/-- The names that a page brings with it: its folder, its file, and the index page and the sidebar
of its category. -/
def namesWith (style : String) (p : Written) : List (List String) :=
  [[p.slug], p.names, Bare.indexNames p.slug, [p.slug, SidebarStyle.fileName style]]

/-- The names of the folders and files of a site in an empty destination. -/
def freshNames (style : String) (pages : List Written) : List (List String) :=
  [pageFileName overviewId] :: [SidebarStyle.fileName style] :: pages.flatMap (namesWith style)

theorem mem_freshNames {style : String} {pages : List Written} {p : Written} {ns : List String}
    (hp : p ∈ pages) (h : ns ∈ namesWith style p) : ns ∈ freshNames style pages :=
  List.mem_cons_of_mem _ (List.mem_cons_of_mem _ (List.mem_flatMap.2 ⟨p, hp, h⟩))

/-- The names of a site with one document depend on its category and its id alone. -/
theorem freshNames_singleton (style : String) (d : Document) {slug id : String}
    (hslug : categorySlug d.category = slug) (hid : freeId (fileId d.id) [] = id) :
    freshNames style (placements [d])
      = [[pageFileName overviewId], [SidebarStyle.fileName style], [slug], [slug, pageFileName id],
          Bare.indexNames slug, [slug, SidebarStyle.fileName style]] := by
  rw [placements_singleton hslug hid]
  rfl

namespace Bare

variable {g : Ground} {s : Entry}

theorem grants_empty {ns : List String} (hne : ns ≠ []) :
    g.grants (.folder []) ns = (g.fits ns && g.allows ns) := by
  obtain ⟨name, rest, rfl⟩ := List.exists_cons_of_ne_nil hne
  simp [Ground.grants, Entry.folderAt, Entry.get?_folder_cons]

theorem opens_empty {name : String} :
    g.opens (.folder []) name = (g.fits [name] && g.allows [name]) := by
  simp [Ground.opens, Entry.folderAt, Entry.get?_folder_cons]

theorem deniedAt_eq_nil {ns : List String} (h : g.grants s ns = true) : deniedAt g s ns = [] :=
  if_pos h

/-- **Index pages that are granted are written.** -/
theorem indexes_of_grants {titles : List (String × String)} (hs : Tidy s)
    (hrooms : ∀ c ∈ titles, Roomed s c)
    (hgrants : ∀ c ∈ titles, g.grants s (indexNames c.1) = true) :
    (indexes g s titles).1 = .ok () ∧ deniedIndexes g s titles = [] := by
  induction titles generalizing s with
  | nil => exact ⟨rfl, rfl⟩
  | cons category rest ih =>
    obtain ⟨hroom, hrooms⟩ := List.forall_mem_cons.1 hrooms
    obtain ⟨hgrant, hgrants⟩ := List.forall_mem_cons.1 hgrants
    obtain ⟨s', hindex⟩ : ∃ s', index g s category = .ok s' :=
      ⟨_, if_pos (Ground.fits_of_grants hgrant)⟩
    obtain ⟨hs', hgrows, -⟩ := index_ok hs hroom hindex
    obtain ⟨hok, hquiet⟩ := ih hs' (fun c hc ↦ ⟨(hrooms c hc).1, hgrows.folderAt (hrooms c hc).2⟩)
      fun c hc ↦ (hgrows.grants_eq (not_isRoom_indexNames c.1)).trans (hgrants c hc)
    rw [indexes, deniedIndexes, hindex]
    refine ⟨hok, ?_⟩
    rw [deniedAt_eq_nil hgrant, ite_self]
    exact hquiet

/-- **So are all other files.** -/
theorem deniedFiles_of_grants {files : List (List String × List UInt8)} (hs : Tidy s)
    (hplaced : ∀ f ∈ files, Placed s f.1) (hgrants : ∀ f ∈ files, g.grants s f.1 = true) :
    deniedFiles g s files = [] := by
  induction files generalizing s with
  | nil => rfl
  | cons file rest ih =>
    obtain ⟨hfile, hplaced⟩ := List.forall_mem_cons.1 hplaced
    obtain ⟨hgrant, hgrants⟩ := List.forall_mem_cons.1 hgrants
    have hgrows := hfile.grows_write (g := g) hs file.2
    rw [deniedFiles, deniedAt_eq_nil hgrant, List.nil_append]
    refine ih (hs.write hfile.ne_nil hfile.parent file.2) (fun f hf ↦ (hplaced f hf).grows hgrows)
      fun f hf ↦ ?_
    exact (hgrows.grants_eq (hplaced f hf).room).trans (hgrants f hf)

/-- What is denied of the sidebars depends on their names, which the tree of a fresh site tells. -/
theorem deniedSidebars_fresh {pages : List Written} (hnamed : ∀ p ∈ pages, p.Named)
    (style title : String) (hs : Tidy (freshTree title pages))
    (hgrants : ∀ ns ∈ [SidebarStyle.fileName style] ::
      (slugsOf pages).map (fun slug ↦ [slug, SidebarStyle.fileName style]),
      g.grants (freshTree title pages) ns = true) :
    deniedSidebars g style title (freshTree title pages) = [] := by
  simp only [deniedSidebars]
  cases SidebarStyle.ofName? style with
  | none => rfl
  | some form =>
    refine deniedFiles_of_grants hs (placed_sidebarFiles hs form style _ _) fun f hf ↦ hgrants _ ?_
    have hname := List.mem_map_of_mem (f := Prod.fst) hf
    rw [map_fst_sidebarFiles, listingOf_fresh hnamed, Listing.folders, List.map_map,
      List.map_map] at hname
    exact hname

/-- **Where all names fit and all places are allowed, the bare run is denied nothing** and gets as
far as the sidebars. -/
theorem denied_fresh {pages : List Written} (hnamed : ∀ p ∈ pages, p.Named)
    (hnodup : (pages.map Written.names).Nodup) {style : String} (title : String)
    (h : ∀ ns ∈ freshNames style pages, g.fits ns = true ∧ g.allows ns = true) :
    shelveAll g (.folder []) pages = (.folder (rooms pages), pages) ∧
      landings g title pages (.folder (rooms pages)) = (.ok (), freshTree title pages) ∧
      denied g style title pages (.folder []) = [] := by
  have hgrants : ∀ ns ∈ freshNames style pages, ns ≠ [] → g.grants (.folder []) ns = true :=
    fun ns hns hne ↦ by rw [grants_empty hne, (h ns hns).1, (h ns hns).2, Bool.and_self]
  have hshelves : ∀ p ∈ pages, shelves g (.folder []) p = true := fun p hp ↦ by
    have hroom := h [p.slug] (mem_freshNames hp (by simp [namesWith]))
    have hfile := hgrants p.names (mem_freshNames hp (by simp [namesWith])) names_ne_nil
    rw [shelves_eq tidy_empty (hnamed p hp), opens_empty, hroom.1, hroom.2, hfile, Bool.and_self,
      Bool.and_self]
  have hshelf := shelveAll_fresh hnamed hnodup hshelves
  obtain ⟨s1, hs1, htidy, hgrows, -, hrooms⟩ := shelveAll_eq (g := g) tidy_empty hnamed hnodup
  obtain ⟨rfl, hall⟩ := Prod.mk.inj (hshelf.symm.trans hs1)
  rw [← hall] at hrooms
  -- what is granted in the empty folder is granted in every tree that grows from it
  obtain ⟨hok, hindexes⟩ := indexes_of_grants htidy hrooms fun c hc ↦ by
    obtain ⟨p, hp, rfl⟩ := exists_of_mem_titlesOf hc
    rw [hgrows.grants_eq (not_isRoom_indexNames _)]
    exact hgrants _ (mem_freshNames hp (by simp [namesWith])) (indexNames_ne_nil _)
  obtain ⟨r, s2, hrun, hs2, hgrows2, -⟩ := indexes_eq (g := g) htidy hrooms
  rw [hrun] at hok
  have hoverview : g.grants s2 [pageFileName overviewId] = true := by
    rw [hgrows2.grants_eq (overview_placed hs2).room, hgrows.grants_eq (overview_placed hs2).room]
    exact hgrants _ List.mem_cons_self (List.cons_ne_nil _ _)
  have hdenied : deniedLandings g pages (.folder (rooms pages)) = [] := by
    rw [deniedLandings, hindexes, hrun, show r = .ok () from hok]
    exact deniedAt_eq_nil hoverview
  have hlandings := landings_fresh hnamed title (by rw [landings, hrun, show r = .ok () from hok])
    hdenied
  obtain ⟨r', s3, touched, hrun', hs3, hgrows3, -⟩ := landings_eq (g := g) htidy hrooms title
  obtain ⟨-, rfl⟩ := Prod.mk.inj (hlandings.symm.trans hrun')
  refine ⟨hshelf, hlandings, ?_⟩
  have hpages : deniedPages g (.folder []) pages = [] := by
    rw [deniedPages, List.filter_eq_nil_iff.2 fun p hp ↦ by simp [hshelves p hp], List.map_nil]
  have hsidebars : deniedSidebars g style title (freshTree title pages) = [] := by
    refine deniedSidebars_fresh hnamed style title hs3 fun ns hns ↦ ?_
    rcases List.mem_cons.1 hns with rfl | hns
    · have hroom : ¬IsRoom [SidebarStyle.fileName style] :=
        not_isRoom_of_dot (dot_mem_fileName style)
      rw [hgrows3.grants_eq hroom, hgrows.grants_eq hroom]
      exact hgrants _ (List.mem_cons_of_mem _ List.mem_cons_self) (List.cons_ne_nil _ _)
    · obtain ⟨slug, hslug, rfl⟩ := List.mem_map.1 hns
      obtain ⟨p, hp, rfl⟩ := List.mem_map.1 (mem_slugsOf.1 hslug)
      rw [hgrows3.grants_eq (not_isRoom_pair _ _), hgrows.grants_eq (not_isRoom_pair _ _)]
      exact hgrants _ (mem_freshNames hp (by simp [namesWith])) (List.cons_ne_nil _ _)
  rw [denied, hshelf]
  simp only [hdenied, hlandings, hpages, hsidebars, List.append_nil]

end Bare

/-! ### Writing into an empty destination -/

/-- The destination can be made, and is empty then. -/
def Vacant (d : Disk) (root : Path) : Prop :=
  ∃ made, d.makeFolders root = (.ok (), made) ∧ made.members root = .ok []

/-- Every write of a run has succeeded: it does not end with a trouble of the disk, and the writer
reports nothing. -/
def Smooth (before : Workshop) (result : Except Crash NavNode × Workshop) : Prop :=
  (∀ e, result.1 ≠ .error (.file e)) ∧
    ∀ r ∈ addedLog before result.2, r.component ≠ "materializer"

/-- The bare run of an empty destination. -/
theorem Vacant.exists_bare {w : Workshop} {root : Path} (h : Vacant w.disk root) (style : String)
    (documents : List Document) (job : Option String) (title : String) :
    ∃ made g, g.path = root ∧ w.disk.makeFolders root = (.ok (), made) ∧
      g.refuses = made.refuses ∧
      (materialize style documents root job title w).1
        = (Bare.run g style title (placements documents) (.folder [])).1 ∧
      ∃ more, addedLog w (materialize style documents root job title w).2 = more ∧
        Accounts g more (Bare.denied g style title (placements documents) (.folder [])) := by
  obtain ⟨made, hfolders, hmembers⟩ := h
  obtain ⟨g, rfl, hmade⟩ := Disk.carries_of_members hmembers Entry.plain_emptyFolder
  obtain ⟨hresult, hstands⟩ := materialize_eq_bare hmade hfolders style documents job title
  obtain ⟨more, hlog, haccounts⟩ := hstands.log
  exact ⟨made, g, rfl, hfolders, hmade.refuses.symm, hresult, more,
    by rw [addedLog, hlog, List.drop_left], haccounts⟩

/-- **A run into an empty destination is smooth** where the disk refuses nothing and no name is too
long. -/
theorem smooth_of_fits {w : Workshop} {root : Path} (hvacant : Vacant w.disk root)
    (hrefuses : ∀ place, w.disk.refuses place = none) (style : String) (documents : List Document)
    (hfits : ∀ ns ∈ freshNames style (placements documents),
      (root.along ns).text.utf8ByteSize ≤ Disk.pathLimit ∧
        ∀ n ∈ ns, n.utf8ByteSize ≤ Disk.nameLimit) (job : Option String) (title : String) :
    Smooth w (materialize style documents root job title w) := by
  obtain ⟨made, g, rfl, hfolders, hg, hresult, more, hlog, haccounts⟩ :=
    hvacant.exists_bare style documents job title
  have hallows : ∀ ns, g.allows ns = true := fun ns ↦ by
    rw [Ground.allows, hg, Disk.refuses_makeFolders hfolders, hrefuses]
    rfl
  have hnames : ∀ ns ∈ freshNames style (placements documents),
      g.fits ns = true ∧ g.allows ns = true := fun ns hns ↦ by
    refine ⟨?_, hallows ns⟩
    simpa [Ground.fits] using hfits ns hns
  obtain ⟨hshelf, hlandings, hdenied⟩ := Bare.denied_fresh (fun _ ↦ named_of_mem_placements)
    (Bare.nodup_names_placements documents) title hnames
  refine ⟨fun e ↦ ?_, ?_⟩
  · rw [hresult, Bare.run, hshelf]
    simp only [Bare.finish, hlandings, Bare.sidebars]
    cases SidebarStyle.ofName? style with
    | none => simp [unknownStyle]
    | some form => simp
  · rw [hlog]
    exact haccounts.quiet hdenied

/-! ### The navigation -/

/-- In an empty destination, when nothing is denied, the bare run comes to the tree of a fresh site
and makes its navigation. -/
theorem run_fresh {g : Ground} {pages : List Written} (hnamed : ∀ p ∈ pages, p.Named)
    (hnodup : (pages.map Written.names).Nodup) {style : String} (title : String)
    (hstyle : (SidebarStyle.ofName? style).isSome = true)
    (hok : ∀ e, (Bare.run g style title pages (.folder [])).1 ≠ .error (.file e))
    (hdenied : Bare.denied g style title pages (.folder []) = []) :
    (Bare.run g style title pages (.folder [])).1
      = .ok (siteNavigation title g.path.name pages) := by
  obtain ⟨form, hform⟩ := Option.isSome_iff_exists.1 hstyle
  have hshelf := Bare.shelveAll_fresh hnamed hnodup
    (Bare.shelves_of_deniedPages (List.append_eq_nil_iff.1 hdenied).1)
  rw [Bare.denied, hshelf] at hdenied
  have hrest := (List.append_eq_nil_iff.1 hdenied).2
  rw [Bare.run, hshelf] at hok ⊢
  have hlandingsOk : (Bare.landings g title pages (.folder (Bare.rooms pages))).1 = .ok () := by
    simp only [Bare.finish] at hok
    cases hlandings : Bare.landings g title pages (.folder (Bare.rooms pages)) with
    | mk r s =>
      rw [hlandings] at hok
      cases r with
      | error e => exact absurd rfl (hok e)
      | ok => rfl
  have hlandings := Bare.landings_fresh hnamed title hlandingsOk (List.append_eq_nil_iff.1 hrest).1
  simp only [Bare.finish, hlandings, Bare.sidebars, hform]
  rw [navigation_fresh hnamed]

/-- **The navigation of an empty destination is the one that the pages make.** -/
theorem navigation_materialize {w : Workshop} {root : Path} (hvacant : Vacant w.disk root)
    {style : String} (hstyle : (SidebarStyle.ofName? style).isSome = true)
    (documents : List Document) (job : Option String) (title : String)
    (hsmooth : Smooth w (materialize style documents root job title w)) :
    (materialize style documents root job title w).1
      = .ok (siteNavigation title root.name (placements documents)) := by
  obtain ⟨made, g, rfl, -, -, hresult, more, hlog, haccounts⟩ :=
    hvacant.exists_bare style documents job title
  obtain ⟨hok, hquiet⟩ := hsmooth
  rw [hlog] at hquiet
  rw [hresult] at hok ⊢
  exact run_fresh (fun _ ↦ named_of_mem_placements) (Bare.nodup_names_placements documents) title
    hstyle hok (haccounts.denied_eq_nil hquiet)

/-- A category without a name counts as `Other`. -/
theorem categoryName_eq (category : String) :
    categoryName category = if category = "" then "Other" else category := by
  simp [categoryName, String.isEmpty_iff]

/-- The slug of a category is made of its name; it is `other` when nothing is left of that. -/
theorem categorySlug_eq (category : String) :
    categorySlug category =
      if slugOf (categoryName category) = "" then "other"
      else slugOf (categoryName category) := by
  simp [categorySlug, String.isEmpty_iff, otherSlug]

/-- **In an empty destination the navigation is the one that the documents make**: if every write
succeeds, then what is returned, though it is read back from the disk, is the overview and one
category for each slug, each with its index page and one node for each of its documents. Every
document is filed under the slug of its own category, and no two have both slug and page id in
common. -/
theorem materialize_fresh {w : Workshop} {root : Path} (hvacant : Vacant w.disk root)
    {style : String} (hstyle : (SidebarStyle.ofName? style).isSome = true)
    (documents : List Document) (job : Option String) (title : String)
    (hsmooth : Smooth w (materialize style documents root job title w)) :
    (∀ category,
      categoryName category = if category = "" then "Other" else category) ∧
    (placements documents).map (fun p ↦ (p.document, p.slug))
        = documents.map (fun d ↦ (d, if slugOf (categoryName d.category) = "" then "other"
            else slugOf (categoryName d.category))) ∧
      ((placements documents).map fun p ↦ (p.slug, p.pageId)).Nodup ∧
      (materialize style documents root job title w).1
        = .ok (siteNavigation title root.name (placements documents)) := by
  refine ⟨categoryName_eq, ?_, nodup_placements documents,
    navigation_materialize hvacant hstyle documents job title hsmooth⟩
  simp only [map_placements, categorySlug_eq]

/-- A workshop with an empty disk. -/
def blank : Workshop := ⟨{ tree := .folder [], here := [] }, { clock := ⟨0⟩ }⟩

/-- Two documents that ask for one page. -/
def twins : List Document := [
  { id := "Routes!", title := "Routes", position := 2, body := "", sources := []
    category := "Api" },
  { id := "routes", title := "", position := 3, body := "", sources := []
    category := "api" }]

/-- A disk on which only the folder of a site stands. -/
def emptySite (refuses : List String → Option Trouble) : Disk :=
  { tree := .folder [("site", .folder [])], here := [], refuses }

theorem makeFolders_site {refuses : List String → Option Trouble} (h : refuses ["site"] = none) :
    ({ tree := .folder [], here := [], refuses } : Disk).makeFolders ⟨false, ["site"]⟩
      = (.ok (), emptySite refuses) := by
  have hmade : ({ tree := .folder [], here := [], refuses } : Disk).makeFolder ⟨false, ["site"]⟩
      = .ok (emptySite refuses) := by
    have hfree : (Entry.folder []).get? ([] ++ ["site"]) = none := rfl
    have hallowed : refuses ([] ++ ["site"]) = none := h
    rw [Disk.makeFolder, Disk.locate_name (by decide) (by decide) (by simp)]
    simp only [hfree, hallowed]
    rfl
  simp only [Disk.makeFolders, Disk.makeFoldersTo, List.reverse_cons, List.reverse_nil,
    List.nil_append, hmade]

theorem members_emptySite (refuses : List String → Option Trouble) :
    (emptySite refuses).members ⟨false, ["site"]⟩ = .ok [] := by
  rw [Disk.members, Disk.entry, Disk.locate_name (by decide) (by decide) (by simp [emptySite])]
  rfl

theorem vacant_blank : Vacant blank.disk ⟨false, ["site"]⟩ :=
  ⟨_, makeFolders_site rfl, members_emptySite _⟩

theorem smooth_twins :
    Smooth blank (materialize "json" twins ⟨false, ["site"]⟩ none "Docs" blank) :=
  smooth_of_fits vacant_blank (fun _ ↦ rfl) "json" twins (by decide +kernel) none "Docs"

/-- Documents of two categories: one with a name that is written in two ways, one without a name. -/
def sections : List Document := [
  { id := "Routes!", title := "Routes", position := 2, body := "", sources := []
    category := "Rest  Api" },
  { id := "notes", title := "Loose\nends", position := 3, body := "", sources := []
    category := "" },
  { id := "routes", title := "", position := 4, body := "", sources := []
    category := "rest-api" }]

theorem mergeSort_pair {α : Type} (le : α → α → Bool) (a b : α) :
    [a, b].mergeSort le = if le a b then [a, b] else [b, a] := by
  rw [List.mergeSort]
  simp [List.MergeSort.Internal.splitInTwo, List.merge]

/-- Their navigation, category by category. -/
theorem siteNavigation_sections :
    siteNavigation "Docs" "site" (placements sections) = .category "Docs" [
      .doc "overview" "Overview",
      .category "Other" [.doc "other/other-index" "Overview", .doc "other/notes" "Loose ends"],
      .category "Rest  Api" [.doc "rest-api/rest-api-index" "Overview",
        .doc "rest-api/routes" "Routes", .doc "rest-api/routes-2" "Routes 2"]] := by
  have hslugs : slugsInOrder (placements sections) = ["other", "rest-api"] := by
    have hdedup : ((placements sections).map (·.slug)).dedup = ["other", "rest-api"] := by
      decide +kernel
    rw [slugsInOrder, hdedup, mergeSort_pair]
    decide
  have hother : pagesById (placements sections) "other"
      = [⟨sections[1], "other", "notes"⟩] :=
    List.mergeSort_singleton _
  have hrest : pagesById (placements sections) "rest-api"
      = [⟨sections[0], "rest-api", "routes"⟩, ⟨sections[2], "rest-api", "routes-2"⟩] :=
    mergeSort_pair _ _ _
  rw [siteNavigation, hslugs, List.map_cons, List.map_singleton, categoryNode, hother,
    categoryNode, hrest]
  rfl

/-- Every document gets its node under its own category. -/
theorem materialize_fresh_sections :
    Vacant blank.disk ⟨false, ["site"]⟩ ∧ (SidebarStyle.ofName? "json").isSome = true ∧
      Smooth blank (materialize "json" sections ⟨false, ["site"]⟩ none "Docs" blank) ∧
      (placements sections).map (fun p ↦ (p.document.id, p.slug))
        = [("Routes!", "rest-api"), ("notes", "other"), ("routes", "rest-api")] ∧
      (materialize "json" sections ⟨false, ["site"]⟩ none "Docs" blank).1
        = .ok (.category "Docs" [
            .doc "overview" "Overview",
            .category "Other" [.doc "other/other-index" "Overview",
              .doc "other/notes" "Loose ends"],
            .category "Rest  Api" [.doc "rest-api/rest-api-index" "Overview",
              .doc "rest-api/routes" "Routes", .doc "rest-api/routes-2" "Routes 2"]]) := by
  have hstyle : (SidebarStyle.ofName? "json").isSome = true := by decide
  have hsmooth : Smooth blank (materialize "json" sections ⟨false, ["site"]⟩ none "Docs" blank) :=
    smooth_of_fits vacant_blank (fun _ ↦ rfl) "json" sections (by decide +kernel) none "Docs"
  obtain ⟨-, hfiled, -, hnavigation⟩ :=
    materialize_fresh vacant_blank hstyle sections none "Docs" hsmooth
  have hids : (placements sections).map (fun p ↦ (p.document.id, p.slug))
      = [("Routes!", "rest-api"), ("notes", "other"), ("routes", "rest-api")] := by
    have hpairs := congrArg (List.map fun x ↦ (x.1.id, x.2)) hfiled
    rw [List.map_map] at hpairs
    exact hpairs.trans (by decide +kernel)
  refine ⟨vacant_blank, hstyle, hsmooth, hids, hnavigation.trans ?_⟩
  exact congrArg Except.ok siteNavigation_sections

end Docwright.Site
