import Docwright.Proofs.Files.ReadBack
import Docwright.Proofs.Page.Lint
import Docwright.Proofs.Site.Agreement

/-!
# Writing the site over what was there

Two properties of `materialize` for any prior content of the destination that is a tree without
links (`Ready`): files where folders should go, folders where pages should go, pages written by
hand, and a disk that refuses what it likes.

* `pages_readBack`: every document has a page with a path of its own, and unless the log tells that
  it could not be written, reading it gives the id, the title, the place and the linted body of that
  document and of no other.
* `materialize_idempotent`: a second run leaves the disk as the first one left it and gives the same
  navigation.

Both are read off the bare run, whose steps are settled once they have been made.
-/

namespace Docwright.Site

open Files Page

/-- The destination can be made, and a tree without links stands there then. -/
def Ready (d : Disk) (root : Path) : Prop :=
  ∃ made ms, d.makeFolders root = (.ok (), made) ∧ made.members root = .ok ms ∧
    (Entry.folder ms).Plain

/-- A destination that is there is ready if it has no links. -/
theorem ready_of_members {d : Disk} {root : Path} {ms : List (String × Entry)}
    (hmembers : d.members root = .ok ms) (hplain : (Entry.folder ms).Plain) : Ready d root := by
  obtain ⟨g, rfl, hcarries⟩ := Disk.carries_of_members hmembers hplain
  exact ⟨d, ms, hcarries.makeFolders_self, hmembers, hplain⟩

/-- The path of a page below the destination. -/
def Written.path (root : Path) (p : Written) : Path :=
  (root.child p.slug).child (pageFileName p.pageId)

/-- The records that a run has added to the log. -/
def addedLog (before after : Workshop) : Log :=
  after.ledger.log.drop before.ledger.log.length

/-- What the front matter of a page says, and what follows it. -/
def pageFields (pageId : String) (d : Document) : FrontMatter.Fields :=
  [("id", pageId), ("title", String.ofList (Text.oneLine d.title.toList)),
    ("sidebar_position", toString d.position)]

/-- **A ready destination is all the bare run needs.** -/
theorem exists_bare {w : Workshop} {root : Path} (h : Ready w.disk root) (style : String)
    (documents : List Document) (job : Option String) (title : String) :
    ∃ made g site, g.path = root ∧ made.Carries g site ∧ Tidy site ∧
      w.disk.makeFolders root = (.ok (), made) ∧
      (materialize style documents root job title w).1
        = (Bare.run g style title (placements documents) site).1 ∧
      Stands made g w.ledger.log (materialize style documents root job title w).2
        (Bare.run g style title (placements documents) site).2
        (Bare.denied g style title (placements documents) site) := by
  obtain ⟨made, ms, hfolders, hmembers, hplain⟩ := h
  obtain ⟨g, rfl, hmade⟩ := Disk.carries_of_members hmembers hplain
  obtain ⟨hresult, hstands⟩ := materialize_eq_bare hmade hfolders style documents job title
  exact ⟨made, g, _, rfl, hmade, ⟨hmade.folder, hmade.plain⟩, hfolders, hresult, hstands⟩

/-! ### Idempotence -/

/-- **Writing the site twice is writing it once**: the second run changes nothing on the disk and
gives the same navigation, or the same failure, whatever jobs and log it starts with. -/
theorem materialize_idempotent {w : Workshop} {root : Path} (h : Ready w.disk root)
    (style title : String) (documents : List Document) (job job' : Option String)
    (ledger : Ledger) :
    let first := materialize style documents root job title w
    let second := materialize style documents root job' title ⟨first.2.disk, ledger⟩
    second.2.disk = first.2.disk ∧ second.1 = first.1 := by
  intro first second
  obtain ⟨made, g, site, rfl, hmade, hs, hfolders, hresult, hstands⟩ :=
    exists_bare h style documents job title
  obtain ⟨r, site', touched, hrun, -, -, -, hagain⟩ := Bare.run_eq (g := g) hs
    (fun _ ↦ named_of_mem_placements) (Bare.nodup_names_placements documents) style title
  rw [hrun] at hresult hstands
  obtain ⟨hresult', hstands'⟩ := materialize_eq_bare hstands.carries
    (w := ⟨first.2.disk, ledger⟩) hstands.carries.makeFolders_self style documents job' title
  rw [hagain] at hresult' hstands'
  refine ⟨?_, hresult'.trans hresult.symm⟩
  -- both runs leave the disk as it was with the same tree on the ground
  rw [← hstands'.carries.replaced_self, hstands'.replaced, hstands.carries.replaced_self]

/-- A destination with a file where the folder of a category goes and a folder where a page goes. -/
def messy : Workshop :=
  ⟨{ tree := .folder [("site", .folder [
      ("api", .file []), ("guide", .folder [("intro.md", .folder [])])])], here := [] },
    { clock := ⟨0⟩ }⟩

/-- Documents that meet what stands there, and two that ask for one page. -/
def visitors : List Document := [
  { id := "routes", title := "Routes", position := 2, body := "", sources := []
    category := "Api" },
  { id := "intro", title := "Intro", position := 2, body := "", sources := []
    category := "Guide" },
  { id := "Intro!", title := "", position := -1, body := "", sources := []
    category := "guide" }]

theorem ready_messy : Ready messy.disk ⟨false, ["site"]⟩ := by
  have hmembers : messy.disk.members ⟨false, ["site"]⟩
      = .ok [("api", .file []), ("guide", .folder [("intro.md", .folder [])])] := by
    rw [Disk.members, Disk.entry, Disk.locate_name (by decide) (by decide) (by simp [messy])]
    rfl
  refine ready_of_members hmembers (.folder (by decide) (by decide) ?_)
  simp only [List.forall_mem_cons, List.not_mem_nil, false_imp_iff, implies_true, and_true]
  exact ⟨.file _,
    .folder (by decide) (by decide) (List.forall_mem_singleton.2 Entry.plain_emptyFolder)⟩

/-- A second run leaves the messy destination alone. -/
theorem materialize_idempotent_messy :
    Ready messy.disk ⟨false, ["site"]⟩ ∧
      (materialize "js" visitors ⟨false, ["site"]⟩ none "Docs"
          (materialize "js" visitors ⟨false, ["site"]⟩ none "Docs" messy).2).2.disk
        = (materialize "js" visitors ⟨false, ["site"]⟩ none "Docs" messy).2.disk ∧
      (materialize "js" visitors ⟨false, ["site"]⟩ none "Docs"
          (materialize "js" visitors ⟨false, ["site"]⟩ none "Docs" messy).2).1
        = (materialize "js" visitors ⟨false, ["site"]⟩ none "Docs" messy).1 :=
  ⟨ready_messy, materialize_idempotent ready_messy "js" "Docs" visitors none none
    (materialize "js" visitors ⟨false, ["site"]⟩ none "Docs" messy).2.ledger⟩

/-! ### Reading pages back -/

/-- No two pages share a path. -/
theorem nodup_paths_placements (root : Path) (documents : List Document) :
    ((placements documents).map (Written.path root)).Nodup := by
  have hnames := Bare.nodup_names_placements documents
  rw [List.Nodup, List.pairwise_map] at hnames ⊢
  refine hnames.imp fun hne heq ↦ hne ?_
  rw [Written.path, Written.path, along_names, along_names, Path.along, Path.along,
    Files.Path.mk.injEq] at heq
  exact List.append_cancel_left heq.2

/-- The text of a page holds no carriage return. -/
theorem return_not_mem_pageText (pageId : String) (d : Document) :
    '\r' ∉ (pageText pageId d).toList := by
  rw [pageText, String.toList_ofList, List.mem_append, List.mem_append]
  rintro ((h | h) | h)
  · exact FrontMatter.not_mem_blockText pageId d.title d.position h
  · exact absurd h (by decide)
  · exact Lint.not_mem_lint _ h

/-- **The page of a document reads back as that document.** -/
theorem split_pageText {pageId : String} (hid : IsSlug pageId.toList) (d : Document) :
    FrontMatter.split (pageText pageId d).toList
      = (pageFields pageId d, '\n' :: Lint.lint d.body.toList) := by
  have hbody : '\r' ∉ '\n' :: Lint.lint d.body.toList := by
    simpa using Lint.not_mem_lint d.body.toList
  rw [pageText, String.toList_ofList, List.append_assoc, FrontMatter.split_blockText,
    slugOf_eq_self hid, pageFields]
  simp only [List.cons_append, List.nil_append, Text.pairsToNewline_eq_self hbody]

/-- A page that can be written is there after the whole run. -/
theorem read_of_shelves {made : Disk} {g : Ground} {old : Log} {w : Workshop} {site : Entry}
    {denied : List (List String)} (h : Stands made g old w site denied) {p : Written}
    (hp : p.Named) (hshelved : Bare.Shelved g site p) (hshelves : Bare.shelves g site p = true) :
    w.disk.read (p.path g.path) = .ok p.bytes := by
  have hget := hshelved.get? h.tidy hp hshelves
  rw [Bare.shelves_eq h.tidy hp, Bool.and_eq_true] at hshelves
  rw [Written.path, along_names]
  exact h.carries.read_along Bare.names_ne_nil (Bare.parent_not_mem_names hp)
    (Ground.fits_of_grants hshelves.2) hget

theorem readText_of_shelves {made : Disk} {g : Ground} {old : Log} {w : Workshop} {site : Entry}
    {denied : List (List String)} (h : Stands made g old w site denied) {p : Written}
    (hp : p.Named) (hshelved : Bare.Shelved g site p) (hshelves : Bare.shelves g site p = true) :
    w.disk.readText (p.path g.path) = .ok (pageText p.pageId p.document).toList :=
  Disk.readText_of_read (return_not_mem_pageText p.pageId p.document)
    (read_of_shelves h hp hshelved hshelves)

/-- **Every document has a page of its own, and the page holds that document**: ids are found for
all documents, in order; no two pages share a path; slugs and ids look like slugs and are not empty,
and no id is a landing page's; and a page that the log does not tell of is there, reads back as the
id, the title on one line and the place of its document, and goes on with its linted body. -/
theorem pages_readBack {w : Workshop} {root : Path} (h : Ready w.disk root) (style title : String)
    (documents : List Document) (job : Option String) :
    let after := (materialize style documents root job title w).2
    let pages := placements documents
    (pages.map fun p ↦ (p.document, p.slug))
        = documents.map (fun d ↦ (d, categorySlug d.category)) ∧
      (∀ id taken, ∃ n, freeId id taken = candidate id n ∧ candidate id n ∉ taken ∧
        ∀ m < n, candidate id m ∈ taken) ∧
      (pages.map (Written.path root)).Nodup ∧
      ∀ p ∈ pages, p.Named ∧ (¬Tells (addedLog w after) (p.path root) →
        ∃ cs, after.disk.readText (p.path root) = .ok cs ∧
          FrontMatter.split cs
            = (pageFields p.pageId p.document, '\n' :: Lint.lint p.document.body.toList)) := by
  intro after pages
  obtain ⟨made, g, site, rfl, hmade, hs, hfolders, -, hstands⟩ :=
    exists_bare h style documents job title
  obtain ⟨r, site', touched, hrun, hs', hgrows, hshelved, -⟩ := Bare.run_eq (g := g) hs
    (fun _ ↦ named_of_mem_placements) (Bare.nodup_names_placements documents) style title
  rw [hrun] at hstands
  refine ⟨map_placements documents, freeId_spec, nodup_paths_placements _ documents,
    fun p hp ↦ ?_⟩
  have hnamed := named_of_mem_placements hp
  refine ⟨hnamed, fun hquiet ↦ ?_⟩
  -- a page that was denied is told of, against `hquiet`
  have hshelves : Bare.shelves g site p = true := by
    cases hdenied : Bare.shelves g site p with
    | true => rfl
    | false =>
      obtain ⟨more, hlog, haccounts⟩ := hstands.log
      have hadded : addedLog w after = more := by
        rw [addedLog, hlog, List.drop_left]
      have hmem : p.names ∈ Bare.denied g style title pages site := by
        refine List.mem_append_left _ (List.mem_map_of_mem (List.mem_filter.2 ⟨hp, ?_⟩))
        rw [hdenied]
        rfl
      rw [hadded, Written.path, along_names] at hquiet
      exact absurd (haccounts.tells _ hmem) hquiet
  rw [← Bare.shelves_eq_of_grows hs hs' hnamed hgrows] at hshelves
  exact ⟨_, readText_of_shelves hstands hnamed (hshelved p hp) hshelves,
    split_pageText hnamed.pageId p.document⟩

/-- Of the visitors of a messy destination, whoever finds room is there afterwards. -/
theorem pages_readBack_messy :
    let after := (materialize "json" visitors ⟨false, ["site"]⟩ none "Docs" messy).2
    let pages := placements visitors
    Ready messy.disk ⟨false, ["site"]⟩ ∧
      (pages.map fun p ↦ (p.document, p.slug))
        = visitors.map (fun d ↦ (d, categorySlug d.category)) ∧
      (∀ id taken, ∃ n, freeId id taken = candidate id n ∧ candidate id n ∉ taken ∧
        ∀ m < n, candidate id m ∈ taken) ∧
      (pages.map (Written.path ⟨false, ["site"]⟩)).Nodup ∧
      ∀ p ∈ pages, p.Named ∧ (¬Tells (addedLog messy after) (p.path ⟨false, ["site"]⟩) →
        ∃ cs, after.disk.readText (p.path ⟨false, ["site"]⟩) = .ok cs ∧
          FrontMatter.split cs
            = (pageFields p.pageId p.document, '\n' :: Lint.lint p.document.body.toList)) := by
  intro after pages
  exact ⟨ready_messy, pages_readBack ready_messy "json" "Docs" visitors none⟩

end Docwright.Site
