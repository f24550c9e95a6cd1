import Docwright.Proofs.Site.Frame
import Docwright.Proofs.Site.Isolation

/-!
# What a run touches on the disk

`materialize_touches_own`: whatever stood on the disk, a run writes over the pages of its documents,
the overview and the sidebars, and leaves every other file as it was; and index pages come about
where there were none.

The destination may be anything that has no links once it has been made (`Linkless`), and may lie
behind links itself. When it cannot be made the run ends there, with some folders more and the same
files. Otherwise the disk after the run is the one before with the tree of the bare run in it
(`tree_materialize`), so the frame of the bare run is that of the whole disk.
-/

namespace Docwright.Site

open Files Page

/-- If the destination can be made, a tree without links stands there then. -/
def Linkless (d : Disk) (root : Path) : Prop :=
  ∀ made, d.makeFolders root = (.ok (), made) →
    ∃ ms, made.members root = .ok ms ∧ (Entry.folder ms).Plain

theorem Ready.linkless {d : Disk} {root : Path} (h : Ready d root) : Linkless d root := by
  obtain ⟨made, ms, hfolders, hmembers, hplain⟩ := h
  intro made' hfolders'
  cases hfolders.symm.trans hfolders'
  exact ⟨ms, hmembers, hplain⟩

/-- Where names lead from the destination, once it has been made. -/
def LeadsTo (w : Workshop) (root : Path) (ns place : List String) : Prop :=
  ∃ below, (w.disk.makeFolders root).2.locate true root = .ok below ∧ place = below ++ ns

/-- The places on the disk that the names lead to from the destination. -/
def FromRoot (w : Workshop) (root : Path) (owned : List String → Prop) (place : List String) :
    Prop :=
  ∃ ns, owned ns ∧ LeadsTo w root ns place

/-- What can have become of the index page of the category `c` in a run that ends as `after`, when
the categories `before` had their turn first. -/
inductive IndexFate (w : Workshop) (root : Path) (after : Except Crash NavNode × Workshop)
    (before : List (String × String)) (c : String × String) : Prop
  /-- Something is there; if it is a file, it is the one that stood there before or the one that the
  run writes. -/
  | there {e : Entry} (found : after.2.disk.find? (root.along (Bare.indexNames c.1)) = .ok (some e))
      (origin : ∀ bytes, e = .file bytes → bytes = Bare.indexBytes c ∨
        ∃ place, LeadsTo w root (Bare.indexNames c.1) place ∧
          w.disk.tree.get? place = some (.file bytes))
  /-- Writing it has failed, as it would again, and the log tells of it. -/
  | refused (told : Tells (addedLog w after.2) (root.along (Bare.indexNames c.1)))
      (denies : takes after.2.disk (root.along (Bare.indexNames c.1)) = false)
  /-- The run has ended before it was written, because its path, or that of an earlier one, is too
  long to be looked at. -/
  | unseen {b : String × String} (mem : b ∈ before ++ [c])
      (stop : after.1 = .error (.file
        ⟨.nameTooLong, (root.along (Bare.indexNames b.1)).text⟩))

section Run

variable {w : Workshop} {made : Disk} {g : Ground} {site : Entry} {documents : List Document}
  {job : Option String} {style title : String}

/-- The tree on the disk after a run is the one before with the tree of the bare run in it. -/
theorem tree_materialize (hmade : made.Carries g site)
    (hfolders : w.disk.makeFolders g.path = (.ok (), made)) :
    (materialize style documents g.path job title w).2.disk.tree
      = made.tree.put g.place (Bare.run g style title (placements documents) site).2 := by
  obtain ⟨-, hstands⟩ := materialize_eq_bare hmade hfolders style documents job title
  have hdisk := hstands.replaced (Bare.run g style title (placements documents) site).2
  rw [hstands.carries.replaced_self] at hdisk
  rw [hdisk, Disk.replaced]

/-- What stands below the destination that has been made stood there before, if it is a file. -/
theorem get?_of_carries (hmade : made.Carries g site)
    (hfolders : w.disk.makeFolders g.path = (.ok (), made)) {ns : List String}
    {bytes : List UInt8} (hfile : site.get? ns = some (.file bytes)) :
    w.disk.tree.get? (g.place ++ ns) = some (.file bytes) := by
  have hkeeps := Disk.keepsFiles_makeFolders (fun _ ↦ False) (fun _ ↦ False) w.disk g.path
  rw [hfolders] at hkeeps
  exact hkeeps.new id id ((Entry.get?_append_of_get? hmade.get? ns).trans hfile)

/-- The category of a page that was written has its folder in the end. -/
theorem placed_indexNames (hs : Tidy site) {p : Written}
    (hp : p ∈ (placements documents).filter (Bare.shelves g site)) (style title : String) :
    Bare.Placed (Bare.run g style title (placements documents) site).2
      (Bare.indexNames p.slug) := by
  obtain ⟨hmem, hshelves⟩ := List.mem_filter.1 hp
  have hnamed := named_of_mem_placements hmem
  obtain ⟨r, site', touched, hrun, hs', hgrows, hshelved, -⟩ := Bare.run_eq (g := g) hs
    (fun _ ↦ named_of_mem_placements) (Bare.nodup_names_placements documents) style title
  rw [← Bare.shelves_eq_of_grows hs hs' hnamed hgrows, Bare.shelves_eq hs' hnamed,
    Bool.and_eq_true] at hshelves
  rw [hrun]
  exact ⟨Bare.indexNames_ne_nil _, Bare.parent_not_mem_indexNames (Bare.dot_not_mem_slug hnamed),
    Bare.not_isRoom_indexNames _, (hshelved p hmem hshelves.1).1⟩

/-- What has become of an index page in the bare run has become of it on the disk. -/
theorem indexFate_of_indexed (hmade : made.Carries g site)
    (hfolders : w.disk.makeFolders g.path = (.ok (), made))
    {before : List (String × String)} {c : String × String}
    (hplaced : Bare.Placed (Bare.run g style title (placements documents) site).2
      (Bare.indexNames c.1))
    (h : Bare.Indexed g site (Bare.run g style title (placements documents) site).2
      (Bare.denied g style title (placements documents) site)
      (fun e ↦ (Bare.run g style title (placements documents) site).1 = .error (.file e))
      before c) :
    IndexFate w g.path (materialize style documents g.path job title w) before c := by
  obtain ⟨hresult, hstands⟩ := materialize_eq_bare hmade hfolders style documents job title
  cases h with
  | there fits found origin =>
    refine .there ?_ fun bytes he ↦ (origin bytes he).imp_right fun hfile ↦
      ⟨_, ⟨g.place, ?_, rfl⟩, get?_of_carries hmade hfolders hfile⟩
    · rw [hstands.carries.find?_along hplaced.ne_nil hplaced.parent hplaced.folder, if_pos fits,
        found]
    · rw [hfolders]
      exact hmade.locate
  | refused told denies =>
    obtain ⟨more, hlog, haccounts⟩ := hstands.log
    refine .refused ?_ ((takes_eq hstands.carries hplaced).trans denies)
    rw [addedLog, hlog, List.drop_left]
    exact haccounts.tells _ told
  | unseen mem stop => exact .unseen mem (hresult.trans stop)

end Run

variable {w : Workshop} {root : Path}

/-- The same names do not lead to two places. -/
theorem LeadsTo.unique {ns ns' place : List String} (h : LeadsTo w root ns place)
    (h' : LeadsTo w root ns' place) : ns = ns' := by
  obtain ⟨below, hlocate, rfl⟩ := h
  obtain ⟨below', hlocate', heq⟩ := h'
  cases hlocate.symm.trans hlocate'
  exact List.append_cancel_left heq

/-- **A run keeps all files on the disk** but the pages of its documents, the overview and the
sidebars, and brings no other files about than these and index pages. -/
theorem keepsFiles_materialize (h : Linkless w.disk root) (style title : String)
    (documents : List Document) (job : Option String) :
    w.disk.tree.KeepsFiles (FromRoot w root (Owned style (placements documents)))
      (FromRoot w root (IsIndex (placements documents)))
      (materialize style documents root job title w).2.disk.tree := by
  have hfirst := Disk.keepsFiles_makeFolders (FromRoot w root (Owned style (placements documents)))
    (FromRoot w root (IsIndex (placements documents))) w.disk root
  cases hfolders : w.disk.makeFolders root with
  | mk r made =>
    rw [hfolders] at hfirst
    cases r with
    | error e =>
      rw [materialize, hfolders]
      exact hfirst
    | ok =>
      obtain ⟨ms, hmembers, hplain⟩ := h made hfolders
      obtain ⟨g, rfl, hmade⟩ := Disk.carries_of_members hmembers hplain
      have hrun := Bare.keepsFiles_run (g := g) ⟨hmade.folder, hmade.plain⟩
        (fun _ ↦ named_of_mem_placements) (Bare.nodup_names_placements documents) style title
      have hleads : ∀ {owned : List String → Prop} (place : List String),
          Entry.Below g.place owned place → FromRoot w g.path owned place := by
        rintro owned place ⟨ns, rfl, hns⟩
        refine ⟨ns, hns, g.place, ?_, rfl⟩
        rw [hfolders]
        exact hmade.locate
      rw [tree_materialize hmade hfolders]
      exact hfirst.trans ((Entry.KeepsFiles.put hmade.get? hrun).mono hleads hleads)

/-- **Every category with a written page has an index page in the end**, unless writing it has
failed or the run has ended before its turn. -/
theorem exists_indexFate (h : Linkless w.disk root)
    (hok : (w.disk.makeFolders root).1 = .ok ()) (style title : String)
    (documents : List Document) (job : Option String) {page : Written}
    (hpage : page ∈ writtenPages root job documents w) :
    ∃ before name later,
      titlesOf (writtenPages root job documents w) = before ++ (page.slug, name) :: later ∧
        IndexFate w root (materialize style documents root job title w) before
          (page.slug, name) := by
  obtain ⟨⟨slug, name⟩, hc, rfl⟩ := List.mem_map.1
    (mem_slugsOf.2 (List.mem_map_of_mem (f := Written.slug) hpage))
  obtain ⟨before, later, htitles⟩ := List.append_of_mem hc
  refine ⟨before, name, later, htitles, ?_⟩
  cases hfolders : w.disk.makeFolders root with
  | mk r made =>
    rw [hfolders] at hok
    subst hok
    obtain ⟨ms, hmembers, hplain⟩ := h made hfolders
    obtain ⟨g, rfl, hmade⟩ := Disk.carries_of_members hmembers hplain
    have hs : Tidy (.folder ms) := ⟨hmade.folder, hmade.plain⟩
    rw [writtenPages_eq hmade hfolders] at htitles hpage
    exact indexFate_of_indexed hmade hfolders (placed_indexNames hs hpage style title)
      (Bare.indexed_run hs (fun _ ↦ named_of_mem_placements)
        (Bare.nodup_names_placements documents) style title htitles)

/-- **The run touches only its own files.** Every file that stood on the disk has the same bytes
afterwards, unless it is the page of a document, the overview, or the sidebar of the site or of one
of its folders, and no file has come about but these and index pages of categories. So an index page
that was there is kept, in whatever folder. And every category with a written page has an index page
in the end, unless writing it has failed or the run has ended before its turn. -/
theorem materialize_touches_own (h : Linkless w.disk root) (style title : String)
    (documents : List Document) (job : Option String) :
    let after := materialize style documents root job title w
    let pages := placements documents
    let written := writtenPages root job documents w
    w.disk.tree.KeepsFiles (FromRoot w root (Owned style pages)) (FromRoot w root (IsIndex pages))
        after.2.disk.tree ∧
      (∀ slug place bytes, LeadsTo w root (Bare.indexNames slug) place →
        w.disk.tree.get? place = some (.file bytes) →
        after.2.disk.tree.get? place = some (.file bytes)) ∧
      ((w.disk.makeFolders root).1 = .ok () → ∀ page ∈ written, ∃ before name later,
        titlesOf written = before ++ (page.slug, name) :: later ∧
          IndexFate w root after before (page.slug, name)) := by
  intro after pages written
  have hkeeps : w.disk.tree.KeepsFiles _ _ after.2.disk.tree :=
    keepsFiles_materialize h style title documents job
  refine ⟨hkeeps, fun slug place bytes hleads hfile ↦ hkeeps.old ?_ hfile, fun hok page hpage ↦
    exists_indexFate h hok style title documents job hpage⟩
  rintro ⟨ns, hns, hleads'⟩
  cases hleads'.unique hleads
  exact not_owned_indexNames (fun _ ↦ named_of_mem_placements) style slug hns

/-- A destination with an index page and a page of somebody else's, with a file where the folder of
a category goes and a folder where a page goes. -/
def annotated : Workshop :=
  ⟨{ tree := .folder [("site", .folder [
      ("api", .file (Text.Utf8.ofString "not a folder")),
      ("guide", .folder [
        ("index.md", .file (Text.Utf8.ofString "by hand")),
        ("notes.md", .file (Text.Utf8.ofString "notes")),
        ("intro.md", .folder [])])])], here := [] },
    { clock := ⟨0⟩ }⟩

theorem ready_annotated : Ready annotated.disk ⟨false, ["site"]⟩ := by
  have hmembers : annotated.disk.members ⟨false, ["site"]⟩
      = .ok [("api", .file (Text.Utf8.ofString "not a folder")),
        ("guide", .folder [
          ("index.md", .file (Text.Utf8.ofString "by hand")),
          ("notes.md", .file (Text.Utf8.ofString "notes")),
          ("intro.md", .folder [])])] := by
    rw [Disk.members, Disk.entry, Disk.locate_name (by decide) (by decide) (by simp [annotated])]
    rfl
  refine ready_of_members hmembers (.folder (by decide) (by decide) ?_)
  simp only [List.forall_mem_cons, List.not_mem_nil, false_imp_iff, implies_true, and_true]
  refine ⟨.file _, .folder (by decide) (by decide) ?_⟩
  simp only [List.forall_mem_cons, List.not_mem_nil, false_imp_iff, implies_true, and_true]
  exact ⟨.file _, .file _, Entry.plain_emptyFolder⟩

/-- What the annotated destination holds is kept. -/
theorem materialize_touches_own_annotated :
    let root : Path := ⟨false, ["site"]⟩
    let after := materialize "js" visitors root none "Docs" annotated
    let pages := placements visitors
    let written := writtenPages root none visitors annotated
    Linkless annotated.disk root ∧
      annotated.disk.tree.KeepsFiles (FromRoot annotated root (Owned "js" pages))
        (FromRoot annotated root (IsIndex pages)) after.2.disk.tree ∧
      (∀ slug place bytes, LeadsTo annotated root (Bare.indexNames slug) place →
        annotated.disk.tree.get? place = some (.file bytes) →
        after.2.disk.tree.get? place = some (.file bytes)) ∧
      ((annotated.disk.makeFolders root).1 = .ok () → ∀ page ∈ written, ∃ before name later,
        titlesOf written = before ++ (page.slug, name) :: later ∧
          IndexFate annotated root after before (page.slug, name)) := by
  intro root after pages written
  exact ⟨ready_annotated.linkless,
    materialize_touches_own ready_annotated.linkless "js" "Docs" visitors none⟩

end Docwright.Site
