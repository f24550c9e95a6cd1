import Docwright.Proofs.Files.Kept
import Docwright.Proofs.Site.Fresh

/-!
# The frame of the bare run

Pages, index pages, the overview and the sidebars are written into a tree in which anything may
stand already. Three kinds of writers write over what they find, each in places of its own
(`Owned`); index pages are written where nothing stands. `Bare.keepsFiles_run` puts the steps
together: nothing else changes.

What clashes of names there can be is settled with the places: no page has the name of an index
page, and neither has a sidebar (`not_owned_indexNames`), so an index page that was there is kept
by all of them. Whether one that was missing has come about is followed from its turn
(`Bare.indexed_index`) to the end of the run (`Bare.indexed_run`), and back to the start: what comes
before its turn cannot have brought it about.
-/

namespace Docwright.Site

open Files Page

/-- The places below the destination where the run may write over what stands there: the pages of
the documents, the overview, and the sidebars of the site and of its folders. -/
inductive Owned (style : String) (pages : List Written) : List String → Prop
  | page {p : Written} (hp : p ∈ pages) : Owned style pages p.names
  | overview : Owned style pages [pageFileName overviewId]
  | sidebar : Owned style pages [SidebarStyle.fileName style]
  | folderSidebar (name : String) : Owned style pages [name, SidebarStyle.fileName style]

/-- The places of the index pages of categories, where the run writes if nothing stands there. -/
def IsIndex (pages : List Written) (ns : List String) : Prop :=
  ∃ p ∈ pages, ns = Bare.indexNames p.slug

/-- **No index page is owned**, of whatever folder. -/
theorem not_owned_indexNames {pages : List Written} (hnamed : ∀ p ∈ pages, p.Named)
    (style slug : String) : ¬Owned style pages (Bare.indexNames slug) := by
  have hfile : SidebarStyle.fileName style ≠ "index.md" := by
    unfold SidebarStyle.fileName
    split <;> decide
  intro h
  generalize hns : Bare.indexNames slug = ns at h
  cases h with
  | page hp => exact Bare.names_ne_indexNames (hnamed _ hp) slug hns.symm
  | overview => cases hns
  | sidebar => cases hns
  | folderSidebar name =>
    simp only [Bare.indexNames, List.cons.injEq, and_true] at hns
    exact hfile hns.2.symm

namespace Bare

variable {g : Ground} {owned fresh : List String → Prop} {s s' : Entry} {style title : String}
  {pages : List Written}

/-! ### The frame of the bare run -/

theorem keepsFiles_write {ns : List String} (hne : ns ≠ [])
    (hparent : s.folderAt ns.dropLast = true) (bytes : List UInt8) :
    s.KeepsFiles (· = ns) fresh (g.write s ns bytes) := by
  unfold Ground.write
  split
  · rename_i hgrants
    simp only [Ground.grants, Bool.and_eq_true, Bool.not_eq_true'] at hgrants
    exact .put_leaf hne hparent hgrants.2 fun _ ↦ Entry.get?_file_of_ne_nil
  · exact .refl _ _ _

theorem keepsFiles_make (name : String) : s.KeepsFiles owned fresh (g.make s name) := by
  unfold Ground.make
  split
  · rename_i hmake
    simp only [Bool.and_eq_true, Option.isNone_iff_eq_none] at hmake
    exact .put_emptyFolder hmake.2
  · exact .refl _ _ _

theorem keepsFiles_shelve (hs : Tidy s) {p : Written} (hp : owned p.names) :
    s.KeepsFiles owned fresh (shelve g s p) := by
  unfold shelve
  split
  · rename_i hopens
    have hwrite : (g.make s p.slug).KeepsFiles (· = p.names) fresh
        (g.write (g.make s p.slug) p.names p.bytes) :=
      keepsFiles_write names_ne_nil (folderAt_make hs hopens) p.bytes
    exact (keepsFiles_make p.slug).trans (hwrite.mono (fun _ h ↦ h ▸ hp) fun _ ↦ id)
  · exact .refl _ _ _

/-- **The pages are written in their own places.** -/
theorem keepsFiles_foldl_shelveNext (hs : Tidy s) (hnamed : ∀ p ∈ pages, p.Named)
    (howned : ∀ p ∈ pages, owned p.names) (ws : List Written) :
    s.KeepsFiles owned fresh (pages.foldl (shelveNext g) (s, ws)).1 := by
  induction pages generalizing s ws with
  | nil => exact .refl _ _ _
  | cons p rest ih =>
    obtain ⟨hp, hrest⟩ := List.forall_mem_cons.1 hnamed
    obtain ⟨hpage, hpages⟩ := List.forall_mem_cons.1 howned
    exact (keepsFiles_shelve hs hpage).trans (ih (Tidy.shelve hs hp) hrest hpages _)

theorem keepsFiles_index {c : String × String} (hroom : Roomed s c) (h : index g s c = .ok s')
    (hc : fresh (indexNames c.1)) : s.KeepsFiles owned fresh s' := by
  unfold index at h
  split at h
  · rw [Except.ok.injEq] at h
    subst h
    split
    · exact .refl _ _ _
    · rename_i hnone
      exact (keepsFiles_write (indexNames_ne_nil _) hroom.2 _).of_vacant (by simpa using hnone) hc
  · cases h

/-- **Index pages are written where nothing stands.** -/
theorem keepsFiles_indexes {titles : List (String × String)} (hs : Tidy s)
    (hrooms : ∀ c ∈ titles, Roomed s c) (hfresh : ∀ c ∈ titles, fresh (indexNames c.1)) :
    s.KeepsFiles owned fresh (indexes g s titles).2 := by
  induction titles generalizing s with
  | nil => exact .refl _ _ _
  | cons c rest ih =>
    obtain ⟨hroom, hrest⟩ := List.forall_mem_cons.1 hrooms
    obtain ⟨hc, hlater⟩ := List.forall_mem_cons.1 hfresh
    rw [indexes]
    cases hindex : index g s c with
    | error e => exact .refl _ _ _
    | ok s1 =>
      obtain ⟨hs1, hgrows, -⟩ := index_ok hs hroom hindex
      exact (keepsFiles_index hroom hindex hc).trans
        (ih hs1 (fun b hb ↦ (hrest b hb).grows hgrows) hlater)

theorem keepsFiles_writeAll {files : List (List String × List UInt8)} (hs : Tidy s)
    (hplaced : ∀ f ∈ files, Placed s f.1) (howned : ∀ f ∈ files, owned f.1) :
    s.KeepsFiles owned fresh (writeAll g s files) := by
  induction files generalizing s with
  | nil => exact .refl _ _ _
  | cons file rest ih =>
    obtain ⟨hfile, hrest⟩ := List.forall_mem_cons.1 hplaced
    obtain ⟨hown, hothers⟩ := List.forall_mem_cons.1 howned
    have hgrows : Grows g [file.1] s (g.write s file.1 file.2) := hfile.grows_write hs _
    have hwrite : s.KeepsFiles (· = file.1) fresh (g.write s file.1 file.2) :=
      keepsFiles_write hfile.ne_nil hfile.folder _
    exact (hwrite.mono (fun _ h ↦ h ▸ hown) fun _ ↦ id).trans
      (ih (hs.write hfile.ne_nil hfile.parent _) (fun f hf ↦ (hrest f hf).grows hgrows) hothers)

/-- **Sidebars are written in the site and in its folders.** -/
theorem keepsFiles_sidebars (hs : Tidy s) :
    s.KeepsFiles (Owned style pages) fresh (sidebars g style title s).2 := by
  unfold sidebars
  cases SidebarStyle.ofName? style with
  | none => exact .refl _ _ _
  | some form =>
    refine keepsFiles_writeAll hs (placed_sidebarFiles hs form style _ _) fun f hf ↦ ?_
    have hname := List.mem_map_of_mem (f := Prod.fst) hf
    rw [map_fst_sidebarFiles] at hname
    rcases List.mem_cons.1 hname with h | h
    · rw [h]
      exact .sidebar
    · obtain ⟨name, -, h⟩ := List.mem_map.1 h
      rw [← h]
      exact .folderSidebar name

/-! ### What becomes of an index page -/

/-- What is written to the index page of a category. -/
def indexBytes (c : String × String) : List UInt8 :=
  Text.Utf8.ofString (indexText c.1 c.2)

/-- What can have become of the index page of the category `c` in the tree `s'` that comes of `s`,
when the categories `before` had their turn first. -/
inductive Indexed (g : Ground) (s s' : Entry) (denied : List (List String))
    (stops : FileError → Prop) (before : List (String × String)) (c : String × String) : Prop
  /-- Something stands there; if it is a file, it is the one that stood there at first or the one
  that the run writes. -/
  | there {e : Entry} (fits : g.fits (indexNames c.1) = true)
      (found : s'.get? (indexNames c.1) = some e)
      (origin : ∀ bytes, e = .file bytes →
        bytes = indexBytes c ∨ s.get? (indexNames c.1) = some (.file bytes))
  /-- It was to be written and could not be. -/
  | refused (told : indexNames c.1 ∈ denied) (denies : g.grants s' (indexNames c.1) = false)
  /-- Its place, or that of an earlier one, could not be looked at, and that was the end. -/
  | unseen {b : String × String} (mem : b ∈ before ++ [c])
      (stop : stops ⟨.nameTooLong, (g.path.along (indexNames b.1)).text⟩)

namespace Indexed

variable {denied denied' : List (List String)} {stops stops' : FileError → Prop}
  {before before' : List (String × String)} {c : String × String}

theorem mono (h : Indexed g s s' denied stops before c) (hdenied : denied ⊆ denied')
    (hstops : ∀ e, stops e → stops' e) (hbefore : before ⊆ before') :
    Indexed g s s' denied' stops' before' c := by
  cases h with
  | there fits found origin => exact .there fits found origin
  | refused told denies => exact .refused (hdenied told) denies
  | unseen mem stop =>
    refine .unseen ?_ (hstops _ stop)
    rw [List.mem_append] at mem ⊢
    exact mem.imp_left (hbefore ·)

/-- **What has become of an index page stays**, as long as its place is left alone. -/
theorem later {s'' : Entry} {touched : List (List String)}
    (h : Indexed g s s' denied stops before c) (hs' : Tidy s') (hgrows : Grows g touched s' s'')
    (hkeeps : s'.KeepsFiles owned fresh s'') (hns : ¬owned (indexNames c.1)) :
    Indexed g s s'' denied stops before c := by
  cases h with
  | @there e fits found origin =>
    -- a file stays the same one, and a folder does not become a file
    cases hs'.plain.get? found with
    | file bytes => exact .there fits (hkeeps.old hns found) origin
    | folder =>
      obtain ⟨e', he', hkind⟩ := hgrows.stays found
      refine .there fits he' ?_
      rintro bytes rfl
      cases hkind
  | refused told denies =>
    exact .refused told ((hgrows.grants_eq (not_isRoom_indexNames _)).trans denies)
  | unseen mem stop => exact .unseen mem stop

/-- What comes first brings no index page about, as long as its place is left alone. -/
theorem earlier {s₀ : Entry} (h : Indexed g s s' denied stops before c)
    (hkeeps : s₀.KeepsFiles owned fresh s) (hns : ¬owned (indexNames c.1))
    (hfresh : ¬fresh (indexNames c.1)) : Indexed g s₀ s' denied stops before c := by
  cases h with
  | there fits found origin =>
    exact .there fits found fun bytes he ↦ (origin bytes he).imp_right (hkeeps.new hns hfresh)
  | refused told denies => exact .refused told denies
  | unseen mem stop => exact .unseen mem stop

end Indexed

theorem error_of_index {c : String × String} {e : FileError} (h : index g s c = .error e) :
    e = ⟨.nameTooLong, (g.path.along (indexNames c.1)).text⟩ := by
  unfold index at h
  split at h
  · cases h
  · exact (Except.error.inj h).symm

/-- The turn of one index page whose place can be looked at. -/
theorem indexed_index {c : String × String} (hroom : Roomed s c) (h : index g s c = .ok s')
    (stops : FileError → Prop) (before : List (String × String)) :
    Indexed g s s' (if (s.get? (indexNames c.1)).isSome then [] else deniedAt g s (indexNames c.1))
      stops before c := by
  unfold index at h
  split at h
  · rename_i hfits
    rw [Except.ok.injEq] at h
    cases hget : s.get? (indexNames c.1) with
    | some e =>
      simp only [hget, Option.isSome_some, if_true] at h
      subst h
      exact .there hfits hget fun bytes he ↦ .inr (he ▸ hget)
    | none =>
      simp only [hget, Option.isSome_none, Bool.false_eq_true, if_false] at h
      subst h
      cases hgrants : g.grants s (indexNames c.1) with
      | true =>
        rw [Ground.write, if_pos hgrants]
        refine .there hfits
          (Entry.get?_put_self_of_folderAt (indexNames_ne_nil _) hroom.2 _) fun bytes he ↦ .inl ?_
        exact (Entry.file.inj he).symm
      | false =>
        rw [Ground.write, if_neg (by simp [hgrants])]
        exact .refused (by simp [deniedAt, hgrants]) hgrants
  · cases h

/-- **The index page of a category after that of all categories**: its turn comes unless the place
of an earlier one cannot be looked at, and what has become of it then stays. -/
theorem indexed_indexes {before later : List (String × String)} {c : String × String}
    (hs : Tidy s) (hrooms : ∀ b ∈ before ++ c :: later, Roomed s b)
    (hfirst : c.1 ∉ before.map Prod.fst) :
    Indexed g s (indexes g s (before ++ c :: later)).2
      (deniedIndexes g s (before ++ c :: later))
      (fun e ↦ (indexes g s (before ++ c :: later)).1 = .error e) before c := by
  induction before generalizing s with
  | nil =>
    obtain ⟨hroom, hlater⟩ := List.forall_mem_cons.1 hrooms
    rw [List.nil_append, indexes, deniedIndexes]
    cases hindex : index g s c with
    | error e => exact .unseen (b := c) (by simp) (by rw [error_of_index hindex])
    | ok s1 =>
      obtain ⟨hs1, hgrows1, -⟩ := index_ok hs hroom hindex
      have hrooms1 : ∀ b ∈ later, Roomed s1 b := fun b hb ↦ (hlater b hb).grows hgrows1
      obtain ⟨r, s', hindexes, -, hgrows, -⟩ := indexes_eq (g := g) hs1 hrooms1
      have hkeeps : s1.KeepsFiles (fun _ ↦ False) (fun _ ↦ True) (indexes g s1 later).2 :=
        keepsFiles_indexes hs1 hrooms1 fun _ _ ↦ trivial
      have hturn := indexed_index hroom hindex (fun e ↦ (indexes g s1 later).1 = .error e) []
      rw [hindexes] at hkeeps hturn
      simp only [hindexes]
      exact (hturn.later hs1 hgrows hkeeps id).mono (List.subset_append_left _ _)
        (fun _ ↦ id) (List.Subset.refl _)
  | cons b rest ih =>
    obtain ⟨hroom, hrest⟩ := List.forall_mem_cons.1 hrooms
    rw [List.map_cons, List.mem_cons, not_or] at hfirst
    rw [List.cons_append, indexes, deniedIndexes]
    cases hindex : index g s b with
    | error e => exact .unseen (b := b) (by simp) (by rw [error_of_index hindex])
    | ok s1 =>
      obtain ⟨hs1, hgrows1, -⟩ := index_ok hs hroom hindex
      have hkeeps : s.KeepsFiles (fun _ ↦ False) (· = indexNames b.1) s1 :=
        keepsFiles_index hroom hindex rfl
      have hother : indexNames c.1 ≠ indexNames b.1 := by simpa [indexNames] using hfirst.1
      have hturn := ih hs1 (fun d hd ↦ (hrest d hd).grows hgrows1) hfirst.2
      exact (hturn.earlier hkeeps id hother).mono (List.subset_append_right _ _) (fun _ ↦ id)
        (List.subset_cons_self _ _)

/-! ### The whole run -/

/-- **What comes after the index pages** leaves everything alone but the overview and the sidebars,
and reports the failure with which the index pages have ended. -/
theorem finish_of_indexes {written : List Written} (hs : Tidy s)
    (hrooms : ∀ c ∈ titlesOf written, Roomed s c) (style title : String) (pages : List Written)
    (fresh : List String → Prop) :
    (∃ touched, Grows g touched (indexes g s (titlesOf written)).2
        (finish g style title written s).2) ∧
      (indexes g s (titlesOf written)).2.KeepsFiles (Owned style pages) fresh
        (finish g style title written s).2 ∧
      ∀ e, (indexes g s (titlesOf written)).1 = .error e →
        (finish g style title written s).1 = .error (.file e) := by
  obtain ⟨r, s2, hindexes, hs2, -⟩ := indexes_eq (g := g) hs hrooms
  rw [finish, landings, hindexes]
  cases r with
  | error e => exact ⟨⟨[], .refl g s2⟩, .refl _ _ _, fun e' he ↦ by rw [Except.error.inj he]⟩
  | ok =>
    have hplaced := overview_placed hs2
    have hgrows3 : Grows g [[pageFileName overviewId]] s2 (overview g title written s2) :=
      hplaced.grows_write hs2 _
    have hs3 : Tidy (overview g title written s2) := hs2.write hplaced.ne_nil hplaced.parent _
    have hkeeps3 : s2.KeepsFiles (· = [pageFileName overviewId]) fresh
        (overview g title written s2) :=
      keepsFiles_write hplaced.ne_nil hplaced.folder _
    obtain ⟨r, s4, later, hsidebars, -, hgrows4, -⟩ := sidebars_eq (g := g) hs3 style title
    have hkeeps4 : (overview g title written s2).KeepsFiles (Owned style pages) fresh
        (sidebars g style title (overview g title written s2)).2 := keepsFiles_sidebars hs3
    rw [hsidebars] at hkeeps4
    simp only [hsidebars]
    refine ⟨⟨_, hgrows3.trans hgrows4⟩, ?_, fun e he ↦ by cases he⟩
    exact (hkeeps3.mono (fun _ h ↦ h ▸ .overview) fun _ ↦ id).trans hkeeps4

/-- **The frame of the bare run**: it writes over nothing but pages of its own, the overview and
sidebars, and brings nothing else about but index pages. -/
theorem keepsFiles_run (hs : Tidy s) (hnamed : ∀ p ∈ pages, p.Named)
    (hnodup : (pages.map Written.names).Nodup) (style title : String) :
    s.KeepsFiles (Owned style pages) (IsIndex pages) (run g style title pages s).2 := by
  obtain ⟨s1, hshelf, hs1, -, -, hrooms⟩ := shelveAll_eq (g := g) hs hnamed hnodup
  have hpages : s.KeepsFiles (Owned style pages) (IsIndex pages) (shelveAll g s pages).1 :=
    keepsFiles_foldl_shelveNext hs hnamed (fun _ ↦ .page) []
  have hindexes : s1.KeepsFiles (Owned style pages) (IsIndex pages)
      (indexes g s1 (titlesOf (pages.filter (shelves g s)))).2 := by
    refine keepsFiles_indexes hs1 hrooms fun c hc ↦ ?_
    obtain ⟨p, hp, rfl⟩ := exists_of_mem_titlesOf hc
    exact ⟨p, (List.mem_filter.1 hp).1, rfl⟩
  rw [hshelf] at hpages
  rw [run, hshelf]
  exact (hpages.trans hindexes).trans (finish_of_indexes hs1 hrooms style title pages _).2.1

/-- **What has become of the index page of a category with a page that was written** in the whole
run. -/
theorem indexed_run (hs : Tidy s) (hnamed : ∀ p ∈ pages, p.Named)
    (hnodup : (pages.map Written.names).Nodup) (style title : String)
    {before later : List (String × String)} {c : String × String}
    (htitles : titlesOf (pages.filter (shelves g s)) = before ++ c :: later) :
    Indexed g s (run g style title pages s).2 (denied g style title pages s)
      (fun e ↦ (run g style title pages s).1 = .error (.file e)) before c := by
  obtain ⟨s1, hshelf, hs1, -, -, hrooms⟩ := shelveAll_eq (g := g) hs hnamed hnodup
  have hpages : s.KeepsFiles (Owned style pages) (fun _ ↦ False) (shelveAll g s pages).1 :=
    keepsFiles_foldl_shelveNext hs hnamed (fun _ ↦ .page) []
  obtain ⟨⟨touched, hgrows⟩, hkeeps, hstops⟩ :=
    finish_of_indexes hs1 hrooms style title pages fun _ ↦ False
  have hfree := not_owned_indexNames hnamed style c.1
  have hfirst : c.1 ∉ before.map Prod.fst := by
    have hslugs := nodup_slugsOf (pages.filter (shelves g s))
    rw [slugsOf, htitles, List.map_append, List.map_cons] at hslugs
    exact fun hmem ↦ (List.nodup_append.1 hslugs).2.2 _ hmem _ (by simp) rfl
  have hturn := indexed_indexes (g := g) hs1 (fun b hb ↦ hrooms b (htitles ▸ hb)) hfirst
  rw [← htitles] at hturn
  obtain ⟨r, s2, hindexes, hs2, -⟩ := indexes_eq (g := g) hs1 hrooms
  rw [hshelf] at hpages
  have hsub : deniedIndexes g s1 (titlesOf (pages.filter (shelves g s)))
      ⊆ denied g style title pages s := by
    rw [denied, hshelf]
    refine List.subset_append_of_subset_right _ (List.subset_append_of_subset_left _ ?_)
    exact List.subset_append_left _ _
  rw [run, hshelf]
  refine ((hturn.later ?_ hgrows hkeeps hfree).earlier hpages hfree id).mono hsub hstops
    (List.Subset.refl _)
  rwa [hindexes]

end Bare

end Docwright.Site
