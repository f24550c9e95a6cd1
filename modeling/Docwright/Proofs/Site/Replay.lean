import Docwright.Proofs.Site.Settled

/-!
# Replaying the steps of the bare run

Each kind of step of the bare run has three lemmas: the tree it leaves has grown from the one it
found, the step is settled in the tree it leaves, and a settled step changes nothing. Runs of steps
are folds, and their lemmas are the folds of these: what a step settles stays settled to the end
because the places that the later steps touch are other ones.
-/

namespace Docwright.Site.Bare

open Files

variable {g : Ground} {touched : List (List String)} {s s' : Entry}

/-! ### Names of files -/

section Names

variable {p : Written}

theorem names_ne_nil : p.names ≠ [] :=
  List.cons_ne_nil _ _

theorem not_isRoom_names : ¬IsRoom p.names :=
  not_isRoom_pair _ _

theorem toList_pageFileName (pageId : String) :
    (pageFileName pageId).toList = pageId.toList ++ ['.', 'm', 'd'] := by
  simp [pageFileName]

theorem dot_not_mem_slug (h : p.Named) : '.' ∉ p.slug.toList :=
  h.slug.not_mem (by decide)

theorem slug_ne_parent (h : p.Named) : p.slug ≠ ".." := fun heq ↦
  dot_not_mem_slug h (heq ▸ by decide)

theorem parent_not_mem_names (h : p.Named) : ".." ∉ p.names := by
  have hfile : ".." ≠ pageFileName p.pageId := fun heq ↦ by
    have hlists := congrArg (fun s : String ↦ s.toList.getLast?) heq
    simp [toList_pageFileName] at hlists
  simpa [Written.names] using ⟨(slug_ne_parent h).symm, hfile⟩

theorem names_inj {p q : Written} :
    p.names = q.names ↔ p.slug = q.slug ∧ p.pageId = q.pageId := by
  have hfile : pageFileName p.pageId = pageFileName q.pageId ↔ p.pageId = q.pageId := by
    rw [← String.toList_inj, toList_pageFileName, toList_pageFileName,
      List.append_cancel_right_eq, String.toList_inj]
  rw [Written.names, Written.names, List.cons.injEq, List.cons.injEq, and_iff_left rfl, hfile]

theorem pageFileName_ne_index (h : p.Named) : pageFileName p.pageId ≠ "index.md" := fun heq ↦ by
  have hlists := congrArg String.toList heq
  rw [toList_pageFileName, show "index.md".toList = "index".toList ++ ['.', 'm', 'd'] by decide,
    List.append_cancel_right_eq, String.toList_inj] at hlists
  exact h.not_landing (by rw [hlists]; decide)

end Names

/-- **No two pages share a file.** -/
theorem nodup_names_placements (documents : List Page.Document) :
    ((placements documents).map Written.names).Nodup := by
  have hpairs := nodup_placements documents
  rw [List.Nodup, List.pairwise_map] at hpairs ⊢
  exact hpairs.imp fun hne heq ↦ hne (Prod.ext (names_inj.1 heq).1 (names_inj.1 heq).2)

/-! ### Pages -/

/-- A page that would not change the tree: its folder is there, unless it cannot be opened, and its
file is settled. -/
def Shelved (g : Ground) (s : Entry) (p : Written) : Prop :=
  g.opens s p.slug = true → s.folderAt [p.slug] = true ∧ Settled g s p.names p.bytes

section Page

variable {p : Written}

theorem Tidy.shelve (hs : Tidy s) (hp : p.Named) : Tidy (shelve g s p) := by
  unfold Bare.shelve
  split
  · exact (hs.make (slug_ne_parent hp)).write names_ne_nil (parent_not_mem_names hp) _
  · exact hs

theorem grows_shelve (hs : Tidy s) (hp : p.Named) : Grows g [p.names] s (shelve g s p) := by
  unfold shelve
  split
  · rename_i hopens
    have hmake : Grows g [] s (g.make s p.slug) := grows_make (dot_not_mem_slug hp) hs.folder
    exact hmake.trans (grows_write (hs.make (slug_ne_parent hp)).plain names_ne_nil
      not_isRoom_names (folderAt_make hs hopens) _)
  · exact (Grows.refl g s).mono (by simp)

/-- Whether a page can be written does not depend on its folder being made first. -/
theorem shelves_eq (hs : Tidy s) (hp : p.Named) :
    shelves g s p = (g.opens s p.slug && g.grants s p.names) := by
  rw [shelves, (grows_make (dot_not_mem_slug hp) hs.folder).grants_eq not_isRoom_names]

theorem shelves_eq_of_grows (hs : Tidy s) (hs' : Tidy s') (hp : p.Named)
    (hg : Grows g touched s s') : shelves g s' p = shelves g s p := by
  rw [shelves_eq hs hp, shelves_eq hs' hp, hg.opens_eq (dot_not_mem_slug hp),
    hg.grants_eq not_isRoom_names]

theorem shelved_shelve (hs : Tidy s) (hp : p.Named) : Shelved g (shelve g s p) p := by
  intro hopens
  rw [(grows_shelve hs hp).opens_eq (dot_not_mem_slug hp)] at hopens
  have hroom := folderAt_make hs hopens
  have hwrite : Grows g [p.names] (g.make s p.slug)
      (g.write (g.make s p.slug) p.names p.bytes) :=
    grows_write (hs.make (slug_ne_parent hp)).plain names_ne_nil
      not_isRoom_names hroom _
  rw [shelve, if_pos hopens]
  exact ⟨hwrite.folderAt hroom, settled_write names_ne_nil hroom _⟩

theorem Shelved.grows (h : Shelved g s p) (hp : p.Named) (hg : Grows g touched s s')
    (hnames : p.names ∉ touched) : Shelved g s' p := fun hopens ↦ by
  obtain ⟨hroom, hsettled⟩ := h (hg.opens_eq (dot_not_mem_slug hp) ▸ hopens)
  exact ⟨hg.folderAt hroom, hsettled.grows hg not_isRoom_names hnames⟩

/-- **A page on the shelf changes nothing.** -/
theorem Shelved.shelve_eq (h : Shelved g s p) : shelve g s p = s := by
  unfold shelve
  split
  · rename_i hopens
    obtain ⟨hroom, hsettled⟩ := h hopens
    obtain ⟨ms, hms⟩ := Entry.folderAt_iff.1 hroom
    have hmake : g.make s p.slug = s := by
      rw [Ground.make, if_neg (by simp [hms])]
    rw [hmake, hsettled.write_eq]
  · rfl

/-- A page that can be written is found. -/
theorem Shelved.get? (h : Shelved g s p) (hs : Tidy s) (hp : p.Named)
    (hshelves : shelves g s p = true) : s.get? p.names = some (.file p.bytes) := by
  rw [shelves_eq hs hp, Bool.and_eq_true] at hshelves
  exact (h hshelves.1).2 hshelves.2

end Page

/-! ### All pages -/

/-- **What all pages together leave.** The pages that were written are those that the tree at the
start lets be written, and every page is settled in the end. -/
theorem foldl_shelveNext {pages : List Written} (hs : Tidy s) (hnamed : ∀ p ∈ pages, p.Named)
    (hnodup : (pages.map Written.names).Nodup) (ws : List Written) :
    ∃ s', pages.foldl (shelveNext g) (s, ws) = (s', ws ++ pages.filter (shelves g s)) ∧ Tidy s' ∧
      Grows g (pages.map Written.names) s s' ∧ ∀ p ∈ pages, Shelved g s' p := by
  induction pages generalizing s ws with
  | nil => exact ⟨s, by simp, hs, Grows.refl g s, by simp⟩
  | cons p rest ih =>
    obtain ⟨hp, hrest⟩ := List.forall_mem_cons.1 hnamed
    obtain ⟨hfresh, hnodup⟩ := List.nodup_cons.1 hnodup
    have hstep := grows_shelve (g := g) hs hp
    have hs1 := Tidy.shelve (g := g) hs hp
    obtain ⟨s', hfold, hs', hgrows, hshelved⟩ :=
      ih hs1 hrest hnodup (if shelves g s p then ws ++ [p] else ws)
    -- whether the other pages can be written is decided by the tree at the start
    have hsame : rest.filter (shelves g (shelve g s p)) = rest.filter (shelves g s) :=
      List.filter_congr fun q hq ↦ shelves_eq_of_grows hs hs1 (hrest q hq) hstep
    refine ⟨s', ?_, hs', hstep.trans hgrows, List.forall_mem_cons.2 ⟨?_, hshelved⟩⟩
    · rw [List.foldl_cons, shelveNext, hfold, hsame, List.filter_cons]
      split <;> simp
    · exact (shelved_shelve hs hp).grows hp hgrows hfresh

/-- **Pages on the shelf change nothing**, and the same ones count as written. -/
theorem foldl_shelveNext_of_shelved {pages : List Written} (h : ∀ p ∈ pages, Shelved g s p)
    (ws : List Written) :
    pages.foldl (shelveNext g) (s, ws) = (s, ws ++ pages.filter (shelves g s)) := by
  induction pages generalizing ws with
  | nil => simp
  | cons p rest ih =>
    obtain ⟨hp, hrest⟩ := List.forall_mem_cons.1 h
    rw [List.foldl_cons, shelveNext, hp.shelve_eq, ih hrest, List.filter_cons]
    split <;> simp

/-! ### Index pages -/

/-- The category has its folder. -/
def Roomed (s : Entry) (category : String × String) : Prop :=
  '.' ∉ category.1.toList ∧ s.folderAt [category.1] = true

theorem Roomed.grows {category : String × String} (h : Roomed s category)
    (hg : Grows g touched s s') : Roomed s' category :=
  ⟨h.1, hg.folderAt h.2⟩

theorem indexNames_ne_nil (slug : String) : indexNames slug ≠ [] :=
  List.cons_ne_nil _ _

theorem not_isRoom_indexNames (slug : String) : ¬IsRoom (indexNames slug) :=
  not_isRoom_pair _ _

theorem parent_not_mem_indexNames {slug : String} (h : '.' ∉ slug.toList) :
    ".." ∉ indexNames slug := by
  have hslug : ".." ≠ slug := fun heq ↦ h (heq ▸ by decide)
  simpa [indexNames] using hslug

theorem index_ok {category : String × String} (hs : Tidy s) (hroom : Roomed s category)
    (h : index g s category = .ok s') :
    Tidy s' ∧ Grows g [indexNames category.1] s s' ∧
      (g.grants s' (indexNames category.1) = true →
        (s'.get? (indexNames category.1)).isSome = true) := by
  unfold index at h
  split at h
  · rw [Except.ok.injEq] at h
    split at h
    · rename_i hsome
      subst h
      exact ⟨hs, (Grows.refl g s).mono (by simp), fun _ ↦ hsome⟩
    · subst h
      refine ⟨hs.write (indexNames_ne_nil _) (parent_not_mem_indexNames hroom.1) _,
        grows_write hs.plain (indexNames_ne_nil _) (not_isRoom_indexNames _) hroom.2 _,
        fun hgrants ↦ ?_⟩
      rw [settled_write (indexNames_ne_nil _) hroom.2 _ hgrants]
      rfl
  · cases h

/-- **What all index pages together leave**, and that they change nothing later: where one was
missing there is one now or cannot be one, and the place that could not be looked at still
cannot. -/
theorem indexes_eq {titles : List (String × String)} (hs : Tidy s)
    (hrooms : ∀ c ∈ titles, Roomed s c) :
    ∃ r s', indexes g s titles = (r, s') ∧ Tidy s' ∧
      Grows g (titles.map fun c ↦ indexNames c.1) s s' ∧
      ∀ {touched s''}, Grows g touched s' s'' → indexes g s'' titles = (r, s'') := by
  induction titles generalizing s with
  | nil => exact ⟨.ok (), s, rfl, hs, Grows.refl g s, fun _ ↦ rfl⟩
  | cons category rest ih =>
    obtain ⟨hroom, hrest⟩ := List.forall_mem_cons.1 hrooms
    -- a place that cannot be looked at ends the run here, this time and every time
    by_cases hfits : g.fits (indexNames category.1) = true
    · obtain ⟨s1, hindex⟩ : ∃ s1, index g s category = .ok s1 := by
        rw [index, if_pos hfits]
        exact ⟨_, rfl⟩
      obtain ⟨hs1, hgrows1, hthere⟩ := index_ok hs hroom hindex
      obtain ⟨r, s', hindexes, hs', hgrows, hreplay⟩ :=
        ih hs1 fun c hc ↦ (hrest c hc).grows hgrows1
      refine ⟨r, s', by rw [indexes, hindex]; exact hindexes, hs', hgrows1.trans hgrows,
        fun {touched s''} hlater ↦ ?_⟩
      have hsame : index g s'' category = .ok s'' := by
        rw [index, if_pos hfits]
        split
        · rfl
        · rename_i hnone
          -- still nothing there: then the write was denied, and is denied again
          have hdenied : g.grants s'' (indexNames category.1) = false := by
            have hwhole := hgrows.trans hlater
            rw [hwhole.grants_eq (not_isRoom_indexNames _)]
            exact Bool.eq_false_iff.2 fun hgrants ↦ hnone (hwhole.isSome (hthere hgrants))
          rw [Ground.write, if_neg (by simp [hdenied])]
      rw [indexes, hsame]
      exact hreplay hlater
    · have herror : ∀ t, index g t category
          = .error ⟨.nameTooLong, (g.path.along (indexNames category.1)).text⟩ := fun t ↦ by
        rw [index, if_neg hfits]
      exact ⟨_, s, by rw [indexes, herror], hs, (Grows.refl g s).mono (by simp),
        fun _ ↦ by rw [indexes, herror]⟩

/-! ### Files that are written one after the other -/

/-- Names at which a file may stand: in a folder, and not where categories have theirs. -/
structure Placed (s : Entry) (ns : List String) : Prop where
  ne_nil : ns ≠ []
  parent : ".." ∉ ns
  room : ¬IsRoom ns
  folder : s.folderAt ns.dropLast = true

theorem Placed.grows {ns : List String} (h : Placed s ns) (hg : Grows g touched s s') :
    Placed s' ns :=
  ⟨h.ne_nil, h.parent, h.room, hg.folderAt h.folder⟩

theorem Placed.grows_write {ns : List String} (h : Placed s ns) (hs : Tidy s)
    (bytes : List UInt8) : Grows g [ns] s (g.write s ns bytes) :=
  Site.grows_write hs.plain h.ne_nil h.room h.folder bytes

/-- **What files at different places leave.** -/
theorem writeAll_eq {files : List (List String × List UInt8)} (hs : Tidy s)
    (hnodup : (files.map Prod.fst).Nodup) (hplaced : ∀ f ∈ files, Placed s f.1) :
    Tidy (writeAll g s files) ∧ Grows g (files.map Prod.fst) s (writeAll g s files) ∧
      ∀ f ∈ files, Settled g (writeAll g s files) f.1 f.2 := by
  induction files generalizing s with
  | nil => exact ⟨hs, Grows.refl g s, by simp⟩
  | cons file rest ih =>
    obtain ⟨hfile, hrest⟩ := List.forall_mem_cons.1 hplaced
    obtain ⟨hfresh, hnodup⟩ := List.nodup_cons.1 hnodup
    have hstep : Grows g [file.1] s (g.write s file.1 file.2) := hfile.grows_write hs _
    obtain ⟨hs', hgrows, hsettled⟩ := ih (hs.write hfile.ne_nil hfile.parent file.2) hnodup
      fun f hf ↦ (hrest f hf).grows hstep
    refine ⟨hs', hstep.trans hgrows, List.forall_mem_cons.2 ⟨?_, hsettled⟩⟩
    exact (settled_write hfile.ne_nil hfile.folder _).grows hgrows hfile.room hfresh

/-- **Settled files change nothing.** -/
theorem writeAll_of_settled {files : List (List String × List UInt8)}
    (h : ∀ f ∈ files, Settled g s f.1 f.2) : writeAll g s files = s := by
  induction files with
  | nil => rfl
  | cons file rest ih =>
    obtain ⟨hfile, hrest⟩ := List.forall_mem_cons.1 h
    rw [writeAll, List.foldl_cons, hfile.write_eq]
    exact ih hrest

/-- Files that are no pages leave the listing as it is. -/
theorem listingOf_writeAll {files : List (List String × List UInt8)} (hs : Tidy s)
    (hplaced : ∀ f ∈ files, Placed s f.1)
    (hsuffix : ∀ f ∈ files, ∀ name ∈ f.1.getLast?, suffixOf name ≠ ".md") (name : String) :
    listingOf name (writeAll g s files) = listingOf name s := by
  induction files generalizing s with
  | nil => rfl
  | cons file rest ih =>
    obtain ⟨hfile, hrest⟩ := List.forall_mem_cons.1 hplaced
    obtain ⟨hlast, hsuffix⟩ := List.forall_mem_cons.1 hsuffix
    have hstep : Grows g [file.1] s (g.write s file.1 file.2) := hfile.grows_write hs _
    refine (ih (hs.write hfile.ne_nil hfile.parent file.2) (fun f hf ↦ (hrest f hf).grows hstep)
      hsuffix).trans ?_
    unfold Ground.write
    split
    · rename_i hgrants
      simp only [Ground.grants, Bool.and_eq_true, Bool.not_eq_true'] at hgrants
      exact listingOf_put hfile.ne_nil hlast hs.plain hfile.folder hgrants.2 file.2 name
    · rfl

/-! ### Sidebars -/

theorem dot_mem_fileName (style : String) : '.' ∈ (SidebarStyle.fileName style).toList := by
  unfold SidebarStyle.fileName
  split <;> decide

theorem fileName_ne_parent (style : String) : SidebarStyle.fileName style ≠ ".." := by
  unfold SidebarStyle.fileName
  split <;> decide

/-- A sidebar is no page. -/
theorem suffixOf_fileName (style : String) : suffixOf (SidebarStyle.fileName style) ≠ ".md" := by
  unfold SidebarStyle.fileName
  split <;> decide

theorem map_fst_filesOf (texts : List (List String × String)) :
    (filesOf texts).map Prod.fst = texts.map Prod.fst := by
  rw [filesOf, List.map_map]
  rfl

theorem map_fst_sidebarFiles (form : SidebarStyle) (fileName : String) (nav : NavNode)
    (listing : Listing) :
    (sidebarFiles form fileName nav listing).map Prod.fst
      = [fileName] :: (listing.folders.map Listing.name).map fun name ↦ [name, fileName] := by
  rw [sidebarFiles, map_fst_filesOf, sidebarTexts, List.map_cons, List.map_map, List.map_map]
  rfl

theorem getLast?_sidebarFiles {form : SidebarStyle} {fileName : String} {nav : NavNode}
    {listing : Listing} :
    ∀ f ∈ sidebarFiles form fileName nav listing, f.1.getLast? = some fileName := by
  intro f hf
  have hname := List.mem_map_of_mem (f := Prod.fst) hf
  rw [map_fst_sidebarFiles] at hname
  rcases List.mem_cons.1 hname with h | h
  · rw [h]
    rfl
  · obtain ⟨name, -, h⟩ := List.mem_map.1 h
    rw [← h]
    rfl

theorem nodup_sidebarFiles (form : SidebarStyle) (fileName : String) (nav : NavNode)
    (listing : Listing) (h : (listing.folders.map Listing.name).Nodup) :
    ((sidebarFiles form fileName nav listing).map Prod.fst).Nodup := by
  rw [map_fst_sidebarFiles]
  refine List.nodup_cons.2 ⟨by simp, ?_⟩
  exact h.map (f := fun name ↦ [name, fileName]) fun a b hab ↦ by simpa using hab

theorem placed_sidebarTexts (hs : Tidy s) (form : SidebarStyle) (style : String) (nav : NavNode)
    (name : String) :
    ∀ f ∈ sidebarTexts form (SidebarStyle.fileName style) nav (listingOf name s),
      Placed s f.1 := by
  obtain ⟨ms, rfl⟩ := Entry.isFolder_iff.1 hs.folder
  refine List.forall_mem_cons.2 ⟨?_, ?_⟩
  · exact ⟨by simp, by simpa using (fileName_ne_parent style).symm,
      not_isRoom_of_dot (dot_mem_fileName style), hs.folderAt_nil⟩
  · intro f hf
    obtain ⟨l, hl, rfl⟩ := List.mem_map.1 hf
    obtain ⟨hname, hfolder⟩ := folderAt_of_mem_foldersIn hs.plain hl
    exact ⟨by simp, by simpa using ⟨hname.symm, (fileName_ne_parent style).symm⟩,
      not_isRoom_pair _ _, hfolder⟩

theorem placed_sidebarFiles (hs : Tidy s) (form : SidebarStyle) (style : String) (nav : NavNode)
    (name : String) :
    ∀ f ∈ sidebarFiles form (SidebarStyle.fileName style) nav (listingOf name s),
      Placed s f.1 := by
  intro f hf
  obtain ⟨text, htext, rfl⟩ := List.mem_map.1 hf
  exact placed_sidebarTexts hs form style nav name text htext

/-- **What the sidebars leave**, and that they change nothing the second time: they are made from a
listing that they are not part of. -/
theorem sidebars_eq (hs : Tidy s) (style title : String) :
    ∃ r s' touched, sidebars g style title s = (r, s') ∧ Tidy s' ∧ Grows g touched s s' ∧
      (∀ ns ∈ touched, ns.getLast? = some (SidebarStyle.fileName style)) ∧
      sidebars g style title s' = (r, s') := by
  unfold sidebars
  cases SidebarStyle.ofName? style with
  | none => exact ⟨_, s, [], rfl, hs, Grows.refl g s, by simp, rfl⟩
  | some form =>
    obtain ⟨ms, rfl⟩ := Entry.isFolder_iff.1 hs.folder
    have hnodup := nodup_sidebarFiles form (SidebarStyle.fileName style)
      (navigation (listingOf g.path.name (.folder ms)) "" (some title))
      (listingOf g.path.name (.folder ms)) (nodup_foldersIn hs.plain)
    have hplaced := placed_sidebarFiles hs form style
      (navigation (listingOf g.path.name (.folder ms)) "" (some title)) g.path.name
    have hlisting := listingOf_writeAll (g := g) hs hplaced (fun f hf name hname ↦ by
      rw [getLast?_sidebarFiles f hf, Option.mem_some_iff] at hname
      exact hname ▸ suffixOf_fileName style) g.path.name
    -- sidebars are no pages, so the second listing is the first one and asks for the same files
    obtain ⟨hs', hgrows, hsettled⟩ := writeAll_eq (g := g) hs hnodup hplaced
    refine ⟨_, _, _, rfl, hs', hgrows, fun ns hns ↦ ?_, ?_⟩
    · obtain ⟨f, hf, rfl⟩ := List.mem_map.1 hns
      exact getLast?_sidebarFiles f hf
    · simp only [hlisting]
      rw [writeAll_of_settled hsettled]

/-! ### The whole run -/

theorem exists_of_mem_titlesOf {pages : List Written} {c : String × String}
    (h : c ∈ titlesOf pages) :
    ∃ p ∈ pages, c = (p.slug, categoryName p.document.category) := by
  induction pages using List.reverseRecOn with
  | nil => cases h
  | append_singleton pages p ih =>
    have hold : c ∈ titlesOf pages → ∃ q ∈ pages ++ [p],
        c = (q.slug, categoryName q.document.category) := fun hc ↦ by
      obtain ⟨q, hq, heq⟩ := ih hc
      exact ⟨q, List.mem_append_left _ hq, heq⟩
    rw [titlesOf_append] at h
    split at h
    · exact hold h
    · rcases List.mem_append.1 h with h | h
      · exact hold h
      · exact ⟨p, by simp, List.mem_singleton.1 h⟩

theorem names_ne_indexNames {p : Written} (hp : p.Named) (slug : String) :
    p.names ≠ indexNames slug := fun h ↦ by
  simp only [Written.names, indexNames, List.cons.injEq, and_true] at h
  exact pageFileName_ne_index hp h.2

/-- No page has the name of a sidebar. -/
theorem pageFileName_ne_fileName (pageId style : String) :
    pageFileName pageId ≠ SidebarStyle.fileName style := fun h ↦ by
  have hlast := congrArg (fun s : String ↦ s.toList.getLast?) h
  have hpage : (pageFileName pageId).toList.getLast? = some 'd' := by
    rw [toList_pageFileName]
    simp
  simp only [hpage] at hlast
  revert hlast
  unfold SidebarStyle.fileName
  split <;> decide

theorem names_ne_overview (p : Written) : p.names ≠ [pageFileName overviewId] := by
  simp [Written.names]

theorem overview_placed (hs : Tidy s) : Placed s [pageFileName overviewId] :=
  ⟨by simp, by decide, not_isRoom_of_dot (by decide), hs.folderAt_nil⟩

/-- **What the landing pages leave**, and that they change nothing as long as the overview is left
alone. -/
theorem landings_eq {written : List Written} (hs : Tidy s)
    (hrooms : ∀ c ∈ titlesOf written, Roomed s c) (title : String) :
    ∃ r s' touched, landings g title written s = (r, s') ∧ Tidy s' ∧ Grows g touched s s' ∧
      (∀ p : Written, p.Named → p.names ∉ touched) ∧
      ∀ {later s''}, Grows g later s' s'' → [pageFileName overviewId] ∉ later →
        landings g title written s'' = (r, s'') := by
  obtain ⟨r, s2, hindexes, hs2, hgrows2, hreplay⟩ := indexes_eq (g := g) hs hrooms
  have hindexNames : ∀ p : Written, p.Named →
      p.names ∉ (titlesOf written).map fun c ↦ indexNames c.1 := fun p hp hmem ↦ by
    obtain ⟨c, -, hc⟩ := List.mem_map.1 hmem
    exact names_ne_indexNames hp c.1 hc.symm
  cases r with
  | error e =>
    exact ⟨.error e, s2, _, by rw [landings, hindexes], hs2, hgrows2, hindexNames,
      fun hlater _ ↦ by rw [landings, hreplay hlater]⟩
  | ok =>
    have hplaced := overview_placed hs2
    have hgrows : Grows g [[pageFileName overviewId]] s2 (overview g title written s2) :=
      hplaced.grows_write hs2 _
    refine ⟨.ok (), overview g title written s2, _, by rw [landings, hindexes],
      hs2.write hplaced.ne_nil hplaced.parent _, hgrows2.trans hgrows, fun p hp hmem ↦ ?_,
      fun {later s''} hlater hfree ↦ ?_⟩
    · rcases List.mem_append.1 hmem with hmem | hmem
      · exact hindexNames p hp hmem
      · exact names_ne_overview p (List.mem_singleton.1 hmem)
    · have hsettled := (settled_write hplaced.ne_nil hplaced.folder _).grows hlater
        hplaced.room hfree
      rw [landings, hreplay (hgrows.trans hlater)]
      simp only [overview]
      rw [hsettled.write_eq]

/-- **What everything after the pages leaves**, and that it changes nothing the second time. -/
theorem finish_eq {written : List Written} (hs : Tidy s)
    (hrooms : ∀ c ∈ titlesOf written, Roomed s c) (style title : String) :
    ∃ r s' touched, finish g style title written s = (r, s') ∧ Tidy s' ∧ Grows g touched s s' ∧
      (∀ p : Written, p.Named → p.names ∉ touched) ∧
      finish g style title written s' = (r, s') := by
  obtain ⟨r, s1, touched, hlandings, hs1, hgrows1, hpages, hreplay⟩ :=
    landings_eq (g := g) hs hrooms title
  cases r with
  | error e =>
    exact ⟨.error (.file e), s1, touched, by rw [finish, hlandings], hs1, hgrows1, hpages,
      by rw [finish, hreplay (Grows.refl g s1) (by simp)]⟩
  | ok =>
    obtain ⟨r, s', later, hsidebars, hs', hgrows, hlast, hagain⟩ :=
      sidebars_eq (g := g) hs1 style title
    -- a sidebar never has the name of a page, so it disturbs neither pages nor the overview
    have hfree : ∀ pageId, ∀ ns ∈ later, ns.getLast? ≠ some (pageFileName pageId) :=
      fun pageId ns hns heq ↦ by
        rw [hlast ns hns, Option.some.injEq] at heq
        exact pageFileName_ne_fileName pageId style heq.symm
    refine ⟨r, s', touched ++ later, by rw [finish, hlandings]; exact hsidebars, hs',
      hgrows1.trans hgrows, fun p hp hmem ↦ ?_, ?_⟩
    · rcases List.mem_append.1 hmem with hmem | hmem
      · exact hpages p hp hmem
      · exact hfree p.pageId _ hmem rfl
    · rw [finish, hreplay hgrows fun hmem ↦ hfree overviewId _ hmem rfl]
      exact hagain

/-- What all pages leave; every category with a written page has its folder. -/
theorem shelveAll_eq {pages : List Written} (hs : Tidy s) (hnamed : ∀ p ∈ pages, p.Named)
    (hnodup : (pages.map Written.names).Nodup) :
    ∃ s1, shelveAll g s pages = (s1, pages.filter (shelves g s)) ∧ Tidy s1 ∧
      Grows g (pages.map Written.names) s s1 ∧ (∀ p ∈ pages, Shelved g s1 p) ∧
      ∀ c ∈ titlesOf (pages.filter (shelves g s)), Roomed s1 c := by
  obtain ⟨s1, hshelf, hs1, hgrows1, hshelved⟩ := foldl_shelveNext (g := g) hs hnamed hnodup []
  refine ⟨s1, by rw [shelveAll, hshelf, List.nil_append], hs1, hgrows1, hshelved, fun c hc ↦ ?_⟩
  obtain ⟨p, hp, rfl⟩ := exists_of_mem_titlesOf hc
  obtain ⟨hmem, hshelves⟩ := List.mem_filter.1 hp
  rw [← shelves_eq_of_grows hs hs1 (hnamed p hmem) hgrows1,
    shelves_eq hs1 (hnamed p hmem), Bool.and_eq_true] at hshelves
  exact ⟨dot_not_mem_slug (hnamed p hmem), (hshelved p hmem hshelves.1).1⟩

/-- **The whole run**: the pages come first and are settled from then on, because nothing that comes
later touches their places; and a second run finds everything settled. -/
theorem run_eq {pages : List Written} (hs : Tidy s) (hnamed : ∀ p ∈ pages, p.Named)
    (hnodup : (pages.map Written.names).Nodup) (style title : String) :
    ∃ r s' touched, run g style title pages s = (r, s') ∧ Tidy s' ∧ Grows g touched s s' ∧
      (∀ p ∈ pages, Shelved g s' p) ∧ run g style title pages s' = (r, s') := by
  obtain ⟨s1, hshelf, hs1, hgrows1, hshelved, hrooms⟩ := shelveAll_eq (g := g) hs hnamed hnodup
  obtain ⟨r, s', touched, hfinish, hs', hgrows, htouched, hagain⟩ :=
    finish_eq (g := g) hs1 hrooms style title
  have hshelved' : ∀ p ∈ pages, Shelved g s' p := fun p hp ↦
    (hshelved p hp).grows (hnamed p hp) hgrows (htouched p (hnamed p hp))
  have hsame : pages.filter (shelves g s') = pages.filter (shelves g s) :=
    List.filter_congr fun p hp ↦
      shelves_eq_of_grows hs hs' (hnamed p hp) (hgrows1.trans hgrows)
  refine ⟨r, s', _, ?_, hs', hgrows1.trans hgrows, hshelved', ?_⟩
  · rw [run, hshelf]
    exact hfinish
  · rw [run, shelveAll, foldl_shelveNext_of_shelved hshelved', List.nil_append, hsame]
    exact hagain

end Docwright.Site.Bare
