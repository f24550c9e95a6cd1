import Docwright.Proofs.Site.Replay

/-!
# The bare run is what happens

`materialize_eq_bare`: on a disk that carries a folder without links at the destination,
`materialize` gives the navigation or the failure of the bare run and leaves its tree, and what it
adds to the log accounts for the files that could not be written (`Accounts`): each of them is told
of, and when there are none the writer says nothing.

The two runs are followed side by side. `Stands` says that the workshop has reached a tree with a
log that has grown; each step of the writer keeps it, for the tree after the same step of the bare
run.
-/

namespace Docwright.Site

open Files

/-! ### Telling of failures -/

/-- The log tells of a failure to write where the path leads. -/
def Tells (log : Log) (p : Path) : Prop :=
  ∃ e, (⟨.warning, "materializer", writeFailure p e⟩ : Record) ∈ log

/-- The log tells of all the files that were denied, and of none when there is none. -/
structure Accounts (g : Ground) (log : Log) (denied : List (List String)) : Prop where
  tells : ∀ ns ∈ denied, Tells log (g.path.along ns)
  quiet : denied = [] → ∀ r ∈ log, r.component ≠ "materializer"

variable {g : Ground}

theorem Tells.append_left {a : Log} {p : Path} (h : Tells a p) (b : Log) : Tells (a ++ b) p := by
  obtain ⟨e, he⟩ := h
  exact ⟨e, List.mem_append_left b he⟩

theorem Tells.append_right {b : Log} {p : Path} (h : Tells b p) (a : Log) : Tells (a ++ b) p := by
  obtain ⟨e, he⟩ := h
  exact ⟨e, List.mem_append_right a he⟩

namespace Accounts

/-- Records of other parts of the program account for nothing. -/
theorem of_component {log : Log} (h : ∀ r ∈ log, r.component ≠ "materializer") :
    Accounts g log [] :=
  ⟨by simp, fun _ ↦ h⟩

theorem append {a b : Log} {denied denied' : List (List String)} (ha : Accounts g a denied)
    (hb : Accounts g b denied') : Accounts g (a ++ b) (denied ++ denied') := by
  refine ⟨fun ns hns ↦ ?_, fun hnil r hr ↦ ?_⟩
  · rcases List.mem_append.1 hns with hns | hns
    · exact (ha.tells ns hns).append_left b
    · exact (hb.tells ns hns).append_right a
  · obtain ⟨hnil, hnil'⟩ := List.append_eq_nil_iff.1 hnil
    rcases List.mem_append.1 hr with hr | hr
    · exact ha.quiet hnil r hr
    · exact hb.quiet hnil' r hr

theorem failure (ns : List String) (e : FileError) :
    Accounts g (writeFailureLog (g.path.along ns) e) [ns] := by
  refine ⟨fun ns' hns ↦ ?_, by simp⟩
  rw [List.mem_singleton.1 hns]
  exact ⟨e, by simp [writeFailureLog]⟩

/-- When the writer says nothing, nothing was denied. -/
theorem denied_eq_nil {log : Log} {denied : List (List String)} (h : Accounts g log denied)
    (hquiet : ∀ r ∈ log, r.component ≠ "materializer") : denied = [] := by
  refine List.eq_nil_iff_forall_not_mem.2 fun ns hns ↦ ?_
  obtain ⟨e, he⟩ := h.tells ns hns
  exact hquiet _ he rfl

end Accounts

/-- What a note to a job adds to the log. -/
theorem exists_log_note (l : Ledger) (job : Option String) (message : String) :
    ∃ more, (l.note job message).log = l.log ++ more ∧
      ∀ r ∈ more, r.component ≠ "materializer" := by
  cases job with
  | none => exact ⟨[], by simp [Ledger.note], by simp⟩
  | some id =>
    exact ⟨Ledger.lineLog id message, rfl, by simp [Ledger.lineLog]⟩

/-! ### Step by step -/

/-- The workshop has reached the tree `site` on the ground, and its log has grown by `more` and
accounts for what was denied. -/
structure Stands (made : Disk) (g : Ground) (old : Log) (w : Workshop) (site : Entry)
    (denied : List (List String)) : Prop where
  carries : w.disk.Carries g site
  replaced : ∀ e, w.disk.replaced g e = made.replaced g e
  log : ∃ more, w.ledger.log = old ++ more ∧ Accounts g more denied

variable {made : Disk} {old : Log} {w : Workshop} {site : Entry} {denied : List (List String)}

namespace Stands

theorem tidy (h : Stands made g old w site denied) : Tidy site :=
  ⟨h.carries.folder, h.carries.plain⟩

theorem start (h : made.Carries g site) (l : Ledger) : Stands made g l.log ⟨made, l⟩ site [] :=
  ⟨h, fun _ ↦ rfl, [], by simp, .of_component (by simp)⟩

/-- More records, for what was denied in the meantime. -/
theorem record (h : Stands made g old w site denied) {l : Ledger} {more : Log}
    {denied' : List (List String)} (hlog : l.log = w.ledger.log ++ more)
    (hmore : Accounts g more denied') :
    Stands made g old ⟨w.disk, l⟩ site (denied ++ denied') := by
  obtain ⟨before, hbefore, haccounts⟩ := h.log
  exact ⟨h.carries, h.replaced, before ++ more, by rw [hlog, hbefore, List.append_assoc],
    haccounts.append hmore⟩

/-- Another tree. -/
theorem move (h : Stands made g old w site denied) {site' : Entry}
    (hcarries : (w.disk.replaced g site').Carries g site') :
    Stands made g old ⟨w.disk.replaced g site', w.ledger⟩ site' denied :=
  ⟨hcarries, fun e ↦ (h.carries.replaced_replaced site' e).trans (h.replaced e), h.log⟩

/-- **Writing a file, or telling that it cannot be written.** -/
theorem writeOrReport (h : Stands made g old w site denied) {ns : List String}
    (hns : Bare.Placed site ns) (text : String) :
    Stands made g old (writeOrReport w (g.path.along ns) text)
      (g.write site ns (Text.Utf8.ofString text)) (denied ++ Bare.deniedAt g site ns) := by
  have hcarries :=
    h.carries.replaced_write hns.ne_nil hns.parent hns.folder (Text.Utf8.ofString text)
  rcases h.carries.write_along hns.ne_nil hns.parent hns.folder (Text.Utf8.ofString text) with
    ⟨hgrants, hwrite⟩ | ⟨hdenied, e, hwrite⟩
  · rw [Site.writeOrReport, Disk.writeText, hwrite]
    simp only [Bare.deniedAt, hgrants, if_true, List.append_nil]
    rw [Ground.write, if_pos hgrants] at hcarries ⊢
    exact h.move hcarries
  · rw [Site.writeOrReport, Disk.writeText, hwrite, Ground.write, if_neg (by simp [hdenied])]
    simp only [Bare.deniedAt, hdenied, Bool.false_eq_true, if_false]
    exact h.record rfl (.failure ns e)

end Stands

/-! ### Pages -/

theorem along_names (p : Written) (root : Path) :
    (root.child p.slug).child (pageFileName p.pageId) = root.along p.names :=
  Path.child_child_eq_along _ _ _

/-- **Writing a page does what the bare run does**, and succeeds when the bare run lets it. -/
theorem writePage_cases {d : Disk} (h : d.Carries g site) {p : Written} (hp : p.Named) :
    (d.replaced g (Bare.shelve g site p)).Carries g (Bare.shelve g site p) ∧
    ((Bare.shelves g site p = true ∧ writePage d (g.path.child p.slug) p.pageId p.document
        = (.ok (), d.replaced g (Bare.shelve g site p))) ∨
      (Bare.shelves g site p = false ∧ ∃ e, writePage d (g.path.child p.slug) p.pageId p.document
        = (.error e, d.replaced g (Bare.shelve g site p)))) := by
  rw [writePage, along_names, Path.child_eq_along, Bare.shelve, Bare.shelves]
  -- first the folder, then the file in the tree that has the folder
  rcases h.makeFolders_along (Bare.slug_ne_parent hp) with ⟨hopens, hmake⟩ | ⟨hcloses, e, hmake⟩
  · have hroom := folderAt_make ⟨h.folder, h.plain⟩ hopens
    have hmade := h.replaced_make (g := g) (Bare.slug_ne_parent hp)
    have hwritten :=
      hmade.replaced_write Bare.names_ne_nil (Bare.parent_not_mem_names hp) hroom p.bytes
    rw [h.replaced_replaced] at hwritten
    rw [hmake, hopens, if_pos rfl]
    refine ⟨hwritten, ?_⟩
    rcases hmade.write_along Bare.names_ne_nil (Bare.parent_not_mem_names hp) hroom p.bytes with
      ⟨hgrants, hwrite⟩ | ⟨hdenied, e, hwrite⟩
    · left
      refine ⟨by simp [hgrants], ?_⟩
      rw [h.replaced_replaced] at hwrite
      simp only [Disk.writeText]
      rw [show Text.Utf8.ofString (pageText p.pageId p.document) = p.bytes from rfl, hwrite,
        Ground.write, if_pos hgrants]
    · right
      refine ⟨by simp [hdenied], e, ?_⟩
      simp only [Disk.writeText]
      rw [show Text.Utf8.ofString (pageText p.pageId p.document) = p.bytes from rfl, hwrite,
        Ground.write, if_neg (by simp [hdenied])]
  · rw [hmake, hcloses, if_neg (by simp), h.replaced_self]
    exact ⟨h, Or.inr ⟨by simp, e, rfl⟩⟩

/-- The shelf agrees with the bare run after the pages `before`. -/
structure Shelf.Agrees (made : Disk) (g : Ground) (old : Log) (start : Entry) (s : Shelf)
    (before : List Written) (b : Entry × List Written) : Prop where
  stands : Stands made g old s.workshop b.1 (Bare.deniedPages g start before)
  grows : ∃ touched, Grows g touched start b.1
  written : s.written = b.2
  titles : s.titles = titlesOf b.2
  taken : ∀ slug, (s.taken.lookup slug).getD [] = idsUnder slug before

theorem idsUnder_append (slug : String) (before : List Written) (p : Written) :
    idsUnder slug (before ++ [p])
      = if slug = p.slug then idsUnder slug before ++ [p.pageId] else idsUnder slug before := by
  rw [idsUnder, List.filter_append, List.map_append, ← idsUnder]
  by_cases h : slug = p.slug
  · simp [h]
  · simp [h, Ne.symm h]

/-- The ids that are taken after one more page. -/
theorem lookup_taken {taken : List (String × List String)} {before : List Written}
    (h : ∀ slug, (taken.lookup slug).getD [] = idsUnder slug before) (p : Written)
    (slug : String) :
    ((Json.setField taken p.slug ((taken.lookup p.slug).getD [] ++ [p.pageId])).lookup slug).getD []
      = idsUnder slug (before ++ [p]) := by
  rw [Json.lookup_setField, idsUnder_append]
  by_cases hslug : slug = p.slug
  · rw [if_pos hslug, if_pos hslug, Option.getD_some, h, hslug]
  · rw [if_neg hslug, if_neg hslug, h]

/-- What is put on the shelf is the page that the document is named as. -/
theorem Shelf.add_eq (root : Path) (job : Option String) (s : Shelf) (d : Page.Document)
    {p : Written} (hp : p = ⟨d, categorySlug d.category,
      freeId (fileId d.id) ((s.taken.lookup (categorySlug d.category)).getD [])⟩) :
    Shelf.add root job s d
      = match writePage s.workshop.disk (root.child p.slug) p.pageId p.document with
        | (.error e, disk) =>
          { s with
            taken := Json.setField s.taken p.slug ((s.taken.lookup p.slug).getD [] ++ [p.pageId])
            workshop := ⟨disk, (s.workshop.ledger.record
              (writeFailureLog ((root.child p.slug).child (pageFileName p.pageId)) e)).note job
              s!"Failed to write {d.title}: {writeFailure
                ((root.child p.slug).child (pageFileName p.pageId)) e}"⟩ }
        | (.ok (), disk) =>
          { s with
            taken := Json.setField s.taken p.slug ((s.taken.lookup p.slug).getD [] ++ [p.pageId])
            workshop := ⟨disk,
              s.workshop.ledger.note job s!"Wrote {p.slug}/{pageFileName p.pageId}"⟩
            written := s.written ++ [p]
            titles :=
              if (s.titles.lookup p.slug).isSome then s.titles
              else s.titles ++ [(p.slug, categoryName p.document.category)] } := by
  have hslug : categorySlug d.category = p.slug := by rw [hp]
  have hid : freeId (fileId d.id) ((s.taken.lookup p.slug).getD []) = p.pageId := by
    rw [← hslug, hp]
  have hdocument : p.document = d := by rw [hp]
  have hpage : (⟨d, p.slug, p.pageId⟩ : Written) = p := by rw [← hdocument]
  -- with the result of writing at hand both sides are the same branch
  obtain ⟨r, disk, hwrite⟩ : ∃ r disk,
      writePage s.workshop.disk (root.child p.slug) p.pageId d = (r, disk) := ⟨_, _, rfl⟩
  cases r with
  | error e => simp only [Shelf.add, hslug, hid, hdocument, hwrite]
  | ok => simp only [Shelf.add, hslug, hid, hpage, hdocument, hwrite]

/-- **One document after the other, the shelf agrees with the bare run.** -/
theorem Shelf.Agrees.add {start : Entry} {s : Shelf} {before : List Written}
    {b : Entry × List Written} (hstart : Tidy start)
    (h : Shelf.Agrees made g old start s before b) (job : Option String) (d : Page.Document)
    (hp : (nameAfter before d).Named) :
    Shelf.Agrees made g old start (Shelf.add g.path job s d) (place before d)
      (Bare.shelveNext g b (nameAfter before d)) := by
  obtain ⟨touched, hgrows⟩ := h.grows
  have hname : nameAfter before d
      = ⟨d, categorySlug d.category,
        freeId (fileId d.id) ((s.taken.lookup (categorySlug d.category)).getD [])⟩ := by
    rw [nameAfter, h.taken]
  rw [Shelf.add_eq g.path job s d hname, place]
  generalize nameAfter before d = p at hp
  -- the log accounts for what is denied at the start, the writer meets the tree so far
  have hsame : Bare.shelves g b.1 p = Bare.shelves g start p :=
    Bare.shelves_eq_of_grows hstart h.stands.tidy hp hgrows
  have htaken := lookup_taken h.taken p
  have hlater : ∃ touched, Grows g touched start (Bare.shelve g b.1 p) :=
    ⟨_, hgrows.trans (Bare.grows_shelve h.stands.tidy hp)⟩
  obtain ⟨hcarries, ⟨hshelves, hwrite⟩ | ⟨hdenied, e, hwrite⟩⟩ :=
    writePage_cases h.stands.carries hp
  · rw [hwrite]
    obtain ⟨more, hlog, hquiet⟩ := exists_log_note s.workshop.ledger job
      s!"Wrote {p.slug}/{pageFileName p.pageId}"
    have hnone : Bare.deniedPages g start (before ++ [p])
        = Bare.deniedPages g start before ++ [] := by
      simp [Bare.deniedPages, ← hsame, hshelves]
    refine ⟨?_, by simpa [Bare.shelveNext] using hlater, ?_, ?_, htaken⟩
    · rw [hnone]
      exact (h.stands.move hcarries).record hlog (.of_component hquiet)
    · simp only [Bare.shelveNext, hshelves, if_true, h.written]
    · simp only [Bare.shelveNext, hshelves, if_true, h.titles, titlesOf_append]
  · rw [hwrite, along_names]
    obtain ⟨more, hlog, hquiet⟩ := exists_log_note
      (s.workshop.ledger.record (writeFailureLog (g.path.along p.names) e)) job
      s!"Failed to write {d.title}: {writeFailure (g.path.along p.names) e}"
    have hone : Bare.deniedPages g start (before ++ [p])
        = Bare.deniedPages g start before ++ [p.names] ++ [] := by
      simp [Bare.deniedPages, ← hsame, hdenied]
    refine ⟨?_, by simpa [Bare.shelveNext] using hlater, ?_, ?_, htaken⟩
    · rw [hone]
      exact ((h.stands.move hcarries).record rfl (.failure p.names e)).record hlog
        (.of_component hquiet)
    · simp only [Bare.shelveNext, hdenied, h.written, Bool.false_eq_true, if_false]
    · simp only [Bare.shelveNext, hdenied, h.titles, Bool.false_eq_true, if_false]

theorem named_nameAfter (documents : List Page.Document) (d : Page.Document) :
    (nameAfter (placements documents) d).Named := by
  have hmem : nameAfter (placements documents) d ∈ placements (documents ++ [d]) := by
    rw [placements_append, place]
    exact List.mem_append_right _ List.mem_cons_self
  exact named_of_mem_placements hmem

/-- **All documents together**: the shelf agrees with the bare run over the placements. -/
theorem Shelf.agrees_foldl (hmade : made.Carries g site) (l : Ledger) (job : Option String)
    (documents : List Page.Document) :
    Shelf.Agrees made g l.log site
      (documents.foldl (Shelf.add g.path job) { workshop := ⟨made, l⟩ })
      (placements documents) (Bare.shelveAll g site (placements documents)) := by
  induction documents using List.reverseRecOn with
  | nil => exact ⟨.start hmade l, ⟨[], Grows.refl g site⟩, rfl, rfl, fun slug ↦ rfl⟩
  | append_singleton documents d ih =>
    have hstep := ih.add ⟨hmade.folder, hmade.plain⟩ job d (named_nameAfter documents d)
    rw [List.foldl_append, placements_append]
    rw [place, Bare.shelveAll, List.foldl_append]
    exact hstep

/-! ### Landing pages -/

namespace Stands

theorem ensureIndex (h : Stands made g old w site denied) {category : String × String}
    (hroom : Bare.Roomed site category) :
    match Bare.index g site category with
    | .ok site' => ∃ w', Site.ensureIndex g.path w category = .ok w' ∧
        Stands made g old w' site' (denied ++
          if (site.get? (Bare.indexNames category.1)).isSome then []
          else Bare.deniedAt g site (Bare.indexNames category.1))
    | .error e => Site.ensureIndex g.path w category = .error e := by
  have hplaced : Bare.Placed site (Bare.indexNames category.1) :=
    ⟨Bare.indexNames_ne_nil _, Bare.parent_not_mem_indexNames hroom.1,
      Bare.not_isRoom_indexNames _, hroom.2⟩
  rw [Bare.index, Site.ensureIndex, Path.child_child_eq_along, ← Bare.indexNames,
    h.carries.find?_along hplaced.ne_nil hplaced.parent hplaced.folder]
  cases g.fits (Bare.indexNames category.1) with
  | false => rfl
  | true =>
    simp only [if_true]
    cases site.get? (Bare.indexNames category.1) with
    | some e => exact ⟨w, rfl, by simpa using h⟩
    | none => exact ⟨_, rfl, h.writeOrReport hplaced _⟩

/-- **All index pages together.** -/
theorem ensureIndexes {titles : List (String × String)} (h : Stands made g old w site denied)
    (hrooms : ∀ c ∈ titles, Bare.Roomed site c) :
    (ensureIndexes g.path w titles).1 = (Bare.indexes g site titles).1 ∧
      Stands made g old (Site.ensureIndexes g.path w titles).2 (Bare.indexes g site titles).2
        (denied ++ Bare.deniedIndexes g site titles) := by
  induction titles generalizing w site denied with
  | nil =>
    rw [Bare.deniedIndexes, List.append_nil]
    exact ⟨rfl, h⟩
  | cons category rest ih =>
    obtain ⟨hroom, hrest⟩ := List.forall_mem_cons.1 hrooms
    have hstep := h.ensureIndex hroom
    rw [Site.ensureIndexes, Bare.indexes, Bare.deniedIndexes]
    cases hindex : Bare.index g site category with
    | error e =>
      rw [hindex] at hstep
      rw [hstep]
      exact ⟨rfl, by simpa using h⟩
    | ok site' =>
      rw [hindex] at hstep
      obtain ⟨w', hensure, hstands⟩ := hstep
      obtain ⟨-, hgrows, -⟩ := Bare.index_ok h.tidy hroom hindex
      rw [hensure]
      simp only [← List.append_assoc]
      exact ih hstands fun c hc ↦ (hrest c hc).grows hgrows

/-- **The index pages and the overview.** -/
theorem writeLandings {s : Shelf} (h : Stands made g old s.workshop site denied)
    (hrooms : ∀ c ∈ titlesOf s.written, Bare.Roomed site c)
    (htitles : s.titles = titlesOf s.written) (title : String) :
    (writeLandings g.path title s).1 = (Bare.landings g title s.written site).1 ∧
      Stands made g old (Site.writeLandings g.path title s).2
        (Bare.landings g title s.written site).2
        (denied ++ Bare.deniedLandings g s.written site) := by
  obtain ⟨hresult, hstands⟩ := h.ensureIndexes hrooms
  rw [Site.writeLandings, Bare.landings, Bare.deniedLandings, htitles]
  obtain ⟨r, site', hindexes, hs', -⟩ := Bare.indexes_eq (g := g) h.tidy hrooms
  rw [hindexes] at hresult hstands ⊢
  cases hensure : Site.ensureIndexes g.path s.workshop (titlesOf s.written) with
  | mk r' w' =>
    rw [hensure] at hresult hstands
    cases hresult
    cases r with
    | error e => exact ⟨rfl, by simpa using hstands⟩
    | ok =>
      have hplaced := Bare.overview_placed hs'
      have hoverview :=
        hstands.writeOrReport hplaced (overviewText title s.written (titlesOf s.written))
      rw [← List.append_assoc]
      exact ⟨rfl, hoverview⟩

/-! ### Sidebars -/

/-- Texts that are written one after the other. -/
theorem foldl_writeOrReport {texts : List (List String × String)}
    (h : Stands made g old w site denied) (hplaced : ∀ f ∈ texts, Bare.Placed site f.1) :
    Stands made g old (texts.foldl (fun w f ↦ Site.writeOrReport w (g.path.along f.1) f.2) w)
      (Bare.writeAll g site (Bare.filesOf texts))
      (denied ++ Bare.deniedFiles g site (Bare.filesOf texts)) := by
  induction texts generalizing w site denied with
  | nil =>
    rw [Bare.filesOf, List.map_nil, Bare.deniedFiles, List.append_nil]
    exact h
  | cons f rest ih =>
    obtain ⟨hfile, hrest⟩ := List.forall_mem_cons.1 hplaced
    have hgrows := hfile.grows_write (g := g) h.tidy (Text.Utf8.ofString f.2)
    have hrun := ih (h.writeOrReport hfile f.2) fun q hq ↦ (hrest q hq).grows hgrows
    rw [List.append_assoc] at hrun
    exact hrun

theorem writeSidebars (h : Stands made g old w site denied) (style title : String) :
    (writeSidebars g.path style title w).1 = (Bare.sidebars g style title site).1 ∧
      Stands made g old (Site.writeSidebars g.path style title w).2
        (Bare.sidebars g style title site).2
        (denied ++ Bare.deniedSidebars g style title site) := by
  obtain ⟨log, hlisting, hlog⟩ := readListing_eq h.carries
  have hquiet : ∀ r ∈ log, r.component ≠ "materializer" := fun r hr ↦ by
    rw [hlog r hr]
    decide
  have hrecorded : Stands made g old ⟨w.disk, w.ledger.record log⟩ site denied := by
    simpa using h.record (l := w.ledger.record log) rfl (.of_component hquiet)
  rw [Site.writeSidebars, Bare.sidebars, Bare.deniedSidebars, hlisting]
  simp only
  cases SidebarStyle.ofName? style with
  | none => exact ⟨rfl, by simpa using hrecorded⟩
  | some form =>
    have hplaced := Bare.placed_sidebarTexts h.tidy form style
      (navigation (listingOf g.path.name site) "" (some title)) g.path.name
    have hall := hrecorded.foldl_writeOrReport hplaced
    rw [Bare.sidebarTexts, List.foldl_cons, List.foldl_map] at hall
    simp only [← Path.child_child_eq_along] at hall
    exact ⟨rfl, hall⟩

end Stands

/-- **The whole run agrees with the bare run.** -/
theorem materialize_eq_bare (hmade : made.Carries g site) {w : Workshop}
    (hfolders : w.disk.makeFolders g.path = (.ok (), made)) (style : String)
    (documents : List Page.Document) (job : Option String) (title : String) :
    (materialize style documents g.path job title w).1
        = (Bare.run g style title (placements documents) site).1 ∧
      Stands made g w.ledger.log (materialize style documents g.path job title w).2
        (Bare.run g style title (placements documents) site).2
        (Bare.denied g style title (placements documents) site) := by
  have hagrees := Shelf.agrees_foldl hmade w.ledger job documents
  obtain ⟨s1, hshelf, hs1, -, -, hrooms⟩ := Bare.shelveAll_eq (g := g)
    ⟨hmade.folder, hmade.plain⟩ (fun _ ↦ named_of_mem_placements)
    (Bare.nodup_names_placements documents)
  rw [hshelf] at hagrees
  have hwritten := hagrees.written
  have hlandings := hagrees.stands.writeLandings (by rw [hwritten]; exact hrooms)
    (by rw [hwritten]; exact hagrees.titles) title
  rw [hwritten] at hlandings
  rw [materialize, hfolders, Bare.run, hshelf, Bare.denied, hshelf]
  simp only [Bare.finish]
  obtain ⟨r, s2, -, hbare, -⟩ := Bare.landings_eq (g := g) hs1 hrooms title
  rw [hbare] at hlandings ⊢
  obtain ⟨hresult, hstands⟩ := hlandings
  cases hwrite : writeLandings g.path title
      (documents.foldl (Shelf.add g.path job) { workshop := ⟨made, w.ledger⟩ }) with
  | mk r' w' =>
    rw [hwrite] at hresult hstands
    cases hresult
    cases r with
    | error e => exact ⟨rfl, by simpa using hstands⟩
    | ok =>
      rw [← List.append_assoc]
      exact hstands.writeSidebars style title

end Docwright.Site
