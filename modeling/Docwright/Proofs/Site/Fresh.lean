import Docwright.Proofs.Site.Replay

/-!
# The tree that a site in an empty folder becomes

When the destination is empty and nothing is denied, the tree is known member by member: a folder
for each category, in the order in which the categories first come up, with its pages in order and
its index page at the end, and then the overview (`shelveAll_fresh`, `landings_fresh`).

The induction over the pages goes through because a page that can be written is always the last of
its folder, and the folder is the last of the site when the page is its first.
-/

namespace Docwright.Site

open Files

/-! ### Categories in the order in which they come up -/

/-- The slugs of pages, in the order in which they first come up. -/
def slugsOf (pages : List Written) : List String :=
  (titlesOf pages).map Prod.fst

theorem lookup_titlesOf (pages : List Written) (slug : String) :
    (titlesOf pages).lookup slug
      = (pages.find? (·.slug == slug)).map fun p ↦ categoryName p.document.category := by
  induction pages using List.reverseRecOn with
  | nil => rfl
  | append_singleton pages p ih =>
    rw [titlesOf_append, List.find?_append]
    cases hold : pages.find? (·.slug == slug) with
    | some q =>
      rw [hold, Option.map_some] at ih
      have hkeep : (titlesOf pages ++ [(p.slug, categoryName p.document.category)]).lookup slug
          = (titlesOf pages).lookup slug := by
        rw [List.lookup_append, ih, Option.some_or]
      rw [Option.some_or, Option.map_some, ← ih]
      split
      · rfl
      · exact hkeep
    | none =>
      rw [hold, Option.map_none] at ih
      rw [Option.none_or, List.find?_singleton]
      by_cases hslug : p.slug = slug
      · subst hslug
        rw [if_neg (by simp [ih]), List.lookup_append, ih]
        simp
      · have hne : (slug == p.slug) = false := by simpa using Ne.symm hslug
        rw [if_neg (c := (p.slug == slug) = true) (by simpa using hslug), Option.map_none]
        split
        · exact ih
        · rw [List.lookup_append, ih, List.lookup_cons, hne]
          rfl

theorem slugsOf_append (pages : List Written) (p : Written) :
    slugsOf (pages ++ [p])
      = if p.slug ∈ slugsOf pages then slugsOf pages else slugsOf pages ++ [p.slug] := by
  have hmem : ((titlesOf pages).lookup p.slug).isSome = true ↔ p.slug ∈ slugsOf pages := by
    rw [List.lookup_isSome_iff, slugsOf]
    simp
  rw [slugsOf, titlesOf_append]
  by_cases h : p.slug ∈ slugsOf pages
  · rw [if_pos (hmem.2 h), if_pos h, slugsOf]
  · rw [if_neg fun hsome ↦ h (hmem.1 hsome), if_neg h, slugsOf, List.map_append]
    rfl

theorem mem_slugsOf {pages : List Written} {slug : String} :
    slug ∈ slugsOf pages ↔ slug ∈ pages.map (·.slug) := by
  induction pages using List.reverseRecOn with
  | nil => exact Iff.rfl
  | append_singleton pages p ih =>
    rw [slugsOf_append, List.map_append, List.mem_append, ← ih, List.map_singleton,
      List.mem_singleton]
    by_cases h : p.slug ∈ slugsOf pages
    · rw [if_pos h]
      exact ⟨Or.inl, fun hor ↦ hor.elim id fun heq ↦ heq ▸ h⟩
    · rw [if_neg h, List.mem_append, List.mem_singleton]

theorem nodup_slugsOf (pages : List Written) : (slugsOf pages).Nodup := by
  induction pages using List.reverseRecOn with
  | nil => exact List.nodup_nil
  | append_singleton pages p ih =>
    rw [slugsOf_append]
    split
    · exact ih
    · rename_i h
      exact List.nodup_append.2 ⟨ih, by simp, fun a ha b hb hab ↦
        h (List.mem_singleton.1 hb ▸ hab ▸ ha)⟩

namespace Bare

variable {g : Ground}

/-! ### Pages in their folders -/

/-- The files of pages. -/
def pageMembers (pages : List Written) : List (String × Entry) :=
  pages.map fun p ↦ (pageFileName p.pageId, .file p.bytes)

/-- The pages under a slug. -/
def pagesUnder (pages : List Written) (slug : String) : List Written :=
  pages.filter (·.slug == slug)

/-- A folder for each category with its pages. -/
def rooms (pages : List Written) : List (String × Entry) :=
  (slugsOf pages).map fun slug ↦ (slug, .folder (pageMembers (pagesUnder pages slug)))

theorem pagesUnder_append (pages : List Written) (p : Written) (slug : String) :
    pagesUnder (pages ++ [p]) slug
      = if slug = p.slug then pagesUnder pages slug ++ [p] else pagesUnder pages slug := by
  rw [pagesUnder, List.filter_append, ← pagesUnder]
  by_cases h : slug = p.slug
  · simp [h]
  · simp [h, Ne.symm h]

theorem pagesUnder_eq_nil {pages : List Written} {slug : String} (h : slug ∉ slugsOf pages) :
    pagesUnder pages slug = [] := by
  refine List.filter_eq_nil_iff.2 fun p hp heq ↦ h (mem_slugsOf.2 ?_)
  rw [← beq_iff_eq.1 heq]
  exact List.mem_map_of_mem hp

theorem lookup_pageMembers {pages : List Written} {p : Written}
    (h : p.names ∉ pages.map Written.names) :
    (pageMembers (pagesUnder pages p.slug)).lookup (pageFileName p.pageId) = none := by
  refine List.lookup_eq_none_iff.2 fun m hm ↦ ?_
  obtain ⟨q, hq, rfl⟩ := List.mem_map.1 hm
  obtain ⟨hq, hslug⟩ := List.mem_filter.1 hq
  rw [bne_iff_ne]
  intro hname
  refine h (List.mem_map.2 ⟨q, hq, ?_⟩)
  rw [Written.names, Written.names, beq_iff_eq.1 hslug, hname]

/-- **A page that can be written comes to stand at the end of its folder**, which is made at the end
when it is the first page of its category. -/
theorem shelve_rooms {before : List Written} {p : Written}
    (hfresh : p.names ∉ before.map Written.names)
    (hshelves : shelves g (.folder (rooms before)) p = true) :
    shelve g (.folder (rooms before)) p = .folder (rooms (before ++ [p])) := by
  rw [shelves, Bool.and_eq_true] at hshelves
  obtain ⟨hopens, hgrants⟩ := hshelves
  rw [shelve, if_pos hopens, Ground.write, if_pos hgrants, Ground.make, hopens, Bool.true_and]
  have hlookup := lookup_map_pair (slugsOf before)
    (fun slug ↦ .folder (pageMembers (pagesUnder before slug))) p.slug
  rw [← rooms] at hlookup
  have hgrow : ∀ slug, Entry.folder (pageMembers (pagesUnder (before ++ [p]) slug))
      = if slug = p.slug then
          .folder (pageMembers (pagesUnder before p.slug) ++
            [(pageFileName p.pageId, .file p.bytes)])
        else .folder (pageMembers (pagesUnder before slug)) := fun slug ↦ by
    rw [pagesUnder_append]
    split
    · rename_i h
      rw [h, pageMembers, List.map_append]
      rfl
    · rfl
  -- a category that is there gets one file more, a new one comes at the end with its first file
  by_cases hslug : p.slug ∈ slugsOf before
  · rw [if_pos hslug] at hlookup
    rw [if_neg (by simp [hlookup]), Written.names, Entry.put_folder_cons, hlookup, Option.getD_some,
      Entry.put_folder_cons, Entry.put_nil, setMember_of_lookup_eq_none (lookup_pageMembers hfresh),
      rooms, setMember_map_of_mem (nodup_slugsOf before) hslug, rooms, slugsOf_append,
      if_pos hslug]
    simp only [hgrow]
  · rw [if_neg hslug] at hlookup
    have hempty : pagesUnder before p.slug = [] := pagesUnder_eq_nil hslug
    have hmade : (setMember (rooms before) p.slug .emptyFolder).lookup p.slug
        = some .emptyFolder := by
      rw [lookup_setMember, if_pos rfl]
    have hold : ∀ slug ∈ slugsOf before, slug ≠ p.slug := fun slug hmem heq ↦ hslug (heq ▸ hmem)
    rw [if_pos (by simp [hlookup]), Entry.put_folder_cons, Entry.put_nil, Written.names,
      Entry.put_folder_cons, hmade, Option.getD_some, setMember_setMember,
      setMember_of_lookup_eq_none hlookup, rooms, rooms, slugsOf_append, if_neg hslug,
      List.map_append]
    congr 2
    · refine List.map_congr_left fun slug hmem ↦ ?_
      rw [hgrow, if_neg (hold slug hmem)]
    · rw [List.map_singleton, hgrow, if_pos rfl, hempty]
      rfl

theorem shelves_of_deniedPages {s : Entry} {pages : List Written}
    (h : deniedPages g s pages = []) : ∀ p ∈ pages, shelves g s p = true := by
  have hnone := List.map_eq_nil_iff.1 h
  intro p hp
  simpa using List.filter_eq_nil_iff.1 hnone p hp

theorem tidy_empty : Tidy (.folder []) :=
  ⟨rfl, Entry.plain_emptyFolder⟩

/-- **All pages in an empty folder**, when none is denied. -/
theorem shelveAll_fresh {pages : List Written} (hnamed : ∀ p ∈ pages, p.Named)
    (hnodup : (pages.map Written.names).Nodup)
    (hshelves : ∀ p ∈ pages, shelves g (.folder []) p = true) :
    shelveAll g (.folder []) pages = (.folder (rooms pages), pages) := by
  induction pages using List.reverseRecOn with
  | nil => rfl
  | append_singleton pages p ih =>
    obtain ⟨hnamed, hp⟩ := List.forall_mem_append.1 hnamed
    obtain ⟨hshelves, hpshelves⟩ := List.forall_mem_append.1 hshelves
    have hp := hp p (List.mem_singleton_self p)
    have hpshelves := hpshelves p (List.mem_singleton_self p)
    rw [List.map_append] at hnodup
    obtain ⟨hnodup, -, hdisjoint⟩ := List.nodup_append.1 hnodup
    have hfresh : p.names ∉ pages.map Written.names := fun hmem ↦
      hdisjoint _ hmem _ (by simp) rfl
    have hbefore := ih hnamed hnodup hshelves
    -- `hpshelves` is about the empty folder; the tree before this page answers the same
    obtain ⟨s1, hs1, htidy, hgrows, -⟩ := shelveAll_eq (g := g) tidy_empty hnamed hnodup
    obtain rfl : .folder (rooms pages) = s1 := congrArg Prod.fst (hbefore.symm.trans hs1)
    rw [← shelves_eq_of_grows tidy_empty htidy hp hgrows] at hpshelves
    rw [shelveAll, List.foldl_append, ← shelveAll, hbefore, List.foldl_cons, List.foldl_nil,
      shelveNext]
    simp only [hpshelves, if_true, shelve_rooms hfresh hpshelves]

/-! ### Index pages -/

/-- The index page of a category among titles. -/
def indexMember (titles : List (String × String)) (slug : String) : List (String × Entry) :=
  match titles.lookup slug with
  | some category => [("index.md", .file (Text.Utf8.ofString (indexText slug category)))]
  | none => []

theorem indexMember_cons (category : String × String) (rest : List (String × String))
    (slug : String) :
    indexMember (category :: rest) slug
      = if slug = category.1 then
          [("index.md", .file (Text.Utf8.ofString (indexText slug category.2)))]
        else indexMember rest slug := by
  obtain ⟨key, label⟩ := category
  rw [indexMember, List.lookup_cons, indexMember]
  by_cases h : slug = key
  · simp [h]
  · have hne : (slug == key) = false := by simpa using h
    rw [hne, if_neg h]

theorem indexMember_of_not_mem {titles : List (String × String)} {slug : String}
    (h : slug ∉ titles.map Prod.fst) : indexMember titles slug = [] := by
  have hnone : titles.lookup slug = none := List.lookup_eq_none_iff.2 fun c hc ↦ by
    rw [bne_iff_ne]
    rintro rfl
    exact h (List.mem_map_of_mem hc)
  rw [indexMember, hnone]

section Index

variable {names : List String} {M : String → List (String × Entry)} {category : String × String}

theorem get?_indexNames (hmem : category.1 ∈ names)
    (hfree : (M category.1).lookup "index.md" = none) :
    (Entry.folder (names.map fun n ↦ (n, .folder (M n)))).get? (indexNames category.1) = none := by
  rw [indexNames, Entry.get?_folder_cons, lookup_map_pair, if_pos hmem, Option.bind_some,
    Entry.get?_folder_cons, hfree, Option.bind_none]

theorem index_fresh (hnames : names.Nodup) (hmem : category.1 ∈ names)
    (hfree : (M category.1).lookup "index.md" = none)
    (hgrants : g.grants (.folder (names.map fun n ↦ (n, .folder (M n))))
      (indexNames category.1) = true) :
    index g (.folder (names.map fun n ↦ (n, .folder (M n)))) category
      = .ok (.folder (names.map fun n ↦ (n, .folder (if n = category.1 then
          M category.1 ++
            [("index.md", .file (Text.Utf8.ofString (indexText category.1 category.2)))]
        else M n)))) := by
  rw [index, if_pos (Ground.fits_of_grants hgrants), get?_indexNames hmem hfree,
    if_neg (by simp), Ground.write, if_pos hgrants, indexNames, Entry.put_folder_cons,
    lookup_map_pair, if_pos hmem, Option.getD_some, Entry.put_folder_cons, Entry.put_nil,
    setMember_of_lookup_eq_none hfree, setMember_map_of_mem hnames hmem]
  congr 2
  refine List.map_congr_left fun n _ ↦ ?_
  split
  · rfl
  · rfl

end Index

/-- **An index page that is missing and not denied comes to stand at the end of its folder.** -/
theorem indexes_fresh {names : List String} (hnames : names.Nodup)
    {titles : List (String × String)} {M : String → List (String × Entry)}
    (htitles : (titles.map Prod.fst).Nodup) (hsub : ∀ c ∈ titles, c.1 ∈ names)
    (hfree : ∀ c ∈ titles, (M c.1).lookup "index.md" = none)
    (hok : (indexes g (.folder (names.map fun n ↦ (n, .folder (M n)))) titles).1 = .ok ())
    (hdenied : deniedIndexes g (.folder (names.map fun n ↦ (n, .folder (M n)))) titles = []) :
    indexes g (.folder (names.map fun n ↦ (n, .folder (M n)))) titles
      = (.ok (), .folder (names.map fun n ↦ (n, .folder (M n ++ indexMember titles n)))) := by
  induction titles generalizing M with
  | nil => simp [indexes, indexMember]
  | cons category rest ih =>
    obtain ⟨hfresh, htitles⟩ := List.nodup_cons.1 htitles
    obtain ⟨hmem, hsub⟩ := List.forall_mem_cons.1 hsub
    obtain ⟨hnone, hfree⟩ := List.forall_mem_cons.1 hfree
    have hgrants : g.grants (.folder (names.map fun n ↦ (n, .folder (M n))))
        (indexNames category.1) = true := by
      rw [indexes] at hok
      rw [deniedIndexes, get?_indexNames hmem hnone] at hdenied
      cases hindex : index g (.folder (names.map fun n ↦ (n, .folder (M n)))) category with
      | error e =>
        rw [hindex] at hok
        cases hok
      | ok s =>
        rw [hindex] at hdenied
        by_contra hg
        simp [deniedAt, hg] at hdenied
    have hindex := index_fresh hnames hmem hnone hgrants
    rw [indexes, hindex] at hok ⊢
    rw [deniedIndexes, hindex] at hdenied
    -- the other categories still lack their index page, so the induction goes on with the new `M`
    have hother : ∀ c ∈ rest, c.1 ≠ category.1 := fun c hc heq ↦
      hfresh (heq ▸ List.mem_map_of_mem hc)
    refine (ih htitles hsub (fun c hc ↦ ?_) hok (List.append_eq_nil_iff.1 hdenied).2).trans ?_
    · rw [if_neg (hother c hc)]
      exact hfree c hc
    · congr 3
      funext n
      rw [indexMember_cons]
      by_cases hn : n = category.1
      · rw [if_pos hn, if_pos hn, hn, indexMember_of_not_mem hfresh, List.append_nil]
      · rw [if_neg hn, if_neg hn]

/-! ### The overview -/

/-- The tree of a site in an empty folder. -/
def freshTree (title : String) (pages : List Written) : Entry :=
  .folder ((slugsOf pages).map (fun slug ↦ (slug, .folder (pageMembers (pagesUnder pages slug) ++
      indexMember (titlesOf pages) slug))) ++
    [(pageFileName overviewId,
      .file (Text.Utf8.ofString (overviewText title pages (titlesOf pages))))])

/-- **The site in an empty folder**, when nothing up to the overview is denied. -/
theorem landings_fresh {pages : List Written} (hnamed : ∀ p ∈ pages, p.Named) (title : String)
    (hok : (landings g title pages (.folder (rooms pages))).1 = .ok ())
    (hdenied : deniedLandings g pages (.folder (rooms pages)) = []) :
    landings g title pages (.folder (rooms pages)) = (.ok (), freshTree title pages) := by
  have hindexFree : ∀ c ∈ titlesOf pages,
      (pageMembers (pagesUnder pages c.1)).lookup "index.md" = none := fun c _ ↦ by
    refine List.lookup_eq_none_iff.2 fun m hm ↦ ?_
    obtain ⟨p, hp, rfl⟩ := List.mem_map.1 hm
    rw [bne_iff_ne]
    exact (pageFileName_ne_index (hnamed p (List.mem_filter.1 hp).1)).symm
  obtain ⟨hindexDenied, hoverview⟩ := List.append_eq_nil_iff.1 hdenied
  have hindexOk : (indexes g (.folder (rooms pages)) (titlesOf pages)).1 = .ok () := by
    rw [landings] at hok
    cases hindexes : indexes g (.folder (rooms pages)) (titlesOf pages) with
    | mk r s =>
      rw [hindexes] at hok
      cases r with
      | error e => cases hok
      | ok => rfl
  have hindexes := indexes_fresh (nodup_slugsOf pages) (nodup_slugsOf pages)
    (fun c hc ↦ List.mem_map_of_mem hc) hindexFree hindexOk hindexDenied
  rw [← rooms] at hindexes
  rw [landings, hindexes]
  rw [hindexes] at hoverview
  have hgrants : g.grants (.folder ((slugsOf pages).map fun slug ↦ (slug,
      .folder (pageMembers (pagesUnder pages slug) ++ indexMember (titlesOf pages) slug))))
      [pageFileName overviewId] = true := by
    by_contra hg
    simp [deniedAt, hg] at hoverview
  have hoverviewFree : pageFileName overviewId ∉ slugsOf pages := fun hmem ↦ by
    obtain ⟨p, hp, heq⟩ := List.mem_map.1 (mem_slugsOf.1 hmem)
    refine dot_not_mem_slug (hnamed p hp) ?_
    rw [heq]
    decide
  simp only [overview, freshTree]
  rw [Ground.write, if_pos hgrants, Entry.put_folder_cons, Entry.put_nil,
    setMember_of_lookup_eq_none]
  rw [lookup_map_pair, if_neg hoverviewFree]

end Bare

end Docwright.Site
