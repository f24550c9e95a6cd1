import Docwright.Proofs.Site.Fresh
import Docwright.Proofs.Site.Materialize
import Mathlib.Data.List.Dedup
import Mathlib.Data.List.Sort
import Mathlib.Data.String.Basic

/-!
# The navigation of a fresh site

`siteNavigation` says what the navigation of a site is in terms of its pages alone: the overview,
then the categories by slug, each with its index page and its pages by id. The navigation that
`materialize` returns is not made from the pages but read back from the disk;
`navigation_fresh` says that for the tree of a fresh site it is that one.

What is read back of a page is its front matter (`pageOf_render`), so the navigation stands on the
fields that were written being the ones that are read; that listing and sorting come to the same is
a matter of names.
-/

namespace Docwright.Site

open Files Page

/-! ### What the navigation should be -/

/-- A title on one line. -/
def shownTitle (title : String) : String :=
  String.ofList (Text.oneLine title.toList)

/-- A title on one line, or one made of a slug when nothing is left of it. -/
def titleOr (title slug : String) : String :=
  orElse (some (shownTitle title)) (titleOf slug)

/-- The node of a page. -/
def pageNode (p : Written) : NavNode :=
  .doc s!"{p.slug}/{p.pageId}" (titleOr p.document.title p.pageId)

/-- The name of the first category with the given slug. -/
def firstCategory (pages : List Written) (slug : String) : String :=
  ((pages.find? (·.slug == slug)).map fun p ↦ categoryName p.document.category).getD ""

/-- The pages with the given slug, by id. -/
def pagesById (pages : List Written) (slug : String) : List Written :=
  (pages.filter (·.slug == slug)).mergeSort fun p q ↦ decide (p.pageId ≤ q.pageId)

/-- The node of a category: its index page and then its pages by id. -/
def categoryNode (pages : List Written) (slug : String) : NavNode :=
  .category (titleOr (firstCategory pages slug) slug)
    (.doc s!"{slug}/{slug}-index" landingLabel :: (pagesById pages slug).map pageNode)

/-- The slugs of pages, each of them once, in order. -/
def slugsInOrder (pages : List Written) : List String :=
  (pages.map (·.slug)).dedup.mergeSort fun a b ↦ decide (a ≤ b)

/-- **The navigation of a site with the given pages**: the overview and then the categories by
slug. -/
def siteNavigation (title name : String) (pages : List Written) : NavNode :=
  .category (orElse (some title) (titleOf name))
    (.doc overviewId landingLabel :: (slugsInOrder pages).map (categoryNode pages))

theorem mem_pagesById {pages : List Written} {slug : String} {p : Written} :
    p ∈ pagesById pages slug ↔ p ∈ pages ∧ p.slug = slug := by
  rw [pagesById, List.mem_mergeSort, List.mem_filter, beq_iff_eq]

theorem mem_slugsInOrder {pages : List Written} {slug : String} :
    slug ∈ slugsInOrder pages ↔ ∃ p ∈ pages, p.slug = slug := by
  rw [slugsInOrder, List.mem_mergeSort, List.mem_dedup, List.mem_map]

theorem nodup_slugsInOrder (pages : List Written) : (slugsInOrder pages).Nodup :=
  (List.mergeSort_perm _ _).nodup_iff.2 (List.nodup_dedup _)

/-! ### What is read back of a page -/

theorem splitName_pageFileName {pageId : String} (h : pageId.toList ≠ []) :
    splitName (pageFileName pageId).toList = (pageId.toList, ['.', 'm', 'd']) := by
  have hback : (pageFileName pageId).toList.reverse
      = 'd' :: 'm' :: '.' :: pageId.toList.reverse := by
    rw [Bare.toList_pageFileName, List.reverse_append]
    rfl
  rw [splitName, hback]
  simp [h]

theorem stemOf_pageFileName {pageId : String} (h : pageId.toList ≠ []) :
    stemOf (pageFileName pageId) = pageId := by
  rw [stemOf, splitName_pageFileName h, String.ofList_toList]

theorem suffixOf_pageFileName {pageId : String} (h : pageId.toList ≠ []) :
    suffixOf (pageFileName pageId) = ".md" := by
  rw [suffixOf, splitName_pageFileName h]

/-- What the listing knows of a page with the given title. -/
def readPage (pageId id title : String) : PageFile where
  stem := pageId
  id := some id
  title := (some (shownTitle title)).filter (!·.isEmpty)

/-- **A page file says what its front matter was made of**, whatever follows it. -/
theorem pageOf_render {pageId : String} (h : pageId.toList ≠ []) {text id title : String}
    (position : Int) (rest : List Char) (hid : IsSlug id.toList) (hne : id.toList ≠ [])
    (htext : text.toList = FrontMatter.blockText id title position ++ rest) :
    pageOf (pageFileName pageId) (Text.Utf8.ofString text) = readPage pageId id title := by
  have hname : (⟨false, [pageFileName pageId]⟩ : Path).name = pageFileName pageId := rfl
  have hempty : id.isEmpty = false := by simpa using hne
  rw [pageOf, pageFile, Text.Utf8.decode?_ofString, hname, stemOf_pageFileName h, htext]
  simp only [Text.unifyNewlines_append (FrontMatter.not_mem_blockText id title position),
    FrontMatter.split_blockText, slugOf_eq_self hid, readPage]
  simp [shownTitle, List.lookup_cons, hempty]

/-- The page of a document. -/
theorem pageOf_bytes {p : Written} (hp : p.Named) :
    pageOf (pageFileName p.pageId) p.bytes
      = readPage p.pageId p.pageId p.document.title :=
  pageOf_render hp.pageId_ne_nil p.document.position ('\n' :: Lint.lint p.document.body.toList)
    hp.pageId hp.pageId_ne_nil (by
      rw [pageText, String.toList_ofList, List.append_assoc, List.singleton_append])

/-- The id of the index page of a category. -/
def indexId (slug : String) : String := s!"{slug}-index"

theorem toList_indexId (slug : String) :
    (indexId slug).toList = slug.toList ++ '-' :: "index".toList := by
  rw [indexId, show s!"{slug}-index" = slug ++ "-index" from rfl, String.toList_append]
  rfl

theorem isSlug_indexId {slug : String} (h : IsSlug slug.toList) (hne : slug.toList ≠ []) :
    IsSlug s!"{slug}-index".toList ∧ s!"{slug}-index".toList ≠ [] := by
  have hid : s!"{slug}-index".toList = slug.toList ++ '-' :: "index".toList := toList_indexId slug
  rw [hid]
  exact ⟨h.append_dash (isSlug_of_letters (by decide)) hne (by decide), by simp⟩

/-- The index page of a category. -/
theorem pageOf_indexText {slug : String} (h : IsSlug slug.toList) (hne : slug.toList ≠ [])
    (category : String) :
    pageOf "index.md" (Text.Utf8.ofString (indexText slug category))
      = readPage "index" s!"{slug}-index" category := by
  have hfile : "index.md" = pageFileName "index" := by decide
  obtain ⟨hid, hidne⟩ := isSlug_indexId h hne
  rw [hfile]
  exact pageOf_render (by decide) 1
    s!"\n# {category}\n\nThis section contains documentation related to {category}.\n".toList
    hid hidne (by rw [indexText, String.toList_append, String.toList_ofList])

/-- The overview. -/
theorem pageOf_overviewText (title : String) (pages : List Written)
    (titles : List (String × String)) :
    pageOf (pageFileName overviewId) (Text.Utf8.ofString (overviewText title pages titles))
      = readPage overviewId overviewId title := by
  rw [overviewText]
  exact pageOf_render (by decide) 1 ('\n' :: Lint.lint _) (isSlug_of_letters (by decide))
    (by decide) (by
      rw [String.toList_ofList, List.append_assoc, List.singleton_append])

/-! ### The listing -/

/-- What the listing knows of the pages of a category. -/
def readRoom (pages : List Written) (slug : String) : List PageFile :=
  (Bare.pagesUnder pages slug).map (fun p ↦ readPage p.pageId p.pageId p.document.title) ++
    [readPage "index" s!"{slug}-index" (firstCategory pages slug)]

theorem pagesOf_page {pageId : String} (h : pageId.toList ≠ []) (bytes : List UInt8) :
    pagesOf (pageFileName pageId, .file bytes) = [pageOf (pageFileName pageId) bytes] := by
  rw [pagesOf, suffixOf_pageFileName h, if_pos (by simp)]

theorem pagesIn_pageMembers {pages : List Written} (hnamed : ∀ p ∈ pages, p.Named) :
    pagesIn (Bare.pageMembers pages)
      = pages.map fun p ↦ readPage p.pageId p.pageId p.document.title := by
  induction pages with
  | nil => rfl
  | cons p rest ih =>
    obtain ⟨hp, hrest⟩ := List.forall_mem_cons.1 hnamed
    rw [Bare.pageMembers, List.map_cons, List.map_cons, ← ih hrest, pagesIn, List.flatMap_cons,
      pagesOf_page hp.pageId_ne_nil, pageOf_bytes hp]
    rfl

theorem foldersIn_pageMembers (pages : List Written) :
    foldersIn (Bare.pageMembers pages) = [] := by
  rw [foldersIn_eq_flatMap, Bare.pageMembers, List.flatMap_map]
  simp [foldersOf]

theorem indexMember_titlesOf {pages : List Written} {slug : String} (h : slug ∈ slugsOf pages) :
    Bare.indexMember (titlesOf pages) slug
      = [("index.md", .file (Text.Utf8.ofString (indexText slug (firstCategory pages slug))))] := by
  obtain ⟨p, hp, heq⟩ := List.mem_map.1 (mem_slugsOf.1 h)
  have hsome : (pages.find? (·.slug == slug)).isSome = true :=
    List.find?_isSome.2 ⟨p, hp, by simpa using heq⟩
  obtain ⟨q, hq⟩ := Option.isSome_iff_exists.1 hsome
  rw [Bare.indexMember, lookup_titlesOf, firstCategory, hq]
  rfl

/-- The listing of the folder of a category. -/
theorem listing_room {pages : List Written} (hnamed : ∀ p ∈ pages, p.Named) {slug : String}
    (h : slug ∈ slugsOf pages) :
    pagesIn (Bare.pageMembers (Bare.pagesUnder pages slug) ++
        Bare.indexMember (titlesOf pages) slug) = readRoom pages slug ∧
      foldersIn (Bare.pageMembers (Bare.pagesUnder pages slug) ++
        Bare.indexMember (titlesOf pages) slug) = [] := by
  obtain ⟨p, hp, rfl⟩ := List.mem_map.1 (mem_slugsOf.1 h)
  have hunder : ∀ q ∈ Bare.pagesUnder pages p.slug, q.Named := fun q hq ↦
    hnamed q (List.mem_filter.1 hq).1
  have hindex : "index.md" = pageFileName "index" := by decide
  constructor
  · rw [pagesIn_append, pagesIn_pageMembers hunder, indexMember_titlesOf h, readRoom,
      ← pageOf_indexText (hnamed p hp).slug (hnamed p hp).slug_ne_nil, hindex, pagesIn,
      List.flatMap_singleton, pagesOf_page (by decide)]
  · rw [foldersIn_append, foldersIn_pageMembers, indexMember_titlesOf h, foldersIn_eq_flatMap,
      List.flatMap_singleton]
    simp [foldersOf]

/-- **The listing of a site in an empty folder.** -/
theorem listingOf_fresh {pages : List Written} (hnamed : ∀ p ∈ pages, p.Named)
    (title name : String) :
    listingOf name (Bare.freshTree title pages)
      = .mk name [readPage overviewId overviewId title]
        ((slugsOf pages).map fun slug ↦ .mk slug (readRoom pages slug) []) := by
  obtain ⟨hpages, hfolders⟩ := listing_map_folder (slugsOf pages) fun slug ↦
    Bare.pageMembers (Bare.pagesUnder pages slug) ++ Bare.indexMember (titlesOf pages) slug
  have hrooms : ((slugsOf pages).map fun slug ↦ Listing.mk slug
      (pagesIn (Bare.pageMembers (Bare.pagesUnder pages slug) ++
        Bare.indexMember (titlesOf pages) slug))
      (foldersIn (Bare.pageMembers (Bare.pagesUnder pages slug) ++
        Bare.indexMember (titlesOf pages) slug)))
      = (slugsOf pages).map fun slug ↦ .mk slug (readRoom pages slug) [] :=
    List.map_congr_left fun slug hslug ↦ by
      rw [(listing_room hnamed hslug).1, (listing_room hnamed hslug).2]
  rw [Bare.freshTree, listingOf, pagesIn_append, foldersIn_append, hpages, hfolders, hrooms,
    List.nil_append, pagesIn, List.flatMap_singleton, pagesOf_page (by decide),
    pageOf_overviewText, foldersIn_eq_flatMap, List.flatMap_singleton]
  simp [foldersOf]

/-! ### The nodes -/

theorem orElse_filter (s other : String) :
    orElse ((some s).filter (!·.isEmpty)) other = orElse (some s) other := by
  cases h : s.isEmpty with
  | false => rw [Option.filter_some, if_pos (by simp [h])]
  | true => rw [Option.filter_some, if_neg (by simp [h]), orElse, orElse, if_pos h]

theorem node_readPage {pageId id : String} (hid : id.toList ≠ []) (base title : String) :
    (readPage pageId id title).node base = .doc (under base id) (titleOr title pageId) ∧
      (readPage pageId id title).landingNode base = .doc (under base id) landingLabel := by
  have hne : id.isEmpty = false := by simpa using hid
  have hnode : (readPage pageId id title).nodeId base = under base id := by
    simp [PageFile.nodeId, readPage, orElse, hne]
  rw [PageFile.node, PageFile.landingNode, hnode, readPage, orElse_filter, titleOr]
  exact ⟨rfl, rfl⟩

theorem under_slug {slug : String} (h : slug.toList ≠ []) (name : String) :
    under slug name = s!"{slug}/{name}" := by
  rw [under, if_neg (by simpa using h)]
  rfl

theorem under_indexId {slug : String} (h : slug.toList ≠ []) :
    under slug s!"{slug}-index" = s!"{slug}/{slug}-index" := by
  have hassoc : slug ++ "/" ++ slug ++ "-index" = slug ++ "/" ++ (slug ++ "-index") :=
    String.append_assoc
  exact (under_slug h _).trans hassoc.symm

/-- A page that is not the index page is no landing page. -/
theorem filter_landing {pages : List Written} (hnamed : ∀ p ∈ pages, p.Named) {stem : String}
    (hstem : stem ∈ landingStems) :
    (pages.map fun p ↦ readPage p.pageId p.pageId p.document.title).filter (·.stem == stem)
      = [] := by
  refine List.filter_eq_nil_iff.2 fun f hf heq ↦ ?_
  obtain ⟨p, hp, rfl⟩ := List.mem_map.1 hf
  refine (hnamed p hp).not_landing ?_
  rwa [show p.pageId = stem from beq_iff_eq.1 heq]

theorem filter_not_landing {pages : List Written} (hnamed : ∀ p ∈ pages, p.Named) :
    (pages.map fun p ↦ readPage p.pageId p.pageId p.document.title).filter
        (fun f ↦ !landingStems.contains f.stem)
      = pages.map fun p ↦ readPage p.pageId p.pageId p.document.title := by
  refine List.filter_eq_self.2 fun f hf ↦ ?_
  obtain ⟨p, hp, rfl⟩ := List.mem_map.1 hf
  simpa [readPage] using (hnamed p hp).not_landing

/-- **The nodes of a category**: its index page, and then its pages by id. -/
theorem pageNodes_room {pages : List Written} (hnamed : ∀ p ∈ pages, p.Named) {slug : String}
    (hslug : IsSlug slug.toList) (hne : slug.toList ≠ []) :
    pageNodes slug (readRoom pages slug)
      = .doc s!"{slug}/{slug}-index" landingLabel :: (pagesById pages slug).map pageNode := by
  have hunder : ∀ p ∈ Bare.pagesUnder pages slug, p.Named := fun p hp ↦
    hnamed p (List.mem_filter.1 hp).1
  -- of the landing stems only that of the index page occurs
  have hlanding : landingStems.flatMap (fun stem ↦ ((readRoom pages slug).filter
      (·.stem == stem)).map (PageFile.landingNode slug))
      = [.doc s!"{slug}/{slug}-index" landingLabel] := by
    rw [readRoom, landingStems, List.flatMap_cons, List.flatMap_singleton, List.filter_append,
      List.filter_append, filter_landing hunder (by decide), filter_landing hunder (by decide),
      List.filter_cons_of_pos rfl, List.filter_cons_of_neg (by simp [readPage]),
      List.filter_nil, List.filter_nil, List.nil_append, List.nil_append, List.map_singleton,
      List.map_nil, List.append_nil, (node_readPage (isSlug_indexId hslug hne).2 _ _).2,
      under_indexId hne]
  have hpages : (readRoom pages slug).filter (fun f ↦ !landingStems.contains f.stem)
      = (Bare.pagesUnder pages slug).map fun p ↦ readPage p.pageId p.pageId p.document.title := by
    rw [readRoom, List.filter_append, filter_not_landing hunder,
      List.filter_cons_of_neg (by simp [readPage, landingStems]), List.filter_nil, List.append_nil]
  have hnode : ∀ p ∈ pagesById pages slug,
      (readPage p.pageId p.pageId p.document.title).node slug = pageNode p := fun p hp ↦ by
    obtain ⟨hmem, rfl⟩ := mem_pagesById.1 hp
    rw [(node_readPage (hnamed p hmem).pageId_ne_nil _ _).1, under_slug hne, pageNode]
  -- the stem of a page is its id, so sorting files by stem is sorting pages by id
  rw [pageNodes, hlanding, hpages,
    ← List.map_mergeSort (r := fun p q ↦ decide (p.pageId ≤ q.pageId)) (fun _ _ _ _ ↦ rfl),
    List.map_map, List.singleton_append]
  congr 1
  exact List.map_congr_left fun p hp ↦ hnode p hp

theorem categoryLabel_room {pages : List Written} (hnamed : ∀ p ∈ pages, p.Named)
    (slug : String) :
    categoryLabel slug (readRoom pages slug) = titleOr (firstCategory pages slug) slug := by
  have hpages : ((Bare.pagesUnder pages slug).map fun p ↦
      readPage p.pageId p.pageId p.document.title).findSome? (fun f ↦
        if f.stem == "index" then f.title.filter (!·.isEmpty) else none) = none := by
    refine List.findSome?_eq_none_iff.2 fun f hf ↦ if_neg fun heq ↦ ?_
    obtain ⟨p, hp, rfl⟩ := List.mem_map.1 hf
    refine (hnamed p (List.mem_filter.1 hp).1).not_landing ?_
    rw [show p.pageId = "index" from beq_iff_eq.1 heq]
    decide
  rw [categoryLabel, readRoom, List.findSome?_append, hpages, Option.none_or,
    List.findSome?_singleton, readPage, titleOr, orElse]
  cases h : (shownTitle (firstCategory pages slug)).isEmpty <;> simp [h, Option.filter_some]

/-- The node of a category is the one that its pages make. -/
theorem node_room {pages : List Written} (hnamed : ∀ p ∈ pages, p.Named) {slug : String}
    (hslug : IsSlug slug.toList) (hne : slug.toList ≠ []) :
    Listing.node slug (.mk slug (readRoom pages slug) []) = categoryNode pages slug := by
  rw [Listing.node, Listing.nodesOf, categoryLabel_room hnamed, pageNodes_room hnamed hslug hne,
    categoryNode]
  simp

theorem nodesOf_rooms {pages : List Written} (hnamed : ∀ p ∈ pages, p.Named)
    {slugs : List String} (h : ∀ slug ∈ slugs, slug ∈ slugsOf pages) :
    Listing.nodesOf "" (slugs.map fun slug ↦ .mk slug (readRoom pages slug) [])
      = slugs.map fun slug ↦ (slug, categoryNode pages slug) := by
  induction slugs with
  | nil => rw [List.map_nil, Listing.nodesOf, List.map_nil]
  | cons slug rest ih =>
    obtain ⟨hmem, hrest⟩ := List.forall_mem_cons.1 h
    obtain ⟨p, hp, rfl⟩ := List.mem_map.1 (mem_slugsOf.1 hmem)
    rw [List.map_cons, List.map_cons, Listing.nodesOf, ih hrest, Listing.name]
    rw [show under "" p.slug = p.slug from rfl,
      node_room hnamed (hnamed p hp).slug (hnamed p hp).slug_ne_nil]

/-- The categories, sorted, do not depend on the order in which they come up. -/
theorem mergeSort_slugsOf (pages : List Written) :
    (slugsOf pages).mergeSort (fun a b ↦ decide (a ≤ b)) = slugsInOrder pages := by
  have hperm : (slugsOf pages).Perm (pages.map (·.slug)).dedup :=
    (List.perm_ext_iff_of_nodup (nodup_slugsOf pages) (List.nodup_dedup _)).2 fun slug ↦ by
      rw [mem_slugsOf, List.mem_dedup]
  -- two sorted lists with the same members are the same
  refine List.Perm.eq_of_pairwise' (r := fun a b : String ↦ a ≤ b) (List.pairwise_mergeSort' _ _)
    (List.pairwise_mergeSort' _ _) ?_
  exact ((List.mergeSort_perm _ _).trans hperm).trans (List.mergeSort_perm _ _).symm

/-- **The navigation of the listing of a fresh site is the one that its pages make.** -/
theorem navigation_fresh {pages : List Written} (hnamed : ∀ p ∈ pages, p.Named)
    (title name : String) :
    navigation (listingOf name (Bare.freshTree title pages)) "" (some title)
      = siteNavigation title name pages := by
  have hoverview : pageNodes "" [readPage overviewId overviewId title]
      = [.doc overviewId landingLabel] := by
    have hnode : (readPage overviewId overviewId title).landingNode ""
        = .doc (under "" overviewId) landingLabel := (node_readPage (by decide) "" title).2
    rw [pageNodes, landingStems, List.flatMap_cons, List.flatMap_singleton,
      List.filter_cons_of_neg (by simp [readPage, overviewId]), List.filter_cons_of_pos rfl,
      List.filter_cons_of_neg (by simp [readPage, overviewId])]
    simp only [List.filter_nil, List.mergeSort_nil, List.map_nil, List.map_cons, List.nil_append,
      List.append_nil, hnode]
    rfl
  have hlabel : categoryLabel name [readPage overviewId overviewId title] = titleOf name := by
    rw [categoryLabel, List.findSome?_singleton, if_neg (by simp [readPage, overviewId])]
  have hsorted : ((slugsOf pages).map fun slug ↦ (slug, categoryNode pages slug)).mergeSort
      (fun a b ↦ decide (a.1 ≤ b.1))
        = ((slugsOf pages).mergeSort fun a b ↦ decide (a ≤ b)).map fun slug ↦
          (slug, categoryNode pages slug) :=
    (List.map_mergeSort (f := fun slug ↦ (slug, categoryNode pages slug)) fun _ _ _ _ ↦ rfl).symm
  have hkept : ∀ slugs : List String,
      ((slugs.map fun slug ↦ (slug, categoryNode pages slug)).map Prod.snd).filter
        (fun n ↦ !n.items.isEmpty) = slugs.map (categoryNode pages) := fun slugs ↦ by
    rw [List.map_map]
    refine List.filter_eq_self.2 fun n hn ↦ ?_
    obtain ⟨slug, -, rfl⟩ := List.mem_map.1 hn
    rfl
  rw [listingOf_fresh hnamed, navigation, Listing.node, nodesOf_rooms hnamed fun _ h ↦ h, hsorted,
    mergeSort_slugsOf, hoverview, hlabel, hkept, siteNavigation]
  rfl

end Docwright.Site
