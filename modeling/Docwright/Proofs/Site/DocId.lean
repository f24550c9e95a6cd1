import Docwright.Proofs.Site.Vacant

/-!
# When the navigation names a page twice

The ids of a navigation come from three rules: the overview has its own, the index page of a
category is named after its slug with `-index` behind it, and pages are named after their documents.
Pages are kept apart from one another and from the names of the landing files, but not from the id
that the index page has in its front matter. `nodup_docIds_fresh` says exactly when this matters: as
soon as the id of a document is, as a slug, the slug of its category with `-index` behind it.
-/

namespace Docwright.Site

open Files Page

namespace NavNode

mutual

/-- The ids of the pages in a node, in order. -/
def docIds : NavNode → List String
  | doc id _ => [id]
  | category _ items => docIdsAll items

/-- The ids of the pages in a list of nodes. -/
def docIdsAll : List NavNode → List String
  | [] => []
  | n :: rest => docIds n ++ docIdsAll rest

end

theorem docIdsAll_eq_flatMap (nodes : List NavNode) : docIdsAll nodes = nodes.flatMap docIds := by
  induction nodes with
  | nil => rw [docIdsAll, List.flatMap_nil]
  | cons n rest ih => rw [docIdsAll, ih, List.flatMap_cons]

end NavNode

/-! ### Ids within one navigation -/

/-- The id of a page below its category. -/
def idUnder (slug name : String) : String := s!"{slug}/{name}"

theorem toList_idUnder (slug name : String) :
    (idUnder slug name).toList = slug.toList ++ '/' :: name.toList := by
  rw [idUnder, show s!"{slug}/{name}" = slug ++ "/" ++ name from rfl]
  simp

/-- An id tells the category and the name in it. -/
theorem idUnder_inj {slug slug' name name' : String} (hslug : '/' ∉ slug.toList)
    (hname : '/' ∉ name.toList) (h : idUnder slug name = idUnder slug' name') :
    slug = slug' ∧ name = name' := by
  have hlists := congrArg String.toList h
  rw [toList_idUnder, toList_idUnder, List.append_cons_inj_of_notMem hslug hname] at hlists
  exact ⟨String.toList_inj.1 hlists.1, String.toList_inj.1 hlists.2.2⟩

/-- The ids in a category: that of its index page, then those of its pages. -/
def categoryIds (pages : List Written) (slug : String) : List String :=
  idUnder slug (indexId slug) :: (pagesById pages slug).map fun p ↦ idUnder p.slug p.pageId

theorem docIds_categoryNode (pages : List Written) (slug : String) :
    (categoryNode pages slug).docIds = categoryIds pages slug := by
  have hassoc : slug ++ "/" ++ slug ++ "-index" = slug ++ "/" ++ (slug ++ "-index") :=
    String.append_assoc
  have hindex : s!"{slug}/{slug}-index" = idUnder slug (indexId slug) := hassoc
  have hpage : ∀ p, (pageNode p).docIds = [idUnder p.slug p.pageId] := fun p ↦ by
    rw [pageNode, NavNode.docIds, idUnder]
  rw [categoryNode, NavNode.docIds, NavNode.docIdsAll, NavNode.docIds,
    NavNode.docIdsAll_eq_flatMap, List.flatMap_map, categoryIds, hindex]
  simp only [hpage, ← List.map_eq_flatMap, List.singleton_append]

/-- The ids of a site, in order. -/
theorem docIds_siteNavigation (title name : String) (pages : List Written) :
    (siteNavigation title name pages).docIds
      = overviewId :: (slugsInOrder pages).flatMap (categoryIds pages) := by
  rw [siteNavigation, NavNode.docIds, NavNode.docIdsAll, NavNode.docIds,
    NavNode.docIdsAll_eq_flatMap, List.flatMap_map]
  simp only [docIds_categoryNode, List.singleton_append]

theorem slash_not_mem_indexId {slug : String} (h : '/' ∉ slug.toList) :
    '/' ∉ (indexId slug).toList := by
  rw [toList_indexId]
  simpa using h

/-- Every id in a category is one below it. -/
theorem exists_of_mem_categoryIds {pages : List Written} (hnamed : ∀ p ∈ pages, p.Named)
    {slug id : String} (hslug : '/' ∉ slug.toList) (h : id ∈ categoryIds pages slug) :
    ∃ name, '/' ∉ name.toList ∧ id = idUnder slug name := by
  rcases List.mem_cons.1 h with rfl | h
  · exact ⟨indexId slug, slash_not_mem_indexId hslug, rfl⟩
  · obtain ⟨p, hp, rfl⟩ := List.mem_map.1 h
    obtain ⟨hmem, rfl⟩ := mem_pagesById.1 hp
    exact ⟨p.pageId, (hnamed p hmem).pageId.not_mem (by decide), rfl⟩

/-- The ids of the pages in a category are different. -/
theorem nodup_pageIds {pages : List Written} (hnamed : ∀ p ∈ pages, p.Named)
    (hnodup : (pages.map fun p ↦ (p.slug, p.pageId)).Nodup) (slug : String) :
    ((pagesById pages slug).map fun p ↦ idUnder p.slug p.pageId).Nodup := by
  have hslash : ∀ p ∈ pages, '/' ∉ p.slug.toList ∧ '/' ∉ p.pageId.toList := fun p hp ↦
    ⟨(hnamed p hp).slug.not_mem (by decide), (hnamed p hp).pageId.not_mem (by decide)⟩
  have hpages : (pagesById pages slug).Nodup :=
    (List.mergeSort_perm _ _).nodup_iff.2 (hnodup.of_map.filter _)
  refine hpages.map_on fun p hp q hq heq ↦ ?_
  have hp := (mem_pagesById.1 hp).1
  obtain ⟨hs, hid⟩ := idUnder_inj (hslash p hp).1 (hslash p hp).2 heq
  exact List.inj_on_of_nodup_map hnodup hp (mem_pagesById.1 hq).1 (Prod.ext hs hid)

/-- **The ids in a category are different** exactly if none of its pages has the id of its index
page. -/
theorem nodup_categoryIds {pages : List Written} (hnamed : ∀ p ∈ pages, p.Named)
    (hnodup : (pages.map fun p ↦ (p.slug, p.pageId)).Nodup) {slug : String}
    (hslug : '/' ∉ slug.toList) :
    (categoryIds pages slug).Nodup
      ↔ ∀ p ∈ pages, p.slug = slug → p.pageId ≠ indexId slug := by
  rw [categoryIds, List.nodup_cons, and_iff_left (nodup_pageIds hnamed hnodup slug)]
  constructor
  · rintro h p hp rfl heq
    exact h (List.mem_map.2 ⟨p, mem_pagesById.2 ⟨hp, rfl⟩, by rw [heq]⟩)
  · intro h hmem
    obtain ⟨p, hp, heq⟩ := List.mem_map.1 hmem
    obtain ⟨hmem, hunder⟩ := mem_pagesById.1 hp
    have hids := idUnder_inj hslug (slash_not_mem_indexId hslug) heq.symm
    exact h p hmem hunder hids.2.symm

/-- **The ids of a site are different** exactly if no page has the id of the index page of its
category. -/
theorem nodup_docIds_siteNavigation {pages : List Written} (hnamed : ∀ p ∈ pages, p.Named)
    (hnodup : (pages.map fun p ↦ (p.slug, p.pageId)).Nodup) (title name : String) :
    (siteNavigation title name pages).docIds.Nodup
      ↔ ∀ p ∈ pages, p.pageId ≠ indexId p.slug := by
  have hslash : ∀ slug ∈ slugsInOrder pages, '/' ∉ slug.toList := fun slug h ↦ by
    obtain ⟨p, hp, rfl⟩ := mem_slugsInOrder.1 h
    exact (hnamed p hp).slug.not_mem (by decide)
  have hoverview : overviewId ∉ (slugsInOrder pages).flatMap (categoryIds pages) := fun h ↦ by
    obtain ⟨slug, hslug, hid⟩ := List.mem_flatMap.1 h
    obtain ⟨name, -, heq⟩ := exists_of_mem_categoryIds hnamed (hslash slug hslug) hid
    have hnone : '/' ∉ overviewId.toList := by decide
    rw [heq, toList_idUnder] at hnone
    exact hnone (List.mem_append_right _ List.mem_cons_self)
  -- ids below different categories differ before the slash
  have hdisjoint : (slugsInOrder pages).Pairwise fun slug slug' ↦
      (categoryIds pages slug).Disjoint (categoryIds pages slug') := by
    refine (nodup_slugsInOrder pages).pairwise_of_forall_ne
      fun slug h slug' h' hne id hid hid' ↦ hne ?_
    obtain ⟨name, hname, rfl⟩ := exists_of_mem_categoryIds hnamed (hslash slug h) hid
    obtain ⟨name', -, heq⟩ := exists_of_mem_categoryIds hnamed (hslash slug' h') hid'
    exact (idUnder_inj (hslash slug h) hname heq).1
  rw [docIds_siteNavigation, List.nodup_cons, and_iff_right hoverview, List.nodup_flatMap,
    and_iff_left hdisjoint]
  constructor
  · intro h p hp
    have hmem := mem_slugsInOrder.2 ⟨p, hp, rfl⟩
    exact (nodup_categoryIds hnamed hnodup (hslash _ hmem)).1 (h _ hmem) p hp rfl
  · intro h slug hslug
    refine (nodup_categoryIds hnamed hnodup (hslash slug hslug)).2 fun p hp hunder ↦ ?_
    exact hunder ▸ h p hp

/-! ### Documents whose pages clash -/

/-- A slug that is neither empty nor a landing page's is the id that its page asks for. -/
theorem fileId_eq_slugOf {id : String} (hne : (slugOf id).toList ≠ [])
    (hlanding : slugOf id ∉ landingStems) : fileId id = slugOf id := by
  have hsome : ¬(slugOf id).isEmpty = true := by simpa using hne
  rw [fileId, if_neg hsome, if_neg (by simpa using hlanding)]

/-- Otherwise the id is one of a few that do not end like that of an index page. -/
theorem fileId_cases (id : String) :
    fileId id = slugOf id ∨ fileId id ∈ ["document", "index-doc", "overview-doc"] := by
  rw [fileId]
  split
  · exact Or.inr (by decide)
  · split
    · rename_i h
      have hmem : slugOf id = "index" ∨ slugOf id = "overview" := by
        simpa [landingStems] using h
      rcases hmem with h | h <;> rw [h] <;> exact Or.inr (by decide)
    · exact Or.inl rfl

theorem getLast?_indexId (slug : String) : (indexId slug).toList.getLast? = some 'x' := by
  rw [toList_indexId, List.getLast?_append_of_ne_nil _ (List.cons_ne_nil _ _)]
  rfl

/-- **A document asks for the id of an index page** exactly if its own id is that id as a slug. -/
theorem fileId_eq_indexId {id slug : String} :
    fileId id = indexId slug ↔ slugOf id = indexId slug := by
  constructor
  · intro h
    -- the other ids end in other letters than `index`
    rcases fileId_cases id with hid | hid
    · rw [← hid, h]
    · have hlast : ∀ s ∈ ["document", "index-doc", "overview-doc"],
          s.toList.getLast? ≠ some 'x' := by decide
      exact absurd (getLast?_indexId slug) (hlast _ (h ▸ hid))
  · intro h
    have hdash : '-' ∈ (slugOf id).toList := by
      rw [h, toList_indexId]
      exact List.mem_append_right _ List.mem_cons_self
    have hnone : ∀ s ∈ landingStems, '-' ∉ s.toList := by decide
    rw [fileId_eq_slugOf (List.ne_nil_of_mem hdash) fun hmem ↦ hnone _ hmem hdash, h]

/-- A candidate with a number behind it is the id of no index page. -/
theorem candidate_succ_ne_indexId (id slug : String) (n : Nat) :
    candidate id (n + 1) ≠ indexId slug := by
  intro h
  have hlast := getLast?_indexId slug
  rw [← h, candidate_succ, List.getLast?_append_of_ne_nil _ (List.cons_ne_nil _ _),
    List.getLast?_cons_of_ne_nil Nat.toDigits_ne_nil] at hlast
  have hdigit := Nat.isDigit_of_mem_toDigits (b := 10) (by decide) (by decide)
    (List.mem_of_getLast? hlast)
  exact absurd hdigit (by decide)

theorem freeId_of_not_mem {id : String} {taken : List String} (h : id ∉ taken) :
    freeId id taken = id := by
  obtain ⟨n, hn, -, hbefore⟩ := freeId_spec id taken
  cases n with
  | zero => exact hn
  | succ n => exact absurd (hbefore 0 (Nat.succ_pos n)) h

/-- **Which documents bring a page that clashes** with the index page of its category. If such an id
is taken when the document comes, then the page that took it clashes. -/
theorem exists_clash_iff (documents : List Document) :
    (∃ p ∈ placements documents, p.pageId = indexId p.slug)
      ↔ ∃ d ∈ documents, slugOf d.id = indexId (categorySlug d.category) := by
  constructor
  · rintro ⟨p, hp, hid⟩
    obtain ⟨hmem, hslug, taken, hfree⟩ := exists_of_mem_placements hp
    refine ⟨p.document, hmem, fileId_eq_indexId.1 ?_⟩
    obtain ⟨n, hn, -⟩ := freeId_spec (fileId p.document.id) taken
    rw [hfree, hn, hslug] at hid
    cases n with
    | zero => exact (candidate_zero _).symm.trans hid
    | succ n => exact absurd hid (candidate_succ_ne_indexId _ _ n)
  · induction documents using List.reverseRecOn with
    | nil => simp
    | append_singleton documents d ih =>
      rintro ⟨d', hmem, hid⟩
      rw [placements_append, place]
      rcases List.mem_append.1 hmem with hmem | hmem
      · obtain ⟨p, hp, hclash⟩ := ih ⟨d', hmem, hid⟩
        exact ⟨p, List.mem_append_left _ hp, hclash⟩
      · rw [List.mem_singleton.1 hmem] at hid
        -- the id is free and this page gets it, or it is taken by a page that clashes then
        by_cases htaken : indexId (categorySlug d.category)
            ∈ idsUnder (categorySlug d.category) (placements documents)
        · obtain ⟨p, hp, hpid⟩ := List.mem_map.1 htaken
          obtain ⟨hp, hunder⟩ := List.mem_filter.1 hp
          exact ⟨p, List.mem_append_left _ hp, by rw [hpid, beq_iff_eq.1 hunder]⟩
        · refine ⟨nameAfter (placements documents) d, by simp, ?_⟩
          simp only [nameAfter]
          rw [fileId_eq_indexId.2 hid, freeId_of_not_mem htaken]

/-! ### The navigation of an empty destination -/

/-- **When the ids of a site are different**: in an empty destination, when every write succeeds, no
two nodes of the navigation share an id exactly if no document has, as a slug, the id of the index
page of its category. -/
theorem nodup_docIds_fresh {w : Workshop} {root : Path} (hvacant : Vacant w.disk root)
    {style : String} (hstyle : (SidebarStyle.ofName? style).isSome = true)
    (documents : List Document) (job : Option String) (title : String)
    (hsmooth : Smooth w (materialize style documents root job title w)) :
    ∃ nav, (materialize style documents root job title w).1 = .ok nav ∧
      (nav.docIds.Nodup
        ↔ ∀ d ∈ documents, slugOf d.id ≠ indexId (categorySlug d.category)) := by
  refine ⟨_, navigation_materialize hvacant hstyle documents job title hsmooth, ?_⟩
  rw [nodup_docIds_siteNavigation (fun _ ↦ named_of_mem_placements) (nodup_placements documents)]
  have hclash := not_congr (exists_clash_iff documents)
  simpa only [not_exists, not_and] using hclash

/-- A document with the id of the index page of its category. -/
def shadow : List Document := [
  { id := "api-index", title := "Api Index", position := 2, body := "# Api Index\n",
    sources := [], category := "Api" }]

theorem smooth_shadow :
    Smooth blank (materialize "json" shadow ⟨false, ["site"]⟩ none "Docs" blank) :=
  smooth_of_fits vacant_blank (fun _ ↦ rfl) "json" shadow (by decide +kernel) none "Docs"

/-- The page of that document is named twice. -/
theorem exists_not_nodup_docIds_shadow :
    Vacant blank.disk ⟨false, ["site"]⟩ ∧ (SidebarStyle.ofName? "json").isSome = true ∧
      Smooth blank (materialize "json" shadow ⟨false, ["site"]⟩ none "Docs" blank) ∧
      ∃ nav, (materialize "json" shadow ⟨false, ["site"]⟩ none "Docs" blank).1 = .ok nav ∧
        ¬nav.docIds.Nodup := by
  obtain ⟨nav, hnav, hiff⟩ :=
    nodup_docIds_fresh vacant_blank (by decide) shadow none "Docs" smooth_shadow
  refine ⟨vacant_blank, by decide, smooth_shadow, nav, hnav, fun h ↦ ?_⟩
  exact hiff.1 h _ List.mem_cons_self (by decide +kernel)

end Docwright.Site
