import Docwright.Proofs.Site.Arrangement
import Docwright.Proofs.Site.DocId

/-!
# What the navigation holds

`Shows` says what the category of a folder is without sorting anything: a permutation of its pages
that is in order, and after it the categories of those folders that have a page in or below them, in
order of their names. What `node` makes of a listing is that (`Listing.Distinct.shows`), and the
rest is read off it.

* `Shows.docIds_perm` - the ids in a category are those of the pages in and below the folder.
* `itemsOf_folder` - a folder has the items for its own sidebar that it has in that of the site.
* `navigation_of_distinct` - all this together, and that the order of the listing does not matter.

The path of a folder stands in front of the ids of its pages. It is made on the way down, one name
after the other; `pathText` is that path as a function of the names that lead to the folder.
-/

namespace Docwright.Site

/-! ### Paths -/

/-- The path of a folder as text: the names that lead to it with slashes between them. Names without
any character at its start do not show. -/
def pathText (names : List String) : String :=
  "/".intercalate (names.dropWhile (·.isEmpty))

theorem pathText_singleton (name : String) : pathText [name] = name := by
  by_cases h : name = ""
  · rw [h]
    rfl
  · rw [pathText, List.dropWhile_cons_of_neg (by simpa using h), String.intercalate_singleton]

/-- **One more name leads on from a path.** -/
theorem under_pathText (names : List String) (name : String) :
    under (pathText names) name = pathText (names ++ [name]) := by
  induction names with
  | nil => exact (pathText_singleton name).symm
  | cons first rest ih =>
    by_cases h : first = ""
    · have hdrop : ∀ rest, pathText (first :: rest) = pathText rest := fun rest ↦ by
        rw [pathText, List.dropWhile_cons_of_pos (by simpa using h), pathText]
      rw [List.cons_append, hdrop, hdrop, ih]
    · have hkeep : ∀ rest, pathText (first :: rest) = "/".intercalate (first :: rest) :=
        fun rest ↦ by rw [pathText, List.dropWhile_cons_of_neg (by simpa using h)]
      have hne : ("/".intercalate (first :: rest)).isEmpty = false := by
        cases rest with
        | nil => simpa [String.intercalate_singleton] using h
        | cons next more => simp [String.intercalate_cons_cons, h]
      rw [List.cons_append, hkeep, hkeep, under, hne, ← List.cons_append,
        String.intercalate_append_of_ne_nil (List.cons_ne_nil _ _) (List.cons_ne_nil _ _),
        String.intercalate_singleton]
      rfl

/-! ### Pages in and below a folder -/

namespace Listing

mutual

/-- The pages in a folder that `trail` leads to and in all folders inside it, each with the names
that lead to its folder. -/
def pagesBelow (trail : List String) : Listing → List (List String × PageFile)
  | .mk _ files folders => files.map (fun f ↦ (trail, f)) ++ pagesBelowAll trail folders

/-- The pages in folders inside the folder that `trail` leads to. -/
def pagesBelowAll (trail : List String) : List Listing → List (List String × PageFile)
  | [] => []
  | l :: rest => pagesBelow (trail ++ [l.name]) l ++ pagesBelowAll trail rest

end

/-- Whether there is a page in the folder or in any folder inside it. -/
def hasPages (l : Listing) : Bool :=
  !(l.pagesBelow []).isEmpty

theorem pagesBelowAll_eq_flatMap (trail : List String) (folders : List Listing) :
    pagesBelowAll trail folders = folders.flatMap fun l ↦ l.pagesBelow (trail ++ [l.name]) := by
  induction folders with
  | nil => rw [pagesBelowAll, List.flatMap_nil]
  | cons l rest ih => rw [pagesBelowAll, ih, List.flatMap_cons]

theorem pageNodes_eq_nil {base : String} {files : List PageFile} :
    pageNodes base files = [] ↔ files = [] := by
  rw [pageNodes_eq_map, List.map_eq_nil_iff, ← List.length_eq_zero_iff,
    (orderedPages_perm files).length_eq, List.length_eq_zero_iff]

/-- A category has no items exactly if there is no page in or below its folder. The names that lead
to the folder are of no importance. -/
theorem items_eq_nil_iff (base : String) (trail : List String) (l : Listing) :
    (l.node base).items = [] ↔ l.pagesBelow trail = [] := by
  match l with
  | .mk name files folders =>
    have ih : ∀ l ∈ folders, (l.node (under base l.name)).items = []
        ↔ l.pagesBelow (trail ++ [l.name]) = [] := fun l hl ↦
      have := List.sizeOf_lt_of_mem hl
      items_eq_nil_iff (under base l.name) (trail ++ [l.name]) l
    have hnodes : ((((nodesOf base folders).mergeSort fun a b ↦ decide (a.1 ≤ b.1)).map
        (·.2)).filter fun n ↦ !n.items.isEmpty) = [] ↔ pagesBelowAll trail folders = [] := by
      rw [List.filter_eq_nil_iff, pagesBelowAll_eq_flatMap, List.flatMap_eq_nil_iff,
        nodesOf_eq_map]
      simp only [List.mem_map, List.mem_mergeSort, forall_exists_index, and_imp,
        forall_apply_eq_imp_iff₂, Bool.not_eq_true, Bool.not_eq_false', List.isEmpty_iff]
      exact forall₂_congr ih
    rw [Listing.node, NavNode.items, List.append_eq_nil_iff, hnodes, pageNodes_eq_nil, pagesBelow,
      List.append_eq_nil_iff, List.map_eq_nil_iff]
termination_by sizeOf l

/-- **A category has items exactly if there is a page in or below its folder.** -/
theorem isEmpty_items (base : String) (l : Listing) :
    (l.node base).items.isEmpty = !l.hasPages := by
  rw [hasPages, Bool.not_not, Bool.eq_iff_iff, List.isEmpty_iff, List.isEmpty_iff]
  exact items_eq_nil_iff base [] l

theorem pagesBelow_eq_nil {l : Listing} (h : l.hasPages = false) (trail : List String) :
    l.pagesBelow trail = [] := by
  rw [← items_eq_nil_iff "" trail, ← List.isEmpty_iff, isEmpty_items, h]
  rfl

end Listing

/-- What adds nothing may be left out. -/
theorem flatMap_filter_of_eq_nil {α β : Type*} {keep : α → Bool} {f : α → List β} {xs : List α}
    (h : ∀ x ∈ xs, keep x = false → f x = []) : (xs.filter keep).flatMap f = xs.flatMap f := by
  induction xs with
  | nil => rfl
  | cons x rest ih =>
    obtain ⟨hx, hrest⟩ := List.forall_mem_cons.1 h
    cases hkeep : keep x with
    | true => rw [List.filter_cons_of_pos hkeep, List.flatMap_cons, List.flatMap_cons, ih hrest]
    | false =>
      rw [List.filter_cons_of_neg (by simp [hkeep]), List.flatMap_cons, hx hkeep, ih hrest,
        List.nil_append]

/-- `Shows base l n` says that `n` is the category, under any label, of a folder with the listing
`l` that `base` leads to. -/
inductive Shows : String → Listing → NavNode → Prop
  | mk {base name label : String} {files : List PageFile} {folders : List Listing}
    (pages : List PageFile) (categories : List (Listing × NavNode)) (perm : pages.Perm files)
    (inOrder : pages.Pairwise PageFile.Precedes)
    (kept : (categories.map Prod.fst).Perm (folders.filter Listing.hasPages))
    (byName : categories.Pairwise fun a b ↦ a.1.name < b.1.name)
    (inner : ∀ c ∈ categories, Shows (under base c.1.name) c.1 c.2) :
    Shows base (.mk name files folders)
      (.category label (pages.map (PageFile.shown base) ++ categories.map Prod.snd))

/-- The categories of the folders that have one, in order of their names. -/
def categoriesIn (base : String) (folders : List Listing) : List (Listing × NavNode) :=
  ((folders.mergeSort fun a b ↦ decide (a.name ≤ b.name)).filter Listing.hasPages).map
    fun l ↦ (l, l.node (under base l.name))

theorem Listing.node_mk (base name : String) (files : List PageFile) (folders : List Listing) :
    (Listing.mk name files folders).node base = .category (categoryLabel name files)
      ((orderedPages files).map (PageFile.shown base) ++
        (categoriesIn base folders).map Prod.snd) := by
  have hsort : (nodesOf base folders).mergeSort (fun a b ↦ decide (a.1 ≤ b.1))
      = (folders.mergeSort fun a b ↦ decide (a.name ≤ b.name)).map
        fun l ↦ (l.name, l.node (under base l.name)) := by
    rw [nodesOf_eq_map, List.map_mergeSort]
    exact fun _ _ _ _ ↦ rfl
  have hkept : ((fun n : NavNode ↦ !n.items.isEmpty) ∘ Prod.snd ∘
      fun l : Listing ↦ (l.name, l.node (under base l.name))) = Listing.hasPages := by
    funext l
    simp [Listing.isEmpty_items]
  rw [Listing.node, pageNodes_eq_map, hsort, List.map_map, List.filter_map, hkept, categoriesIn,
    List.map_map]
  rfl

theorem categoriesIn_perm (base : String) (folders : List Listing) :
    ((categoriesIn base folders).map Prod.fst).Perm (folders.filter Listing.hasPages) := by
  rw [categoriesIn, List.map_map]
  refine (List.Perm.of_eq (List.map_id _)).trans ?_
  exact (List.mergeSort_perm _ _).filter _

theorem pairwise_categoriesIn (base : String) {folders : List Listing}
    (hnames : (folders.map Listing.name).Nodup) :
    (categoriesIn base folders).Pairwise fun a b ↦ a.1.name < b.1.name := by
  rw [categoriesIn, List.pairwise_map]
  exact (pairwise_mergeSort_key hnames).filter _

/-- **What `node` makes of a listing is its category.** -/
theorem Listing.Distinct.shows {l : Listing} (h : l.Distinct) (base : String) :
    Shows base l (l.node base) := by
  induction h generalizing base with
  | @mk name files folders stems names inner ih =>
    rw [Listing.node_mk]
    refine .mk (orderedPages files) (categoriesIn base folders) (orderedPages_perm files)
      (pairwise_orderedPages stems) (categoriesIn_perm base folders)
      (pairwise_categoriesIn base names) fun c hc ↦ ?_
    obtain ⟨l, hl, rfl⟩ := List.mem_map.1 hc
    exact ih l (List.mem_mergeSort.1 (List.mem_filter.1 hl).1) (under base l.name)

/-- The ids of the pages in and below a folder that `trail` leads to, as they should be: the path of
the folder that the page is in, and the id of its front matter or else its stem. -/
def Listing.idsBelow (trail : List String) (l : Listing) : List String :=
  (l.pagesBelow trail).map fun p ↦ under (pathText p.1) (orElse p.2.id p.2.stem)

theorem Listing.idsBelow_mk (trail : List String) (name : String) (files : List PageFile)
    (folders : List Listing) :
    (Listing.mk name files folders).idsBelow trail
      = files.map (PageFile.nodeId (pathText trail)) ++
        folders.flatMap fun l ↦ l.idsBelow (trail ++ [l.name]) := by
  rw [Listing.idsBelow, pagesBelow, pagesBelowAll_eq_flatMap, List.map_append, List.map_map,
    List.map_flatMap]
  rfl

/-- **The ids in a category are those of the pages in and below its folder**, each as often as there
are pages with it. -/
theorem Shows.docIds_perm {base : String} {l : Listing} {n : NavNode} (h : Shows base l n)
    {trail : List String} (htrail : pathText trail = base) :
    n.docIds.Perm (l.idsBelow trail) := by
  induction h generalizing trail with
  | @mk base name label files folders pages categories perm inOrder kept byName inner ih =>
    have hpages : (pages.map (PageFile.shown base)).flatMap NavNode.docIds
        = pages.map (PageFile.nodeId base) := by
      rw [List.flatMap_map, List.map_eq_flatMap]
      refine List.flatMap_congr fun f _ ↦ ?_
      obtain ⟨label, hlabel⟩ := f.shown_eq base
      rw [hlabel, NavNode.docIds]
    have hcategories : (categories.flatMap fun c ↦ c.2.docIds).Perm
        (categories.flatMap fun c ↦ c.1.idsBelow (trail ++ [c.1.name])) :=
      List.Perm.flatMap_left _ fun c hc ↦ ih c hc (by rw [← under_pathText, htrail])
    have hfolders : ((folders.filter Listing.hasPages).flatMap fun l ↦
        l.idsBelow (trail ++ [l.name])) = folders.flatMap fun l ↦ l.idsBelow (trail ++ [l.name]) :=
      flatMap_filter_of_eq_nil fun l _ hnone ↦ by
        rw [Listing.idsBelow, Listing.pagesBelow_eq_nil hnone, List.map_nil]
    have hkept := kept.flatMap_right fun l ↦ l.idsBelow (trail ++ [l.name])
    rw [List.flatMap_map, hfolders] at hkept
    rw [NavNode.docIds, NavNode.docIdsAll_eq_flatMap, List.flatMap_append, hpages,
      List.flatMap_map, Listing.idsBelow_mk, htrail]
    exact (perm.map _).append (hcategories.trans hkept)

/-! ### The sidebars of a site -/

/-- The items that the category of a folder has among the categories of the folder around it. There
are none when it has no category there. -/
inductive ItemsOf (categories : List (Listing × NavNode)) (folder : Listing) : List NavNode → Prop
  | shown {n : NavNode} (h : (folder, n) ∈ categories) : ItemsOf categories folder n.items
  | absent (h : folder ∉ categories.map Prod.fst) : ItemsOf categories folder []

/-- The label of the outermost category may be any. -/
theorem Shows.relabel {base : String} {l : Listing} {n : NavNode} (h : Shows base l n)
    (label : String) : Shows base l (.category label n.items) := by
  cases h with
  | mk pages categories perm inOrder kept byName inner =>
    exact .mk pages categories perm inOrder kept byName inner

/-- A folder in the site has the items for its own sidebar that it has in the sidebar of the
site. -/
theorem itemsOf_folder {folders : List Listing} {folder : Listing} (h : folder ∈ folders) :
    ItemsOf (categoriesIn "" folders) folder (folder.node folder.name).items := by
  have hmem : ∀ l, l ∈ (folders.mergeSort fun a b ↦ decide (a.name ≤ b.name)).filter
      Listing.hasPages ↔ l ∈ folders ∧ l.hasPages = true := fun l ↦ by
    rw [List.mem_filter, List.mem_mergeSort]
  cases hpages : folder.hasPages with
  | true =>
    -- seen from the site the path of the folder is its name
    have hunder : under "" folder.name = folder.name := rfl
    refine .shown (n := folder.node folder.name) (List.mem_map.2 ⟨folder, ?_, ?_⟩)
    · exact (hmem folder).2 ⟨h, hpages⟩
    · rw [hunder]
  | false =>
    have hnil : (folder.node folder.name).items = [] := by
      rw [← List.isEmpty_iff, Listing.isEmpty_items, hpages]
      rfl
    rw [hnil]
    refine .absent fun hmem' ↦ ?_
    have hkept := (categoriesIn_perm "" folders).mem_iff.1 hmem'
    exact absurd (List.mem_filter.1 hkept).2 (by rw [hpages]; decide)

/-- Writes the sidebar of a site with the given category, and one for each folder in it with the
given items. -/
def putSidebars (root : Files.Path) (fileName : String) (form : SidebarStyle) (site : NavNode)
    (folders : List Listing) (itemsOf : Listing → List NavNode) (w : Workshop) : Workshop :=
  folders.foldl (fun w folder ↦ writeOrReport w ((root.child folder.name).child fileName)
      (sidebarText form (.category folder.name (itemsOf folder))))
    (writeOrReport w (root.child fileName) (sidebarText form site))

/-- The sidebars that are written for a site that is listed as `l`. -/
theorem writeSidebars_listed {root : Files.Path} {style : String} {form : SidebarStyle}
    (hstyle : SidebarStyle.ofName? style = some form) {w : Workshop} {log : Log} {l : Listing}
    (hlisted : readListing w.disk root = (log, .ok l)) (title : String) :
    writeSidebars root style title w = (.ok (navigation l "" (some title)),
      putSidebars root (SidebarStyle.fileName style) form (navigation l "" (some title)) l.folders
        (fun folder ↦ (folder.node folder.name).items)
        { w with ledger := w.ledger.record log }) := by
  rw [writeSidebars, hlisted]
  simp only [hstyle]
  rfl

/-- **The navigation depends only on which pages and folders there are.** Where no two pages of a
folder share a stem and no two folders in it a name, it is the same for every order of the listing.
It holds the pages in and below the folder, each once and under the path of its folder; in every
category `index` and `overview` come first, then the other pages by stem, then those folders by name
that have a page in or below them. The sidebar that is written for a folder of the site has the
items of its category in the sidebar of the whole site. -/
theorem navigation_of_distinct {l : Listing} (h : l.Distinct) :
    (∀ l' base label, l.Rearranged l' → navigation l' base label = navigation l base label) ∧
      (∀ base label, Shows base l (navigation l base label)) ∧
      (∀ trail label,
        (navigation l (pathText trail) label).docIds.Perm (l.idsBelow trail)) ∧
      ∀ title, ∃ (pages : List PageFile) (categories : List (Listing × NavNode))
          (itemsOf : Listing → List NavNode),
        (navigation l "" (some title)).items
          = pages.map (PageFile.shown "") ++ categories.map Prod.snd ∧
        (categories.map Prod.fst).Perm (l.folders.filter Listing.hasPages) ∧
        (∀ folder ∈ l.folders, ItemsOf categories folder (itemsOf folder)) ∧
        ∀ root style form w log, SidebarStyle.ofName? style = some form →
          readListing w.disk root = (log, .ok l) →
          writeSidebars root style title w = (.ok (navigation l "" (some title)),
            putSidebars root (SidebarStyle.fileName style) form (navigation l "" (some title))
              l.folders itemsOf { w with ledger := w.ledger.record log }) := by
  have hshows : ∀ base label, Shows base l (navigation l base label) := fun base label ↦
    (h.shows base).relabel _
  refine ⟨fun l' base label hl' ↦ ?_, hshows, fun trail label ↦ ?_, fun title ↦ ?_⟩
  · rw [navigation, navigation, hl'.node_eq h base]
  · exact (hshows _ label).docIds_perm rfl
  · refine ⟨orderedPages l.files, categoriesIn "" l.folders,
      fun folder ↦ (folder.node folder.name).items, ?_, categoriesIn_perm "" l.folders,
      fun folder hfolder ↦ itemsOf_folder hfolder, fun root style form w log hstyle hlisted ↦
        writeSidebars_listed hstyle hlisted title⟩
    cases l with
    | mk name files folders =>
      rw [navigation, NavNode.items, Listing.node_mk, NavNode.items]
      rfl

/-- A folder as some disk lists it: neither its pages nor its folders are in order, and one of the
folders holds nothing but an empty one. -/
def shuffled : Listing :=
  .mk "site" [{ stem := "zoo" }, { stem := "overview" }, { stem := "ant", id := some "first" },
      { stem := "index", title := some "Home" }] [
    .mk "web" [{ stem := "routes" }, { stem := "index" }] [.mk "deep" [{ stem := "dive" }] []],
    .mk "void" [] [.mk "empty" [] []],
    .mk "core" [{ stem := "queue" }] []]

/-- The same folder as another disk lists it. -/
def reshuffled : Listing :=
  .mk "site" [{ stem := "index", title := some "Home" }, { stem := "ant", id := some "first" },
      { stem := "overview" }, { stem := "zoo" }] [
    .mk "core" [{ stem := "queue" }] [],
    .mk "void" [] [.mk "empty" [] []],
    .mk "web" [{ stem := "index" }, { stem := "routes" }] [.mk "deep" [{ stem := "dive" }] []]]

theorem distinct_shuffled : shuffled.Distinct := by
  have hleaf : ∀ name (files : List PageFile), (files.map PageFile.stem).Nodup →
      (Listing.mk name files []).Distinct := fun name files h ↦
    .mk h List.nodup_nil (by simp)
  refine .mk (by decide) (by decide) ?_
  simp only [List.forall_mem_cons, List.not_mem_nil, false_imp_iff, implies_true, and_true]
  refine ⟨.mk (by decide) (by decide) ?_, .mk (by decide) (by decide) ?_, hleaf _ _ (by decide)⟩
  · exact List.forall_mem_singleton.2 (hleaf _ _ (by decide))
  · exact List.forall_mem_singleton.2 (hleaf _ _ (by decide))

theorem rearranged_shuffled : shuffled.Rearranged reshuffled := by
  have hleaf : ∀ name (files : List PageFile),
      (Listing.mk name files []).Rearranged (.mk name files []) := fun name files ↦
    .mk [] (List.Perm.refl _) List.Perm.nil (by simp)
  have hweb : (Listing.mk "web" [{ stem := "routes" }, { stem := "index" }]
      [.mk "deep" [{ stem := "dive" }] []]).Rearranged
      (.mk "web" [{ stem := "index" }, { stem := "routes" }]
        [.mk "deep" [{ stem := "dive" }] []]) :=
    .mk [(.mk "deep" [{ stem := "dive" }] [], .mk "deep" [{ stem := "dive" }] [])]
      (by decide) (List.Perm.refl _) (List.forall_mem_singleton.2 (hleaf _ _))
  have hvoid : (Listing.mk "void" [] [.mk "empty" [] []]).Rearranged
      (.mk "void" [] [.mk "empty" [] []]) :=
    .mk [(.mk "empty" [] [], .mk "empty" [] [])] List.Perm.nil (List.Perm.refl _)
      (List.forall_mem_singleton.2 (hleaf _ _))
  refine .mk [(_, _), (_, _), (_, _)] (by decide) (List.reverse_perm _).symm ?_
  simp only [List.forall_mem_cons, List.not_mem_nil, false_imp_iff, implies_true, and_true]
  exact ⟨hweb, hvoid, hleaf _ _⟩

/-- Both disks give the same navigation, and each of the eight pages is in it. -/
theorem navigation_shuffled : shuffled.Distinct ∧ shuffled.Rearranged reshuffled ∧
    navigation reshuffled "" none = navigation shuffled "" none ∧
    (navigation shuffled (pathText []) none).docIds.Perm
      ["zoo", "overview", "first", "index", "web/routes", "web/index", "web/deep/dive",
        "core/queue"] :=
  ⟨distinct_shuffled, rearranged_shuffled,
    (navigation_of_distinct distinct_shuffled).1 reshuffled "" none rearranged_shuffled,
    (navigation_of_distinct distinct_shuffled).2.2.1 [] none⟩

end Docwright.Site
