import Docwright.Site.Navigation
import Docwright.Proofs.Feature.Groups
import Docwright.Proofs.Json.Sorting

/-!
# The navigation does not depend on the order of a listing

A folder is listed in whatever order the disk gives. Where no two pages of a folder share a stem and
no two folders in it a name (`Listing.Distinct`), its category is the same for all orders of the
listing (`Listing.Rearranged.node_eq`), because every list in it is sorted by keys that are
different: there is one list of given elements that is in strict order.

The pages of one folder are not sorted in one go. `orderedPages` has them as they are shown, landing
pages first, and `PageFile.Precedes` is the order that they come out in.
-/

namespace Docwright.Site

/-! ### Listings -/

namespace Listing

/-- In no folder do two pages share a stem or two folders a name. -/
inductive Distinct : Listing → Prop
  | mk {name : String} {files : List PageFile} {folders : List Listing}
    (stems : (files.map PageFile.stem).Nodup) (names : (folders.map Listing.name).Nodup)
    (inner : ∀ l ∈ folders, l.Distinct) : Distinct (.mk name files folders)

/-- The same pages and folders in any order, in every folder. The pairs tell which folder has become
which. -/
inductive Rearranged : Listing → Listing → Prop
  | mk {name : String} {files files' : List PageFile} {folders' : List Listing}
    (pairs : List (Listing × Listing)) (pages : files.Perm files')
    (order : (pairs.map Prod.snd).Perm folders') (inner : ∀ p ∈ pairs, Rearranged p.1 p.2) :
    Rearranged (.mk name files (pairs.map Prod.fst)) (.mk name files' folders')

theorem nodesOf_eq_map (base : String) (folders : List Listing) :
    nodesOf base folders = folders.map fun l ↦ (l.name, l.node (under base l.name)) := by
  induction folders with
  | nil => rw [nodesOf, List.map_nil]
  | cons l rest ih => rw [nodesOf, ih, List.map_cons]

end Listing

/-! ### The pages of one folder -/

namespace PageFile

/-- The place of a page's stem among the landing stems, which for all other stems is after them. -/
def rank (f : PageFile) : Nat :=
  landingStems.idxOf f.stem

/-- Whether a page stands before another in its category: landing pages in their order, and then
the others by stem. -/
def Precedes (f g : PageFile) : Prop :=
  f.rank < g.rank ∨ f.rank = g.rank ∧ f.stem < g.stem

theorem Precedes.asymm {f g : PageFile} (h : f.Precedes g) : ¬g.Precedes f := by
  rintro (hlt | ⟨heq, hstem⟩)
  · rcases h with h | ⟨h, -⟩
    · exact Nat.lt_asymm h hlt
    · exact Nat.ne_of_lt hlt h.symm
  · rcases h with h | ⟨-, h⟩
    · exact Nat.ne_of_lt h heq.symm
    · exact lt_asymm h hstem

/-- The node of a page, landing page or not, in the category of the folder that `base` leads to. -/
def shown (base : String) (f : PageFile) : NavNode :=
  if landingStems.contains f.stem then f.landingNode base else f.node base

theorem shown_eq (base : String) (f : PageFile) :
    ∃ label, f.shown base = .doc (f.nodeId base) label := by
  rw [shown]
  split
  · exact ⟨landingLabel, rfl⟩
  · exact ⟨orElse f.title (Page.titleOf f.stem), rfl⟩

end PageFile

/-- The pages of a folder in the order in which its category shows them. -/
def orderedPages (files : List PageFile) : List PageFile :=
  landingStems.flatMap (fun stem ↦ files.filter (·.stem == stem)) ++
    (files.filter fun f ↦ !landingStems.contains f.stem).mergeSort
      fun f g ↦ decide (f.stem ≤ g.stem)

theorem pageNodes_eq_map (base : String) (files : List PageFile) :
    pageNodes base files = (orderedPages files).map (PageFile.shown base) := by
  have hlanding : ∀ stem ∈ landingStems,
      (files.filter (·.stem == stem)).map (PageFile.landingNode base)
        = (files.filter (·.stem == stem)).map (PageFile.shown base) := fun stem hstem ↦ by
    refine List.map_congr_left fun f hf ↦ ?_
    have heq : f.stem = stem := by simpa using (List.mem_filter.1 hf).2
    rw [PageFile.shown, heq, if_pos (by simpa using hstem)]
  have hother : ∀ f ∈ (files.filter fun f ↦ !landingStems.contains f.stem).mergeSort
      fun f g ↦ decide (f.stem ≤ g.stem), f.node base = f.shown base := fun f hf ↦ by
    have hnot : landingStems.contains f.stem = false := by
      simpa using (List.mem_filter.1 (List.mem_mergeSort.1 hf)).2
    rw [PageFile.shown, hnot, if_neg (by decide)]
  rw [pageNodes, orderedPages, List.map_append, List.map_flatMap, List.flatMap_congr hlanding,
    List.map_congr_left hother]

theorem orderedPages_perm (files : List PageFile) : (orderedPages files).Perm files := by
  have hlanding : landingStems.flatMap (fun stem ↦ files.filter (·.stem == stem))
      = landingStems.flatMap fun stem ↦
        (files.filter (landingStems.contains ·.stem)).filter (·.stem == stem) := by
    refine List.flatMap_congr fun stem hstem ↦ ?_
    rw [List.filter_filter]
    refine List.filter_congr fun f _ ↦ ?_
    by_cases h : f.stem = stem
    · simp [h, hstem]
    · simp [h]
  have hperm : (landingStems.flatMap fun stem ↦
      (files.filter (landingStems.contains ·.stem)).filter (·.stem == stem)).Perm
        (files.filter (landingStems.contains ·.stem)) :=
    Feature.flatMap_filter_perm PageFile.stem (by decide) fun f hf ↦ by
      simpa using (List.mem_filter.1 hf).2
  rw [orderedPages, hlanding]
  exact (hperm.append (List.mergeSort_perm _ _)).trans (List.filter_append_perm _ _)

/-- There is no more than one page with a given stem, so whatever two of them should have in common
holds. -/
theorem pairwise_filter_stem {files : List PageFile} (hstems : (files.map PageFile.stem).Nodup)
    (stem : String) (r : PageFile → PageFile → Prop) :
    (files.filter (·.stem == stem)).Pairwise r := by
  have hne : files.Pairwise fun f g ↦ f.stem ≠ g.stem := List.pairwise_map.1 hstems
  refine (hne.filter _).imp_of_mem fun {f g} hf hg hne ↦ absurd ?_ hne
  have hstem : ∀ f ∈ files.filter (·.stem == stem), f.stem = stem := fun f hf ↦ by
    simpa using (List.mem_filter.1 hf).2
  rw [hstem f hf, hstem g hg]

theorem pairwise_orderedPages {files : List PageFile} (hstems : (files.map PageFile.stem).Nodup) :
    (orderedPages files).Pairwise PageFile.Precedes := by
  have hlanding : ∀ {stem f}, f ∈ files.filter (·.stem == stem) →
      f.rank = landingStems.idxOf stem := fun {stem f} hf ↦ by
    have heq : f.stem = stem := by simpa using (List.mem_filter.1 hf).2
    rw [PageFile.rank, heq]
  have hother : ∀ {f}, f ∈ (files.filter fun f ↦ !landingStems.contains f.stem).mergeSort
      (fun f g ↦ decide (f.stem ≤ g.stem)) → f.rank = landingStems.length := fun {f} hf ↦ by
    have hnot : f.stem ∉ landingStems := by
      simpa using (List.mem_filter.1 (List.mem_mergeSort.1 hf)).2
    exact List.idxOf_eq_length hnot
  rw [orderedPages, List.pairwise_append, List.pairwise_flatMap]
  refine ⟨⟨fun stem _ ↦ pairwise_filter_stem hstems stem _, ?_⟩, ?_, fun f hf g hg ↦ Or.inl ?_⟩
  · have hstems : landingStems.Pairwise fun a b ↦
        landingStems.idxOf a < landingStems.idxOf b := by decide
    refine hstems.imp fun hlt f hf g hg ↦ Or.inl ?_
    rwa [hlanding hf, hlanding hg]
  · refine (pairwise_mergeSort_key (hstems.sublist (List.filter_sublist.map _))).imp_of_mem
      fun {f g} hf hg hlt ↦ Or.inr ⟨?_, hlt⟩
    rw [hother hf, hother hg]
  · obtain ⟨stem, hstem, hf⟩ := List.mem_flatMap.1 hf
    rw [hlanding hf, hother hg]
    exact List.idxOf_lt_length_of_mem hstem

/-- **There is one order of the pages of a folder.** -/
theorem orderedPages_eq_of_perm {files files' : List PageFile}
    (hstems : (files.map PageFile.stem).Nodup) (h : files.Perm files') :
    orderedPages files = orderedPages files' := by
  refine List.Perm.eq_of_pairwise (fun f g _ _ hfg hgf ↦ absurd hgf hfg.asymm)
    (pairwise_orderedPages hstems)
    (pairwise_orderedPages ((h.map PageFile.stem).nodup_iff.1 hstems)) ?_
  exact (orderedPages_perm files).trans (h.trans (orderedPages_perm files').symm)

theorem findSome?_filter_stem {β : Type*} (files : List PageFile) (stem : String)
    (value : PageFile → Option β) :
    (files.findSome? fun f ↦ if f.stem == stem then value f else none)
      = (files.filter (·.stem == stem)).findSome? value := by
  induction files with
  | nil => rfl
  | cons f rest ih =>
    rw [List.findSome?_cons, ih]
    by_cases h : f.stem = stem
    · simp [h, List.findSome?_cons]
    · simp [h]

/-- The label of a category does not depend on the order of its pages either. -/
theorem categoryLabel_eq_of_perm {files files' : List PageFile}
    (hstems : (files.map PageFile.stem).Nodup) (h : files.Perm files') (name : String) :
    categoryLabel name files = categoryLabel name files' := by
  have hindex : files.filter (·.stem == "index") = files'.filter (·.stem == "index") := by
    -- both have one member at most, so they are pairwise related by whatever one likes
    exact List.Perm.eq_of_pairwise (fun _ _ _ _ h ↦ h.elim)
      (pairwise_filter_stem hstems _ fun _ _ ↦ False)
      (pairwise_filter_stem ((h.map PageFile.stem).nodup_iff.1 hstems) _ _) (h.filter _)
  rw [categoryLabel, categoryLabel, findSome?_filter_stem, findSome?_filter_stem, hindex]

/-! ### Rearranging a listing -/

theorem Listing.Rearranged.name_eq {l l' : Listing} (h : l.Rearranged l') : l.name = l'.name := by
  cases h with
  | mk => rfl

/-- **The category of a folder is the same for every order of its listing.** -/
theorem Listing.Rearranged.node_eq {l l' : Listing} (h : l.Rearranged l') (hdistinct : l.Distinct)
    (base : String) : l.node base = l'.node base := by
  induction h generalizing base with
  | @mk name files files' folders' pairs pages order inner ih =>
    cases hdistinct with
    | mk stems names distinct =>
      -- folder by folder the categories are the same, so only their order is left
      have hnodes : (pairs.map Prod.fst).map (fun l ↦ (l.name, l.node (under base l.name)))
          = (pairs.map Prod.snd).map fun l ↦ (l.name, l.node (under base l.name)) := by
        rw [List.map_map, List.map_map]
        refine List.map_congr_left fun p hp ↦ ?_
        have hnode := ih p hp (distinct _ (List.mem_map_of_mem hp)) (under base p.1.name)
        rw [Function.comp_apply, Function.comp_apply, hnode, (inner p hp).name_eq]
      have hkeys : ((nodesOf base (pairs.map Prod.fst)).map Prod.fst).Nodup := by
        rw [nodesOf_eq_map, List.map_map]
        exact names
      have hperm : (nodesOf base (pairs.map Prod.fst)).Perm (nodesOf base folders') := by
        rw [nodesOf_eq_map, nodesOf_eq_map, hnodes]
        exact order.map _
      rw [Listing.node, Listing.node, categoryLabel_eq_of_perm stems pages, pageNodes_eq_map,
        pageNodes_eq_map, orderedPages_eq_of_perm stems pages,
        mergeSort_key_eq_of_perm hkeys hperm]

end Docwright.Site
