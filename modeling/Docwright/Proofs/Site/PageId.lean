import Docwright.Proofs.Page.Slug
import Docwright.Site.Materialize
import Mathlib.Data.List.Nodup
import Mathlib.Data.List.Perm.Subperm
import Std.Data.String.ToNat

/-!
# Names of pages

Which page gets which id depends on the documents alone, not on the disk: `placements` gives every
document the slug of its category and an id of its own there. The search for a free id ends because
the candidates are different from one another and there is one more of them than ids that are taken
(`freeId_spec`); so no two pages share a name (`nodup_placements`).

Slugs and ids of pages look like slugs (`named_of_mem_placements`), so each of them is one name on a
path, none is that of a landing page, and neither is changed by being written to the front matter
and read back.
-/

namespace Docwright.Site

open Docwright.Page

/-! ### The search for a free id -/

theorem candidate_zero (id : String) : candidate id 0 = id := rfl

theorem candidate_succ (id : String) (n : Nat) :
    (candidate id (n + 1)).toList = id.toList ++ '-' :: Nat.toDigits 10 (n + 2) := by
  rw [show candidate id (n + 1) = id ++ "-" ++ (n + 2).repr from rfl, String.toList_append,
    String.toList_append, Nat.toList_repr]
  simp

/-- **No two candidates are the same.** -/
theorem candidate_injective (id : String) : Function.Injective (candidate id) := by
  have hlonger : ∀ n, candidate id (n + 1) ≠ id := fun n h ↦ by
    have hlength := congrArg (fun s : String ↦ s.toList.length) h
    simp [candidate_succ] at hlength
  intro m n h
  cases m with
  | zero =>
    cases n with
    | zero => rfl
    | succ n => exact absurd h.symm (hlonger n)
  | succ m =>
    cases n with
    | zero => exact absurd h (hlonger m)
    | succ n =>
      have hlists := congrArg String.toList h
      rw [candidate_succ, candidate_succ, List.append_cancel_left_eq, List.cons.injEq,
        ← Nat.toList_repr, ← Nat.toList_repr, String.toList_inj] at hlists
      have := Nat.repr_injective hlists.2
      omega

/-- Among as many candidates as there are taken ids and one more, one is free. -/
theorem exists_candidate_not_mem (id : String) (taken : List String) :
    ∃ n < taken.length + 1, candidate id n ∉ taken := by
  by_contra hnone
  have hall : ∀ n < taken.length + 1, candidate id n ∈ taken := by simpa using hnone
  have hnodup : ((List.range (taken.length + 1)).map (candidate id)).Nodup :=
    List.Nodup.map (candidate_injective id) List.nodup_range
  have hsubset : (List.range (taken.length + 1)).map (candidate id) ⊆ taken := by
    intro s hs
    obtain ⟨n, hn, rfl⟩ := List.mem_map.1 hs
    exact hall n (List.mem_range.1 hn)
  have hlength := (hnodup.subperm hsubset).length_le
  simp only [List.length_map, List.length_range] at hlength
  omega

/-- **The search for a free id ends** with the first candidate that is not taken. -/
theorem freeId_spec (id : String) (taken : List String) :
    ∃ n, freeId id taken = candidate id n ∧ candidate id n ∉ taken ∧
      ∀ m < n, candidate id m ∈ taken := by
  obtain ⟨k, hk, hfree⟩ := exists_candidate_not_mem id taken
  -- `freeId` searches a mapped list; searching the numbers instead says which candidate it is
  cases hfind : (List.range (taken.length + 1)).find? ((!taken.contains ·) ∘ candidate id) with
  | none =>
    have htaken := List.find?_range_eq_none.1 hfind k hk
    simp [hfree] at htaken
  | some n =>
    obtain ⟨hn, -, hbefore⟩ := List.find?_range_eq_some.1 hfind
    refine ⟨n, ?_, by simpa using hn, fun m hm ↦ by simpa using hbefore m hm⟩
    rw [freeId, List.find?_map, hfind]
    rfl

theorem freeId_not_mem (id : String) (taken : List String) : freeId id taken ∉ taken := by
  obtain ⟨n, hn, hfree, -⟩ := freeId_spec id taken
  exact hn ▸ hfree

/-! ### Which page gets which name -/

/-- The ids of the pages under a slug. -/
def idsUnder (slug : String) (pages : List Written) : List String :=
  (pages.filter (·.slug == slug)).map (·.pageId)

/-- The name of a document after the pages before it have theirs. -/
def nameAfter (before : List Written) (d : Document) : Written :=
  let slug := categorySlug d.category
  ⟨d, slug, freeId (fileId d.id) (idsUnder slug before)⟩

/-- The pages with one more document. -/
def place (before : List Written) (d : Document) : List Written :=
  before ++ [nameAfter before d]

/-- **The names of all documents**, in order, whether they can be written or not. -/
def placements (documents : List Document) : List Written :=
  documents.foldl place []

theorem placements_append (documents : List Document) (d : Document) :
    placements (documents ++ [d]) = place (placements documents) d := by
  rw [placements, List.foldl_append, ← placements]
  rfl

/-- A document that is alone gets the id that it asks for. -/
theorem placements_singleton {d : Document} {slug id : String}
    (hslug : categorySlug d.category = slug) (hid : freeId (fileId d.id) [] = id) :
    placements [d] = [⟨d, slug, id⟩] := by
  rw [← hslug, ← hid]
  rfl

/-- The document and the slug of every page are the given ones. -/
theorem map_placements (documents : List Document) :
    (placements documents).map (fun p ↦ (p.document, p.slug))
      = documents.map fun d ↦ (d, categorySlug d.category) := by
  induction documents using List.reverseRecOn with
  | nil => rfl
  | append_singleton documents d ih =>
    rw [placements_append, place, List.map_append, List.map_append, ih]
    simp only [nameAfter, List.map_cons, List.map_nil]

/-- There is a page for every document, in order. -/
theorem map_document_placements (documents : List Document) :
    (placements documents).map Written.document = documents := by
  have hpairs := congrArg (List.map Prod.fst) (map_placements documents)
  simpa [List.map_map, Function.comp_def] using hpairs

theorem exists_of_mem_placements {documents : List Document} {p : Written}
    (h : p ∈ placements documents) :
    p.document ∈ documents ∧ p.slug = categorySlug p.document.category ∧
      ∃ taken, p.pageId = freeId (fileId p.document.id) taken := by
  induction documents using List.reverseRecOn with
  | nil => cases h
  | append_singleton documents d ih =>
    rw [placements_append, place, List.mem_append] at h
    rcases h with h | h
    · obtain ⟨hmem, hrest⟩ := ih h
      exact ⟨List.mem_append_left _ hmem, hrest⟩
    · rw [List.mem_singleton.1 h]
      exact ⟨List.mem_append_right _ List.mem_cons_self, by rw [nameAfter],
        idsUnder (categorySlug d.category) (placements documents), by rw [nameAfter]⟩

/-- **No two pages share slug and id.** -/
theorem nodup_placements (documents : List Document) :
    ((placements documents).map fun p ↦ (p.slug, p.pageId)).Nodup := by
  induction documents using List.reverseRecOn with
  | nil => exact List.nodup_nil
  | append_singleton documents d ih =>
    rw [placements_append, place, List.map_append]
    refine List.nodup_append.2 ⟨ih, by simp, fun a ha b hb hab ↦ ?_⟩
    obtain ⟨p, hp, rfl⟩ := List.mem_map.1 ha
    rw [List.map_singleton, List.mem_singleton] at hb
    simp only [nameAfter, ← hab, Prod.mk.injEq] at hb
    -- an earlier page with this slug and id would have its id among the taken ones
    refine freeId_not_mem (fileId d.id)
      (idsUnder (categorySlug d.category) (placements documents)) ?_
    rw [← hb.2]
    exact List.mem_map_of_mem (List.mem_filter.2 ⟨hp, by simpa using hb.1⟩)

/-! ### What names look like -/

theorem ne_nil_of_isEmpty_eq_false {s : String} (h : ¬s.isEmpty = true) : s.toList ≠ [] := by
  simpa using h

/-- **The slug of a category looks like a slug and is not empty.** -/
theorem isSlug_categorySlug (category : String) :
    IsSlug (categorySlug category).toList ∧ (categorySlug category).toList ≠ [] := by
  rw [categorySlug]
  split
  · exact ⟨isSlug_of_letters (by decide), by decide⟩
  · rename_i hne
    exact ⟨isSlug_slugOf _, ne_nil_of_isEmpty_eq_false hne⟩

/-- **The id that a page asks for looks like a slug, is not empty and is no landing page's.** -/
theorem isSlug_fileId (id : String) :
    IsSlug (fileId id).toList ∧ (fileId id).toList ≠ [] ∧ fileId id ∉ landingStems := by
  have hplain : ∀ s : String, IsSlug s.toList → s.toList ≠ [] →
      IsSlug (if landingStems.contains s then s ++ "-doc" else s).toList ∧
      (if landingStems.contains s then s ++ "-doc" else s).toList ≠ [] ∧
      (if landingStems.contains s then s ++ "-doc" else s) ∉ landingStems := by
    intro s hs hne
    split
    · rename_i hlanding
      have hdoc : (s ++ "-doc").toList = s.toList ++ '-' :: "doc".toList := by simp
      have hmem : s = "index" ∨ s = "overview" := by simpa [landingStems] using hlanding
      refine ⟨?_, by simp, by rcases hmem with rfl | rfl <;> decide⟩
      rw [hdoc]
      exact hs.append_dash (isSlug_of_letters (by decide)) hne (by decide)
    · rename_i hlanding
      exact ⟨hs, hne, by simpa using hlanding⟩
  rw [fileId]
  split
  · exact hplain _ (isSlug_of_letters (by decide)) (by decide)
  · rename_i hne
    exact hplain _ (isSlug_slugOf id) (ne_nil_of_isEmpty_eq_false hne)

/-- **So do all the candidates.** -/
theorem isSlug_candidate {id : String} (h : IsSlug id.toList) (hne : id.toList ≠ [])
    (hlanding : id ∉ landingStems) (n : Nat) :
    IsSlug (candidate id n).toList ∧ (candidate id n).toList ≠ [] ∧
      candidate id n ∉ landingStems := by
  cases n with
  | zero => exact ⟨h, hne, hlanding⟩
  | succ n =>
    refine ⟨?_, by simp [candidate_succ], fun hmem ↦ ?_⟩
    · rw [candidate_succ]
      exact h.append_dash (isSlug_toDigits _) hne Nat.toDigits_ne_nil
    · have hdash : '-' ∈ (candidate id (n + 1)).toList := by simp [candidate_succ]
      have hnone : ∀ s ∈ landingStems, '-' ∉ s.toList := by decide
      exact hnone _ hmem hdash

theorem isSlug_freeId (id : String) (taken : List String) :
    IsSlug (freeId (fileId id) taken).toList ∧ (freeId (fileId id) taken).toList ≠ [] ∧
      freeId (fileId id) taken ∉ landingStems := by
  obtain ⟨n, hn, -⟩ := freeId_spec (fileId id) taken
  obtain ⟨h, hne, hlanding⟩ := isSlug_fileId id
  exact hn ▸ isSlug_candidate h hne hlanding n

/-- A page whose slug and id look like slugs, with an id that is no landing page's. -/
structure Written.Named (p : Written) : Prop where
  slug : IsSlug p.slug.toList
  slug_ne_nil : p.slug.toList ≠ []
  pageId : IsSlug p.pageId.toList
  pageId_ne_nil : p.pageId.toList ≠ []
  not_landing : p.pageId ∉ landingStems

/-- **Every page is named well.** -/
theorem named_of_mem_placements {documents : List Document} {p : Written}
    (h : p ∈ placements documents) : p.Named := by
  obtain ⟨-, hslug, taken, hid⟩ := exists_of_mem_placements h
  obtain ⟨hs, hsne⟩ := isSlug_categorySlug p.document.category
  obtain ⟨hp, hpne, hlanding⟩ := isSlug_freeId p.document.id taken
  exact ⟨hslug ▸ hs, hslug ▸ hsne, hid ▸ hp, hid ▸ hpne, hid ▸ hlanding⟩

end Docwright.Site
