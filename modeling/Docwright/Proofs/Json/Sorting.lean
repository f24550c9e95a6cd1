import Docwright.Json.Printer
import Mathlib.Data.List.Sort
import Mathlib.Data.String.Basic

/-!
# Sorting by names

What is sorted by keys that are different comes out in strict order, and there is one list of given
elements that is in strict order. So the order in which they came is forgotten
(`mergeSort_key_eq_of_perm`), and choosing among fields may be done before or after sorting them
(`Json.sortFields_filterMap`).
-/

namespace Docwright

section Keyed

variable {α : Type*} {key : α → String}

/-- Where keys are different, sorting by them puts them in strict order. -/
theorem pairwise_mergeSort_key {xs : List α} (hkeys : (xs.map key).Nodup) :
    (xs.mergeSort fun a b ↦ decide (key a ≤ key b)).Pairwise fun a b ↦ key a < key b := by
  have hle : (xs.mergeSort fun a b ↦ decide (key a ≤ key b)).Pairwise
      fun a b ↦ key a ≤ key b := by
    refine (List.pairwise_mergeSort (fun a b c hab hbc ↦ ?_) (fun a b ↦ ?_) xs).imp
      of_decide_eq_true
    · exact decide_eq_true (String.le_trans (of_decide_eq_true hab) (of_decide_eq_true hbc))
    · simpa using String.le_total (key a) (key b)
  have hne : (xs.mergeSort fun a b ↦ decide (key a ≤ key b)).Pairwise
      fun a b ↦ key a ≠ key b :=
    List.pairwise_map.1 (((List.mergeSort_perm _ _).map key).nodup_iff.2 hkeys)
  exact hle.imp₂ (fun a b hab hne ↦ lt_of_le_of_ne hab hne) hne

/-- **Elements with different keys are sorted into one and the same list**, in whatever order they
come. -/
theorem mergeSort_key_eq_of_perm {xs ys : List α} (hkeys : (xs.map key).Nodup) (h : xs.Perm ys) :
    (xs.mergeSort fun a b ↦ decide (key a ≤ key b))
      = ys.mergeSort fun a b ↦ decide (key a ≤ key b) := by
  refine List.Perm.eq_of_pairwise (fun a b _ _ hab hba ↦ absurd hba (lt_asymm hab))
    (pairwise_mergeSort_key hkeys) (pairwise_mergeSort_key ((h.map key).nodup_iff.1 hkeys)) ?_
  exact (List.mergeSort_perm _ _).trans (h.trans (List.mergeSort_perm _ _).symm)

end Keyed

namespace Json

variable {α β : Type} {fields : List (String × α)}

theorem sortFields_perm (fields : List (String × α)) : (sortFields fields).Perm fields :=
  List.mergeSort_perm fields _

theorem pairwise_sortFields (h : (fields.map Prod.fst).Nodup) :
    (sortFields fields).Pairwise fun a b ↦ a.1 < b.1 :=
  pairwise_mergeSort_key h

theorem mem_of_mem_filter_sortFields {p : String × α → Bool} {m : String × α}
    (h : m ∈ (sortFields fields).filter p) : m ∈ fields :=
  (sortFields_perm fields).mem_iff.1 (List.mem_filter.1 h).1

/-- Values are chosen by a function, so names that are different stay so. -/
theorem nodup_filterMap (f : String × α → Option β) (h : (fields.map Prod.fst).Nodup) :
    ((fields.filterMap fun m ↦ (f m).map (m.1, ·)).map Prod.fst).Nodup := by
  refine List.pairwise_map.2 ((List.pairwise_map.1 h).filterMap _ fun a a' hne b hb b' hb' ↦ ?_)
  obtain ⟨value, -, rfl⟩ := Option.map_eq_some_iff.1 hb
  obtain ⟨value', -, rfl⟩ := Option.map_eq_some_iff.1 hb'
  exact hne

/-- **Choosing among fields and sorting them commute.** -/
theorem sortFields_filterMap (f : String × α → Option β) (h : (fields.map Prod.fst).Nodup) :
    sortFields (fields.filterMap fun m ↦ (f m).map (m.1, ·))
      = (sortFields fields).filterMap fun m ↦ (f m).map (m.1, ·) := by
  have hchosen : ((sortFields fields).filterMap fun m ↦ (f m).map (m.1, ·)).Pairwise
      fun a b ↦ a.1 < b.1 := by
    refine (pairwise_sortFields h).filterMap _ fun a a' hlt b hb b' hb' ↦ ?_
    obtain ⟨value, -, rfl⟩ := Option.map_eq_some_iff.1 hb
    obtain ⟨value', -, rfl⟩ := Option.map_eq_some_iff.1 hb'
    exact hlt
  refine List.Perm.eq_of_pairwise (fun a b _ _ hab hba ↦ absurd hba (lt_asymm hab))
    (pairwise_sortFields (nodup_filterMap f h)) hchosen ?_
  exact (sortFields_perm _).trans ((sortFields_perm fields).filterMap _).symm

end Json

end Docwright
