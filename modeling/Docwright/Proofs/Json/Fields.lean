import Docwright.Json.Basic
import Mathlib.Data.List.Basic

/-!
# Fields by name

`Json.setField` keeps a list of values by name: the entries of a cache, the ids that are taken in a
category, and in the same form the members of a folder. What a name leads to afterwards is all that
is needed of it.
-/

namespace Docwright.Json

variable {α : Type}

theorem lookup_setField (fields : List (String × α)) (name other : String) (value : α) :
    (setField fields name value).lookup other
      = if other = name then some value else fields.lookup other := by
  induction fields with
  | nil =>
    by_cases h : other = name
    · simp [setField, h]
    · have hne : (other == name) = false := by simpa using h
      simp [setField, h, List.lookup_cons, hne]
  | cons field rest ih =>
    obtain ⟨n, v⟩ := field
    rw [setField]
    by_cases hn : n = name
    · by_cases h : other = name
      · simp [hn, h]
      · have hne : (other == name) = false := by simpa using h
        simp [hn, h, List.lookup_cons, hne]
    · rw [if_neg (by simpa using hn), List.lookup_cons, List.lookup_cons, ih]
      by_cases h : other = n
      · simp [h, hn]
      · have hne : (other == n) = false := by simpa using h
        rw [hne]

/-- A field that is there after setting one is the new one or an old one. -/
theorem mem_setField {fields : List (String × α)} {name : String} {value : α} {f : String × α}
    (h : f ∈ setField fields name value) : f = (name, value) ∨ f ∈ fields := by
  induction fields with
  | nil => exact Or.inl (List.mem_singleton.1 h)
  | cons field rest ih =>
    obtain ⟨n, v⟩ := field
    rw [setField] at h
    split at h
    · rename_i hn
      rcases List.mem_cons.1 h with h | h
      · rw [beq_iff_eq.1 hn] at h
        exact Or.inl h
      · exact Or.inr (List.mem_cons_of_mem _ h)
    · rcases List.mem_cons.1 h with h | h
      · exact Or.inr (h ▸ List.mem_cons_self)
      · exact (ih h).imp_right (List.mem_cons_of_mem _)

/-- Setting a field repeats no name. -/
theorem nodup_setField {fields : List (String × α)} (h : (fields.map Prod.fst).Nodup)
    (name : String) (value : α) : ((setField fields name value).map Prod.fst).Nodup := by
  induction fields with
  | nil => simp [setField]
  | cons field rest ih =>
    obtain ⟨n, v⟩ := field
    obtain ⟨hn, hrest⟩ := List.nodup_cons.1 h
    rw [setField]
    split
    · exact h
    · rename_i hne
      refine List.nodup_cons.2 ⟨fun hmem ↦ ?_, ih hrest⟩
      obtain ⟨f, hf, hfn⟩ := List.mem_map.1 hmem
      rcases mem_setField hf with rfl | hf
      · exact hne (beq_iff_eq.2 hfn.symm)
      · exact hn (List.mem_map.2 ⟨f, hf, hfn⟩)

/-- **Where names differ their order does not matter** for what they lead to. -/
theorem lookup_of_perm {fields fields' : List (String × α)} (h : fields.Perm fields')
    (hdistinct : (fields.map Prod.fst).Nodup) (name : String) :
    fields.lookup name = fields'.lookup name := by
  induction h with
  | nil => rfl
  | cons field _ ih =>
    obtain ⟨n, v⟩ := field
    rw [List.lookup_cons, List.lookup_cons, ih (List.nodup_cons.1 hdistinct).2]
  | swap a b rest =>
    obtain ⟨n, v⟩ := a
    obtain ⟨n', v'⟩ := b
    have hne : n' ≠ n := by
      rintro rfl
      exact (List.nodup_cons.1 hdistinct).1 List.mem_cons_self
    rw [List.lookup_cons, List.lookup_cons, List.lookup_cons, List.lookup_cons]
    by_cases hn : name = n
    · rw [hn, beq_self_eq_true, beq_eq_false_iff_ne.2 hne.symm]
    · rw [beq_eq_false_iff_ne.2 hn]
  | trans hfirst _ ih ih' =>
    rw [ih hdistinct, ih' ((hfirst.map Prod.fst).nodup_iff.1 hdistinct)]

/-- Changing all values changes what a name leads to. -/
theorem lookup_map_snd {β : Type} (f : α → β) (fields : List (String × α)) (name : String) :
    (fields.map fun field ↦ (field.1, f field.2)).lookup name = (fields.lookup name).map f := by
  induction fields with
  | nil => rfl
  | cons field rest ih =>
    obtain ⟨n, v⟩ := field
    rw [List.map_cons, List.lookup_cons, List.lookup_cons, ih]
    cases name == n <;> rfl

theorem lookup_eq_none_of_not_mem {fields : List (String × α)} {name : String}
    (h : name ∉ fields.map Prod.fst) : fields.lookup name = none := by
  rw [List.lookup_eq_none_iff]
  intro field hfield
  simpa using fun heq : name = field.1 ↦ h (heq ▸ List.mem_map_of_mem hfield)

/-- **Where names differ, fields may be dropped before or after a name is looked up.** -/
theorem lookup_filterMap_snd {β : Type} (f : α → Option β) {fields : List (String × α)}
    (hdistinct : (fields.map Prod.fst).Nodup) (name : String) :
    (fields.filterMap fun field ↦ (f field.2).map (field.1, ·)).lookup name
      = (fields.lookup name).bind f := by
  induction fields with
  | nil => rfl
  | cons field rest ih =>
    obtain ⟨n, v⟩ := field
    obtain ⟨hn, hrest⟩ := List.nodup_cons.1 hdistinct
    rw [List.filterMap_cons, List.lookup_cons]
    cases hname : name == n with
    | true =>
      -- the name stands nowhere else, so nothing is found when its field is dropped
      rw [beq_iff_eq.1 hname] at ih ⊢
      cases hv : f v with
      | none => simp [hv, ih hrest, lookup_eq_none_of_not_mem hn]
      | some w => simp [hv]
    | false =>
      cases hv : f v with
      | none => simpa [hv] using ih hrest
      | some w => simp [List.lookup_cons, hname, ih hrest]

end Docwright.Json
