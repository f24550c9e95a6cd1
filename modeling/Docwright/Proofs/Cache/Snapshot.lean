import Docwright.Proofs.Cache.Store
import Docwright.Proofs.Files.ReadBack
import Docwright.Proofs.Json.Sorting
import Docwright.Proofs.Json.Value

/-!
# The snapshot of a cache

A cache as the program fills it holds texts only (`Cache.Sound`). The snapshot of such a cache is a
value that is read back as it is written (`Sound.plain`), and sorting it changes the order of names
and nothing else (`Sound.entriesOf_perm`), so a cache that is opened from it has every text under
its key (`Sound.alike_reopened`).
-/

namespace Docwright

namespace Json

/-! ### Sorting -/

theorem sortedFields_eq_map (fields : List (String × Json)) :
    sortedFields fields = fields.map fun field ↦ (field.1, field.2.sorted) := by
  induction fields with
  | nil => rfl
  | cons field rest ih =>
    obtain ⟨name, value⟩ := field
    rw [sortedFields, ih]
    rfl

theorem map_fst_sortedFields (fields : List (String × Json)) :
    (sortedFields fields).map Prod.fst = fields.map Prod.fst := by
  rw [sortedFields_eq_map, List.map_map]
  rfl

theorem nodup_sorted {fields : List (String × Json)} (h : (fields.map Prod.fst).Nodup) :
    ((sortFields (sortedFields fields)).map Prod.fst).Nodup := by
  rw [((sortFields_perm _).map Prod.fst).nodup_iff, map_fst_sortedFields]
  exact h

/-- **Sorting changes no field**, if only its value is sorted too. -/
theorem lookup_sorted {fields : List (String × Json)} (h : (fields.map Prod.fst).Nodup)
    (name : String) :
    (sortFields (sortedFields fields)).lookup name = (fields.lookup name).map sorted := by
  rw [lookup_of_perm (sortFields_perm _) (nodup_sorted h), sortedFields_eq_map, lookup_map_snd]

theorem field?_sorted {fields : List (String × Json)} (h : (fields.map Prod.fst).Nodup)
    (name : String) :
    (Json.object fields).sorted.field? name = (fields.lookup name).map sorted := by
  rw [Json.sorted, Json.field?, lookup_sorted h]

theorem mem_sorted {fields : List (String × Json)} {f : String × Json}
    (h : f ∈ sortFields (sortedFields fields)) : ∃ g ∈ fields, f = (g.1, g.2.sorted) := by
  have hmem := (sortFields_perm _).mem_iff.1 h
  rw [sortedFields_eq_map] at hmem
  obtain ⟨g, hg, rfl⟩ := List.mem_map.1 hmem
  exact ⟨g, hg, rfl⟩

theorem text?_sorted (j : Json) : j.sorted.text? = j.text? := by
  cases j <;> simp [sorted, text?]

/-- **A plain value stays plain when it is sorted.** -/
theorem Plain.sorted {depth : Nat} {j : Json} (h : Plain depth j) : Plain depth j.sorted := by
  induction h with
  | text s =>
    have hsorted : (Json.text s).sorted = .text s := by simp [Json.sorted]
    rw [hsorted]
    exact .text s
  | one =>
    have hsorted : (whole 1).sorted = whole 1 := by simp [Json.sorted, whole]
    rw [hsorted]
    exact .one
  | object distinct inner ih =>
    rw [Json.sorted]
    refine .object (nodup_sorted distinct) fun f hf ↦ ?_
    obtain ⟨g, hg, rfl⟩ := mem_sorted hf
    exact ih g hg

end Json

/-! ### Entries -/

namespace CacheEntry

/-- An entry as the program makes it: no name of a field stands twice, and the fields are texts, one
of them the text that is kept. -/
structure Sound (e : CacheEntry) : Prop where
  names : (e.map Prod.fst).Nodup
  texts : ∀ f ∈ e, ∃ s, f.2 = .text s
  body : (body? e).isSome

variable {e : CacheEntry}

/-- The text of an entry does not depend on the order of its fields. -/
theorem body?_sorted (h : Sound e) :
    body? (Json.sortFields (Json.sortedFields e)) = body? e := by
  rw [body?, body?, Json.lookup_sorted h.names]
  cases e.lookup "body" with
  | none => rfl
  | some j => exact Json.text?_sorted j

theorem Sound.sorted (h : Sound e) : Sound (Json.sortFields (Json.sortedFields e)) := by
  refine ⟨Json.nodup_sorted h.names, fun f hf ↦ ?_, ?_⟩
  · obtain ⟨g, hg, rfl⟩ := Json.mem_sorted hf
    obtain ⟨s, hs⟩ := h.texts g hg
    exact ⟨s, by simp [hs, Json.sorted]⟩
  · rw [body?_sorted h]
    exact h.body

end CacheEntry

namespace Cache

/-- A cache as the program fills it: no key stands twice, and the entries are sound. -/
structure Sound (c : Cache) : Prop where
  keys : (c.entries.map Prod.fst).Nodup
  entries : ∀ e ∈ c.entries, CacheEntry.Sound e.2

/-- A cache without entries is sound, so one is that has just been opened where no snapshot is. -/
theorem sound_of_nil {c : Cache} (h : c.entries = []) : c.Sound := by
  constructor <;> simp [h]

variable {c : Cache}

/-- **Keeping a text leaves a cache sound.** -/
theorem Sound.store (h : c.Sound) (key body : String) (moment : Moment) :
    (c.store key body moment).Sound := by
  refine ⟨Json.nodup_setField h.keys key _, fun e he ↦ ?_⟩
  rcases Json.mem_setField he with rfl | he
  · cases c.stamped
    · exact ⟨by simp, by simp, rfl⟩
    · exact ⟨by simp, by simp, rfl⟩
  · exact h.entries e he

/-! ### The snapshot -/

/-- The names in a snapshot differ, whatever the entries are. -/
theorem nodup_snapshot_names (entries : Json) :
    ([("version", Json.whole 1), ("entries", entries)].map Prod.fst).Nodup := by
  show (["version", "entries"] : List String).Nodup
  decide

/-- **The snapshot of a sound cache is plain.** -/
theorem Sound.plain (h : c.Sound) (depth : Nat) : Json.Plain (depth + 3) c.snapshot := by
  refine .object (nodup_snapshot_names _) fun f hf ↦ ?_
  rcases List.mem_cons.1 hf with rfl | hf
  · exact .one
  · rw [List.mem_singleton.1 hf]
    refine .object ?_ fun f hf ↦ ?_
    · rw [List.map_map]
      exact h.keys
    · obtain ⟨e, he, rfl⟩ := List.mem_map.1 hf
      refine .object (h.entries e he).names fun f hf ↦ ?_
      obtain ⟨s, hs⟩ := (h.entries e he).texts f hf
      rw [hs]
      exact .text s

/-- What stands under the two names of a sorted snapshot. -/
theorem field?_sorted_snapshot (c : Cache) :
    c.snapshot.sorted.field? "version" = some (.whole 1) ∧
      c.snapshot.sorted.field? "entries" = some (.object (Json.sortFields (Json.sortedFields
        (c.entries.map fun e ↦ (e.1, Json.object e.2))))) := by
  rw [snapshot, Json.field?_sorted (nodup_snapshot_names _),
    Json.field?_sorted (nodup_snapshot_names _)]
  constructor
  · simp [Json.sorted, Json.whole]
  · rw [← Json.sorted]
    rfl

/-- **Nothing but order is lost in a snapshot**: neither of the entries nor of their fields. -/
theorem Sound.entriesOf_perm (h : c.Sound) :
    (entriesOf c.snapshot.sorted).Perm
      (c.entries.map fun e ↦ (e.1, Json.sortFields (Json.sortedFields e.2))) := by
  obtain ⟨hversion, hentries⟩ := field?_sorted_snapshot c
  have hone : isVersion (.whole 1) = true := rfl
  rw [entriesOf, hversion, hentries]
  simp only [Option.map_some, Option.getD_some, hone, if_true, Option.bind_some, Json.object?]
  refine ((Json.sortFields_perm _).filterMap _).trans (List.Perm.of_eq ?_)
  rw [Json.sortedFields_eq_map, List.map_map, List.filterMap_map, ← List.filterMap_eq_map]
  refine List.filterMap_congr fun e he ↦ ?_
  have hbody := (h.entries e he).sorted.body
  simp [Json.sorted, hbody]

/-- The cache that the snapshot of `c` opens, when it is at `p`. -/
def reopened (c : Cache) (p : Files.Path) : Cache :=
  { path := some p, entries := entriesOf c.snapshot.sorted }

/-- Two caches with the same texts under the same keys, and with as many entries. -/
structure Alike (c s : Cache) : Prop where
  get? : ∀ k, s.get? k = c.get? k
  size : s.size = c.size

theorem Sound.nodup_reopened (h : c.Sound) (p : Files.Path) :
    ((c.reopened p).entries.map Prod.fst).Nodup := by
  rw [reopened, (h.entriesOf_perm.map Prod.fst).nodup_iff, List.map_map]
  exact h.keys

theorem Sound.reopened (h : c.Sound) (p : Files.Path) : (c.reopened p).Sound := by
  refine ⟨h.nodup_reopened p, fun e he ↦ ?_⟩
  obtain ⟨e, hin, rfl⟩ := List.mem_map.1 (h.entriesOf_perm.mem_iff.1 he)
  exact (h.entries e hin).sorted

/-- **The snapshot of a sound cache has every text under its key.** -/
theorem Sound.alike_reopened (h : c.Sound) (p : Files.Path) : Alike c (c.reopened p) := by
  have hperm := h.entriesOf_perm
  refine ⟨fun k ↦ ?_, ?_⟩
  · have hlookup := (Json.lookup_of_perm hperm (h.nodup_reopened p) k).trans
      (Json.lookup_map_snd (fun fields ↦ Json.sortFields (Json.sortedFields fields)) _ k)
    rw [Cache.get?, Cache.get?, Cache.reopened, hlookup]
    cases hfound : c.entries.lookup k with
    | none => rfl
    | some fields =>
      obtain ⟨before, after, hsplit, -⟩ := List.lookup_eq_some_iff.1 hfound
      have hin : (k, fields) ∈ c.entries := by
        rw [hsplit]
        exact List.mem_append_right _ List.mem_cons_self
      exact CacheEntry.body?_sorted (h.entries _ hin)
  · rw [Cache.size, Cache.size, Cache.reopened, hperm.length_eq, List.length_map]

/-! ### Writing and opening -/

/-- What a cache is that has just been opened. -/
theorem path_of_openAt {d : Files.Disk} {p : Files.Path} {log : Log}
    (h : openAt d p = (log, .ok c)) : c.path = some p ∧ c.dirty = false := by
  rw [openAt] at h
  split at h
  · split at h
    · cases h
      exact ⟨rfl, rfl⟩
    · cases h
      exact ⟨rfl, rfl⟩
  · cases h
  · split at h
    · cases h
      exact ⟨rfl, rfl⟩
    · split at h
      · cases h
      · cases h
        exact ⟨rfl, rfl⟩

theorem Sound.return_not_mem (h : c.Sound) : '\r' ∉ c.snapshotText.toList := by
  rw [snapshotText, Json.indented, String.toList_ofList]
  exact Json.return_not_mem_indentedAt (h.plain 0).sorted 0

/-- **A file with the text of its snapshot opens a sound cache again.** -/
theorem Sound.openAt_eq (h : c.Sound) {d : Files.Disk} {p : Files.Path}
    (hread : d.readText p = .ok c.snapshotText.toList) :
    openAt d p = ([], .ok (c.reopened p)) := by
  have hparse : Json.parse c.snapshotText.toList = .ok c.snapshot.sorted := by
    rw [snapshotText, Json.indented, String.toList_ofList]
    exact Json.parse_indented (h.plain _).sorted
  rw [openAt, hread]
  simp only [hparse]
  rfl

/-- What a cache that has something to write does to the disk, when nothing fails. -/
theorem exists_of_persist {c' : Cache} {d d' : Files.Disk} {p : Files.Path}
    (hpath : c.path = some p) (hdirty : c.dirty = true) (h : c.persist d = (.ok c', d')) :
    c' = { c with dirty := false } ∧
      (d.makeFolders p.parent).2.writeText p c.snapshotText = .ok d' := by
  rw [persist, hpath, hdirty] at h
  simp only at h
  split at h
  · cases h
  · rename_i made hmake
    rw [hmake]
    split at h
    · cases h
    · rename_i written hwrite
      cases h
      exact ⟨by rw [hpath], hwrite⟩

/-- A cache to which nothing was added since it was read or written writes nothing. -/
theorem persist_of_clean (h : c.dirty = false) (d : Files.Disk) : c.persist d = (.ok c, d) := by
  rw [persist, h]
  cases c.path <;> rfl

end Cache

end Docwright
