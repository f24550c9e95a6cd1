import Docwright.Proofs.Site.Bare

/-!
# What stays when the site is written

`Grows` is what every step of the bare run does to the tree: what is there keeps its kind, what is
new stands where the ground allows it and is a folder exactly where categories have theirs, and
files other than the ones the step names keep their bytes. It composes (`Grows.trans`), and it moves
no answer of the ground: whether a folder opens (`Grows.opens_eq`) and whether a file may be
written (`Grows.grants_eq`) is decided by the tree that the run starts from.

A write is `Settled` in a tree that it would not change. After a write it is settled, and it stays
so while the tree grows elsewhere.
-/

namespace Docwright.Site

open Files

/-- The place of a category: one name without a dot. -/
def IsRoom (ns : List String) : Prop :=
  ∃ name, ns = [name] ∧ '.' ∉ name.toList

/-- The tree `s'` comes from `s` by writing files at `touched` and making rooms. -/
structure Grows (g : Ground) (touched : List (List String)) (s s' : Entry) : Prop where
  stays : ∀ {ns e}, s.get? ns = some e →
    ∃ e', s'.get? ns = some e' ∧ e'.isFolder = e.isFolder
  fresh : ∀ {ns e'}, s.get? ns = none → s'.get? ns = some e' →
    g.allows ns = true ∧ (e'.isFolder = true ↔ IsRoom ns)
  same : ∀ {ns bytes}, ns ∉ touched → s.get? ns = some (.file bytes) →
    s'.get? ns = some (.file bytes)

variable {g : Ground} {touched touched' : List (List String)} {s s' s'' : Entry}
  {ns : List String} {bytes : List UInt8}

namespace Grows

theorem refl (g : Ground) (s : Entry) : Grows g [] s s :=
  ⟨fun h ↦ ⟨_, h, rfl⟩, fun h h' ↦ by simp [h] at h', fun _ h ↦ h⟩

/-- **Growing composes.** -/
theorem trans (h : Grows g touched s s') (h' : Grows g touched' s' s'') :
    Grows g (touched ++ touched') s s'' := by
  refine ⟨fun hget ↦ ?_, fun {ns e'} hnone hget ↦ ?_, fun hns hget ↦ ?_⟩
  · obtain ⟨e', he', hkind⟩ := h.stays hget
    obtain ⟨e'', he'', hkind'⟩ := h'.stays he'
    exact ⟨e'', he'', hkind'.trans hkind⟩
  · cases hmid : s'.get? ns with
    | none => exact h'.fresh hmid hget
    | some e =>
      obtain ⟨e'', he'', hkind⟩ := h'.stays hmid
      cases hget.symm.trans he''
      obtain ⟨hallows, hroom⟩ := h.fresh hnone hmid
      exact ⟨hallows, hkind ▸ hroom⟩
  · rw [List.mem_append, not_or] at hns
    exact h'.same hns.2 (h.same hns.1 hget)

/-- More places may be named than are written to. -/
theorem mono (h : Grows g touched s s') (hsub : touched ⊆ touched') : Grows g touched' s s' :=
  ⟨h.stays, h.fresh, fun hns ↦ h.same fun hmem ↦ hns (hsub hmem)⟩

theorem folderAt (h : Grows g touched s s') (hs : s.folderAt ns = true) :
    s'.folderAt ns = true := by
  obtain ⟨ms, hms⟩ := Entry.folderAt_iff.1 hs
  obtain ⟨e', he', hkind⟩ := h.stays hms
  rw [Entry.folderAt, he']
  exact hkind

theorem isSome (h : Grows g touched s s') (hs : (s.get? ns).isSome = true) :
    (s'.get? ns).isSome = true := by
  obtain ⟨e, he⟩ := Option.isSome_iff_exists.1 hs
  obtain ⟨e', he', -⟩ := h.stays he
  rw [he']
  rfl

/-- **Growing opens no folder and closes none.** -/
theorem opens_eq (h : Grows g touched s s') {name : String} (hname : '.' ∉ name.toList) :
    g.opens s' name = g.opens s name := by
  have hroom : IsRoom [name] := ⟨name, rfl, hname⟩
  rw [Ground.opens, Ground.opens]
  congr 1
  cases hs : s.get? [name] with
  | some e =>
    obtain ⟨e', he', hkind⟩ := h.stays hs
    simp [Entry.folderAt, hs, he', hkind]
  | none =>
    cases hs' : s'.get? [name] with
    | none => simp [Entry.folderAt, hs, hs']
    | some e' =>
      obtain ⟨hallows, hkind⟩ := h.fresh hs hs'
      simp [Entry.folderAt, hs, hs', hallows, hkind.2 hroom]

/-- **Growing grants no file and denies none.** -/
theorem grants_eq (h : Grows g touched s s') (hroom : ¬IsRoom ns) :
    g.grants s' ns = g.grants s ns := by
  rw [Ground.grants, Ground.grants]
  congr 2
  cases hs : s.get? ns with
  | some e =>
    obtain ⟨e', he', hkind⟩ := h.stays hs
    simp [Entry.folderAt, hs, he', hkind]
  | none =>
    cases hs' : s'.get? ns with
    | none => simp [Entry.folderAt, hs, hs']
    | some e' =>
      have hkind : e'.isFolder = false := by
        simpa [hroom] using (h.fresh hs hs').2
      simp [Entry.folderAt, hs, hs', hkind]

end Grows

/-! ### The two changes -/

/-- **Placing a file or an empty folder grows the tree**, if nothing of another kind is there. -/
theorem grows_put {new : Entry} (hne : ns ≠ []) (hparent : s.folderAt ns.dropLast = true)
    (hfolder : s.folderAt ns = false) (hleaf : ∀ k, k ≠ [] → new.get? k = none)
    (hold : ∀ e, s.get? ns = some e → new.isFolder = e.isFolder) (hallows : g.allows ns = true)
    (hkind : new.isFolder = true ↔ IsRoom ns) : Grows g [ns] s (s.put ns new) := by
  have hself := Entry.get?_put_self_of_folderAt hne hparent new
  refine ⟨fun {q e} hget ↦ ?_, fun {q e'} hnone hget ↦ ?_, fun {q bytes} hq hget ↦ ?_⟩
  · by_cases hq : q = ns
    · subst hq
      exact ⟨new, hself, hold e hget⟩
    -- elsewhere an entry stays or is a folder on the way, which stays a folder
    · rcases Entry.get?_put_of_ne hne hparent hfolder hleaf hq with h | ⟨h, h'⟩
      · exact ⟨e, h.trans hget, rfl⟩
      · obtain ⟨ms, hms⟩ := Entry.folderAt_iff.1 h
        obtain ⟨ms', hms'⟩ := Entry.folderAt_iff.1 h'
        cases hget.symm.trans hms
        exact ⟨_, hms', rfl⟩
  · by_cases hq : q = ns
    · subst hq
      cases hself.symm.trans hget
      exact ⟨hallows, hkind⟩
    · rcases Entry.get?_put_of_ne hne hparent hfolder hleaf hq with h | ⟨h, -⟩
      · rw [h, hnone] at hget
        cases hget
      · rw [Entry.folderAt, hnone] at h
        cases h
  · rcases Entry.get?_put_of_ne hne hparent hfolder hleaf (by simpa using hq) with h | ⟨h, -⟩
    · exact h.trans hget
    · rw [Entry.folderAt, hget] at h
      cases h

/-- **A write grows the tree at one place.** -/
theorem grows_write (hplain : s.Plain) (hne : ns ≠ []) (hroom : ¬IsRoom ns)
    (hparent : s.folderAt ns.dropLast = true) (bytes : List UInt8) :
    Grows g [ns] s (g.write s ns bytes) := by
  unfold Ground.write
  split
  · rename_i hgrants
    simp only [Ground.grants, Bool.and_eq_true, Bool.not_eq_true'] at hgrants
    obtain ⟨⟨hfits, hallows⟩, hfolder⟩ := hgrants
    refine grows_put hne hparent hfolder (fun _ ↦ Entry.get?_file_of_ne_nil) (fun e he ↦ ?_)
      hallows ?_
    · cases hplain.get? he with
      | file b => rfl
      | folder =>
        rw [Entry.folderAt_iff.2 ⟨_, he⟩] at hfolder
        cases hfolder
    · simpa [Entry.isFolder] using hroom
  · exact (Grows.refl g s).mono (by simp)

/-- **Making a room grows the tree and touches no file.** -/
theorem grows_make {name : String} (hname : '.' ∉ name.toList) (hs : s.isFolder = true) :
    Grows g [] s (g.make s name) := by
  unfold Ground.make
  split
  · rename_i hmake
    simp only [Ground.opens, Bool.and_eq_true, Bool.or_eq_true, Option.isNone_iff_eq_none] at hmake
    obtain ⟨⟨hfits, hopens⟩, hnone⟩ := hmake
    have hfolder : s.folderAt [name] = false := by rw [Entry.folderAt, hnone, Option.any_none]
    have hallows : g.allows [name] = true := by
      rcases hopens with h | ⟨-, h⟩
      · rw [hfolder] at h
        cases h
      · exact h
    have hgrows : Grows g [[name]] s (s.put [name] .emptyFolder) := by
      exact grows_put (by simp) (by simpa [Entry.folderAt] using hs) hfolder
        (fun _ ↦ Entry.get?_emptyFolder_of_ne_nil) (fun e he ↦ by rw [hnone] at he; cases he)
        hallows ⟨fun _ ↦ ⟨name, rfl, hname⟩, fun _ ↦ rfl⟩
    -- there was nothing where the room is made, so no file is touched
    refine ⟨hgrows.stays, hgrows.fresh, fun {q bytes} _ hq ↦ hgrows.same ?_ hq⟩
    intro hmem
    rw [List.mem_singleton.1 hmem, hnone] at hq
    cases hq
  · exact Grows.refl g s

/-- A folder without links. -/
structure Tidy (s : Entry) : Prop where
  folder : s.isFolder = true
  plain : s.Plain

theorem Tidy.folderAt_nil (h : Tidy s) : s.folderAt [] = true := by
  simpa [Entry.folderAt] using h.folder

theorem Tidy.write (h : Tidy s) (hne : ns ≠ []) (hdots : ".." ∉ ns) (bytes : List UInt8) :
    Tidy (g.write s ns bytes) := by
  unfold Ground.write
  split
  · exact ⟨Entry.isFolder_put h.folder hne, h.plain.put (.file bytes) hdots⟩
  · exact h

theorem Tidy.make (h : Tidy s) {name : String} (hdots : name ≠ "..") : Tidy (g.make s name) := by
  unfold Ground.make
  split
  · exact ⟨Entry.isFolder_put h.folder (by simp),
      h.plain.put Entry.plain_emptyFolder (by simpa using hdots.symm)⟩
  · exact h

theorem folderAt_make {name : String} (hs : Tidy s) (hopens : g.opens s name = true) :
    (g.make s name).folderAt [name] = true := by
  unfold Ground.make
  cases hget : s.get? [name] with
  | none =>
    rw [if_pos (by simp [hopens]), Entry.folderAt,
      Entry.get?_put_self_of_folderAt (by simp) hs.folderAt_nil]
    rfl
  | some e =>
    rw [if_neg (by simp)]
    simpa [Ground.opens, hget] using (Bool.and_eq_true_iff.1 hopens).2

/-! ### Settled writes -/

/-- A write that would not change the tree: what is to be written is there, or may not be. -/
def Settled (g : Ground) (s : Entry) (ns : List String) (bytes : List UInt8) : Prop :=
  g.grants s ns = true → s.get? ns = some (.file bytes)

/-- **After a write it is settled.** -/
theorem settled_write (hne : ns ≠ []) (hparent : s.folderAt ns.dropLast = true)
    (bytes : List UInt8) : Settled g (g.write s ns bytes) ns bytes := by
  unfold Ground.write
  split
  · exact fun _ ↦ Entry.get?_put_self_of_folderAt hne hparent _
  · exact fun hgrants ↦ absurd hgrants ‹_›

/-- **A settled write stays settled while other places are written to.** -/
theorem Settled.grows (h : Settled g s ns bytes) (hg : Grows g touched s s') (hroom : ¬IsRoom ns)
    (hns : ns ∉ touched) : Settled g s' ns bytes := fun hgrants ↦
  hg.same hns (h (hg.grants_eq hroom ▸ hgrants))

theorem Settled.write_eq (h : Settled g s ns bytes) : g.write s ns bytes = s := by
  unfold Ground.write
  split
  · exact Entry.put_of_get? (h ‹_›)
  · rfl

theorem not_isRoom_pair (a b : String) : ¬IsRoom [a, b] := by
  rintro ⟨name, h, -⟩
  cases h

theorem not_isRoom_of_dot {name : String} (h : '.' ∈ name.toList) : ¬IsRoom [name] := by
  rintro ⟨other, hname, hdot⟩
  cases hname
  exact hdot h

end Docwright.Site
