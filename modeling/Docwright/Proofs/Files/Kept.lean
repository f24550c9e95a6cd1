import Docwright.Proofs.Files.Ground

/-!
# Files that are left alone

`Entry.KeepsFiles owned fresh t t'` is the frame of a change: files of `t` stand in `t'` with the
same bytes, apart from those in places that are `owned`, and no file has come about elsewhere,
apart from those in places that are `fresh`. It composes, and a frame below a place is one in the
whole tree (`KeepsFiles.put`). Making folders keeps every file (`Disk.keepsFiles_makeFolders`), even
when it fails halfway and whatever stands in the way.
-/

namespace Docwright.Files

namespace Entry

/-- Files in places that are not `owned` stay as they are, and a file that is new stands in a place
that is `owned` or `fresh`. -/
structure KeepsFiles (owned fresh : List String → Prop) (t t' : Entry) : Prop where
  old : ∀ {ns bytes}, ¬owned ns → t.get? ns = some (.file bytes) → t'.get? ns = some (.file bytes)
  new : ∀ {ns bytes}, ¬owned ns → ¬fresh ns → t'.get? ns = some (.file bytes) →
    t.get? ns = some (.file bytes)

/-- The places below `p` that the names in `owned` lead to. -/
def Below (p : List String) (owned : List String → Prop) (place : List String) : Prop :=
  ∃ ns, place = p ++ ns ∧ owned ns

variable {owned owned' fresh fresh' : List String → Prop} {t t' t'' new : Entry}
  {p ns : List String}

theorem below_append_iff : Below p owned (p ++ ns) ↔ owned ns := by
  refine ⟨?_, fun h ↦ ⟨ns, rfl, h⟩⟩
  rintro ⟨ns', heq, h⟩
  exact List.append_cancel_left heq ▸ h

theorem below_nil : Below [] owned = owned :=
  funext fun _ ↦ propext (below_append_iff (p := []))

theorem below_cons (name : String) (rest : List String) :
    (fun k ↦ Below (name :: rest) owned (name :: k)) = Below rest owned := by
  funext k
  simp [Below]

/-- A file in a folder has a name there. -/
theorem exists_cons_of_file {members : List (String × Entry)} {bytes : List UInt8}
    (h : (folder members).get? ns = some (.file bytes)) : ∃ name k, ns = name :: k := by
  cases ns with
  | nil => cases h
  | cons name k => exact ⟨name, k, rfl⟩

theorem get?_member_file {members : List (String × Entry)} {name : String} {k : List String}
    {bytes : List UInt8} :
    (folder members).get? (name :: k) = some (.file bytes)
      ↔ ((members.lookup name).getD emptyFolder).get? k = some (.file bytes) := by
  rw [get?_folder_cons]
  cases members.lookup name with
  | some inner => exact Iff.rfl
  | none => cases k <;> simp [emptyFolder]

namespace KeepsFiles

theorem refl (owned fresh : List String → Prop) (t : Entry) : t.KeepsFiles owned fresh t :=
  ⟨fun _ h ↦ h, fun _ _ h ↦ h⟩

/-- **Frames compose.** -/
theorem trans (h : KeepsFiles owned fresh t t') (h' : KeepsFiles owned fresh t' t'') :
    KeepsFiles owned fresh t t'' :=
  ⟨fun hns hget ↦ h'.old hns (h.old hns hget),
    fun hns hfresh hget ↦ h.new hns hfresh (h'.new hns hfresh hget)⟩

/-- More may be owned and more may be fresh. -/
theorem mono (h : KeepsFiles owned fresh t t') (howned : ∀ ns, owned ns → owned' ns)
    (hfresh : ∀ ns, fresh ns → fresh' ns) : KeepsFiles owned' fresh' t t' :=
  ⟨fun hns ↦ h.old (hns ∘ howned _), fun hns hnot ↦ h.new (hns ∘ howned _) (hnot ∘ hfresh _)⟩

/-- A place that is owned and in which nothing stands may count as fresh. -/
theorem of_vacant (h : KeepsFiles (· = ns) fresh t t') (hnone : t.get? ns = none) (hns : fresh ns) :
    KeepsFiles owned fresh t t' := by
  refine ⟨fun {q bytes} _ hget ↦ h.old ?_ hget, fun {q bytes} _ hq hget ↦ h.new ?_ hq hget⟩
  · rintro rfl
    cases hnone.symm.trans hget
  · rintro rfl
    exact hq hns

/-- **A frame in one member is one in the folder**, a member that is missing counting as an empty
folder. -/
theorem member {members : List (String × Entry)} {name : String} {inner : Entry}
    (h : KeepsFiles (fun k ↦ owned (name :: k)) (fun k ↦ fresh (name :: k))
      ((members.lookup name).getD emptyFolder) inner) :
    KeepsFiles owned fresh (folder members) (folder (setMember members name inner)) := by
  refine ⟨fun {q bytes} hq hget ↦ ?_, fun {q bytes} hq hnot hget ↦ ?_⟩
  · obtain ⟨other, k, rfl⟩ := exists_cons_of_file hget
    rw [get?_folder_cons, lookup_setMember]
    split
    · rename_i hname
      subst hname
      exact h.old hq (get?_member_file.1 hget)
    · exact hget
  · obtain ⟨other, k, rfl⟩ := exists_cons_of_file hget
    rw [get?_folder_cons, lookup_setMember] at hget
    split at hget
    · rename_i hname
      subst hname
      exact get?_member_file.2 (h.new hq hnot hget)
    · exact hget

/-- **A frame below a place is one in the whole tree.** -/
theorem put {s s' : Entry} (hs : t.get? p = some s) (h : KeepsFiles owned fresh s s') :
    KeepsFiles (Below p owned) (Below p fresh) t (t.put p s') := by
  induction p generalizing t with
  | nil =>
    rw [get?_nil, Option.some.injEq] at hs
    rw [below_nil, below_nil, put_nil, hs]
    exact h
  | cons name rest ih =>
    obtain ⟨members, inner, rfl, hinner, hrest⟩ := exists_of_get?_cons hs
    rw [put_folder_cons]
    refine member ?_
    rw [below_cons, below_cons, hinner]
    exact ih hrest

/-- **An empty folder that is placed where nothing stands keeps every file**, even if folders on the
way have to be made. -/
theorem put_emptyFolder (h : t.get? p = none) :
    KeepsFiles owned fresh t (t.put p .emptyFolder) := by
  induction p generalizing t owned fresh with
  | nil => simp at h
  | cons name rest ih =>
    cases t with
    | file bytes => exact refl _ _ _
    | link target => exact refl _ _ _
    | folder members =>
      rw [put_folder_cons]
      refine member ?_
      cases hmember : members.lookup name with
      | some inner =>
        rw [get?_folder_cons, hmember] at h
        exact ih h
      | none =>
        -- below the member that is missing there is nothing either
        cases rest with
        | nil => exact refl _ _ _
        | cons next more => exact ih rfl

/-- **Something without members that is placed where no folder stands** is seen there alone. -/
theorem put_leaf (hne : ns ≠ []) (hparent : t.folderAt ns.dropLast = true)
    (hfolder : t.folderAt ns = false) (hleaf : ∀ k, k ≠ [] → new.get? k = none) :
    KeepsFiles (· = ns) fresh t (t.put ns new) := by
  have hnone : ∀ {e : Entry} {q bytes}, e.folderAt q = true → e.get? q ≠ some (.file bytes) := by
    intro e q bytes hq hget
    rw [folderAt, hget] at hq
    cases hq
  refine ⟨fun {q bytes} hq hget ↦ ?_, fun {q bytes} hq _ hget ↦ ?_⟩
  · rcases get?_put_of_ne hne hparent hfolder hleaf hq with h | ⟨h, -⟩
    · exact h.trans hget
    · exact absurd hget (hnone h)
  · rcases get?_put_of_ne hne hparent hfolder hleaf hq with h | ⟨-, h⟩
    · exact h.symm.trans hget
    · exact absurd hget (hnone h)

end KeepsFiles

end Entry

namespace Disk

/-- **Making folders keeps every file**, even when it fails. -/
theorem keepsFiles_makeFolders (owned fresh : List String → Prop) (d : Disk) (p : Path) :
    d.tree.KeepsFiles owned fresh (d.makeFolders p).2.tree := by
  refine makeFolders_induction (P := fun made ↦ d.tree.KeepsFiles owned fresh made.tree)
    (fun hd hmake ↦ ?_) (.refl owned fresh d.tree) p
  obtain ⟨place, -, hnone, rfl⟩ := exists_of_makeFolder hmake
  exact hd.trans (.put_emptyFolder hnone)

end Disk

end Docwright.Files
