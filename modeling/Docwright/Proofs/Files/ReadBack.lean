import Docwright.Proofs.Files.Disk
import Docwright.Proofs.Text.Lines
import Docwright.Proofs.Text.Wellformed

/-!
# What is written is read

A file that has been written is found by the path that it was written at (`Disk.read_write`). The
path may lead through links, so this is not about one place alone: writing must not change where the
path leads. It cannot, because the place was no folder and no link before, and folders and links are
all that a walk passes on its way (`Disk.walk_of_keeps`).

All of this supposes that the working folder is there (`Disk.Housed`), which writing files and
making folders leaves true.
-/

namespace Docwright.Files

namespace Entry

/-- **Something without members in a new place** leaves folders folders and links as they are. -/
theorem Keeps.put_leaf {t new : Entry} {r : List String} (hne : r ≠ [])
    (hparent : t.folderAt r.dropLast = true) (hfolder : t.folderAt r = false)
    (hlink : ∀ target, t.get? r ≠ some (.link target))
    (hleaf : ∀ k, k ≠ [] → new.get? k = none) : t.Keeps (t.put r new) := by
  refine ⟨fun {q ms} hq ↦ ?_, fun {q target} hq ↦ ?_⟩
  · have hqr : q ≠ r := by
      rintro rfl
      rw [folderAt_iff.2 ⟨ms, hq⟩] at hfolder
      cases hfolder
    rcases get?_put_of_ne hne hparent hfolder hleaf hqr with h | ⟨-, h⟩
    · exact ⟨ms, h.trans hq⟩
    · exact folderAt_iff.1 h
  · have hqr : q ≠ r := by
      rintro rfl
      exact hlink target hq
    rcases get?_put_of_ne hne hparent hfolder hleaf hqr with h | ⟨h, -⟩
    · exact h.trans hq
    · obtain ⟨ms, hms⟩ := folderAt_iff.1 h
      rw [hq] at hms
      cases hms

theorem folderAt_parent {t : Entry} {q : List String} (h : t.folderAt q = true) :
    t.folderAt q.dropLast = true := by
  by_cases hne : q = []
  · rw [hne] at h ⊢
    exact h
  · obtain ⟨ms, hms⟩ := folderAt_iff.1 h
    exact folderAt_dropLast hne hms

theorem folderAt_root {t : Entry} {q : List String} (h : t.folderAt q = true) :
    t.folderAt [] = true := by
  cases q with
  | nil => exact h
  | cons name rest =>
    obtain ⟨ms, hms⟩ := folderAt_iff.1 h
    obtain ⟨members, -, rfl, -⟩ := exists_of_get?_cons hms
    rfl

end Entry

namespace Disk

variable {t t' : Entry} {b : Nat} {done todo r : List String} {follow : Bool}

/-- The names from which a path sets out lead to a folder. -/
theorem folderAt_startOf (h : t.folderAt done = true) (p : Path) :
    t.folderAt (startOf done p) = true := by
  rw [startOf]
  split
  · exact Entry.folderAt_root h
  · exact h

/-- A place in a folder at which no link is left to follow. -/
def Open (t : Entry) (follow : Bool) (r : List String) : Prop :=
  r ≠ [] ∧ t.folderAt r.dropLast = true ∧
    (follow = true → ∀ target, t.get? r ≠ some (.link target))

theorem open_place (h : t.folderAt done = true) {name : String} (hr : done ++ [name] = r)
    (hlink : follow = true → ∀ target, t.get? (done ++ [name]) ≠ some (.link target)) :
    Open t follow r := by
  rw [← hr]
  refine ⟨by simp, ?_, hlink⟩
  rwa [List.dropLast_concat]

/-- **A walk ends at a folder or in one.** -/
theorem open_of_walk (h : walk t follow b done todo = .ok r) (hdone : t.folderAt done = true) :
    t.folderAt r = true ∨ Open t follow r := by
  fun_induction walk t follow b done todo with
  | case1 b done =>
    cases h
    exact Or.inl hdone
  | case2 b done name rest hname ih => exact ih h (Entry.folderAt_parent hdone)
  | case3 => cases h
  | case4 b done name rest _ _ place hget =>
    refine Or.inr (open_place hdone (Except.ok.inj h) fun _ target hlink ↦ ?_)
    cases hget.symm.trans hlink
  | case5 => cases h
  | case6 b done name rest hname hsize place members hget ih =>
    exact ih h (Entry.folderAt_iff.2 ⟨members, hget⟩)
  | case7 b done name rest _ _ place bytes hget =>
    refine Or.inr (open_place hdone (Except.ok.inj h) fun _ target hlink ↦ ?_)
    cases hget.symm.trans hlink
  | case8 => cases h
  | case9 b done name rest _ _ place target hget hlast =>
    refine Or.inr (open_place hdone (Except.ok.inj h) fun hfollow ↦ ?_)
    simp [hfollow] at hlast
  | case10 => cases h
  | case11 done name rest hname hsize place target hget _ b target' ih =>
    exact ih h (folderAt_startOf hdone target')

theorem open_of_folderAt_eq_false (h : walk t follow b done todo = .ok r)
    (hdone : t.folderAt done = true) (hr : t.folderAt r = false) : Open t follow r := by
  rcases open_of_walk h hdone with hfolder | hopen
  · rw [hr] at hfolder
    cases hfolder
  · exact hopen

/-- **A walk that does not end at a folder is kept** by a tree that keeps folders and links, when
there is a file at its end. -/
theorem walk_of_keeps (hk : t.Keeps t') (h : walk t true b done todo = .ok r)
    (hdone : t.folderAt done = true) (hr : t.folderAt r = false) {bytes : List UInt8}
    (hr' : t'.get? r = some (.file bytes)) : walk t' true b done todo = .ok r := by
  fun_induction walk t true b done todo with
  | case1 b done =>
    cases h
    rw [hdone] at hr
    cases hr
  | case2 b done name rest hname ih =>
    rw [walk, if_pos hname]
    exact ih h (Entry.folderAt_parent hdone)
  | case3 => cases h
  | case4 b done name rest hname hsize place hget hlast =>
    have hplace : done ++ [name] = r := Except.ok.inj h
    rw [walk, if_neg hname, if_neg hsize]
    simp only [hplace, hr', hlast, if_true]
  | case5 => cases h
  | case6 b done name rest hname hsize place members hget ih =>
    obtain ⟨ms, hms⟩ : ∃ ms, t'.get? (done ++ [name]) = some (.folder ms) := hk.folder hget
    rw [walk, if_neg hname, if_neg hsize]
    simp only [hms]
    exact ih h (Entry.folderAt_iff.2 ⟨members, hget⟩)
  | case7 b done name rest hname hsize place bytes' hget hlast =>
    have hplace : done ++ [name] = r := Except.ok.inj h
    rw [walk, if_neg hname, if_neg hsize]
    simp only [hplace, hr', hlast, if_true]
  | case8 => cases h
  | case9 b done name rest _ _ place target hget hlast => simp at hlast
  | case10 => cases h
  | case11 done name rest hname hsize place target hget hlast b target' ih =>
    have hlink : t'.get? (done ++ [name]) = some (.link target) := hk.link hget
    rw [walk, if_neg hname, if_neg hsize]
    simp only [hlink, Bool.not_true, Bool.and_false, Bool.false_eq_true, if_false]
    exact ih h (folderAt_startOf hdone target')

/-- The working folder is there. -/
def Housed (d : Disk) : Prop :=
  d.tree.folderAt d.here = true

variable {d d' : Disk} {p : Path}

/-- The working folder stays there in a tree that keeps folders. -/
theorem Housed.keeps (h : d.Housed) (hk : d.tree.Keeps d'.tree) (hhere : d'.here = d.here) :
    d'.Housed := by
  obtain ⟨ms, hms⟩ := Entry.folderAt_iff.1 h
  rw [Housed, hhere]
  exact Entry.folderAt_iff.2 (hk.folder hms)

theorem walk_of_locate {place : List String} (h : d.locate follow p = .ok place) :
    ¬pathLimit < p.text.utf8ByteSize ∧
      walk d.tree follow linkLimit (startOf d.here p) p.parts = .ok place := by
  rw [locate] at h
  split at h
  · cases h
  · rename_i hsize
    exact ⟨hsize, h⟩

/-- What a successful write has done. -/
theorem exists_of_write {bytes : List UInt8} (h : d.write p bytes = .ok d') :
    ∃ place, d.locate true p = .ok place ∧ d.tree.folderAt place = false ∧
      d' = { d with tree := d.tree.put place (.file bytes) } := by
  rw [write] at h
  split at h
  · cases h
  · rename_i place hlocate
    split at h
    · cases h
    · rename_i hnot
      have hfolder : d.tree.folderAt place = false := by
        refine Bool.eq_false_iff.2 fun hfolder ↦ ?_
        obtain ⟨ms, hms⟩ := Entry.folderAt_iff.1 hfolder
        exact hnot ms hms
      split at h
      · cases h
      · exact ⟨place, hlocate, hfolder, (Except.ok.inj h).symm⟩

/-- **A file that has been written is read** by the same path, and the working folder is still
there. -/
theorem read_write (h : d.Housed) {bytes : List UInt8} (hwrite : d.write p bytes = .ok d') :
    d'.read p = .ok bytes ∧ d'.Housed := by
  obtain ⟨place, hlocate, hfolder, rfl⟩ := exists_of_write hwrite
  obtain ⟨hsize, hwalk⟩ := walk_of_locate hlocate
  have hstart : d.tree.folderAt (startOf d.here p) = true := folderAt_startOf h p
  obtain ⟨hne, hparent, hlink⟩ := open_of_folderAt_eq_false hwalk hstart hfolder
  have hkeeps : d.tree.Keeps (d.tree.put place (.file bytes)) :=
    .put_leaf hne hparent hfolder (hlink rfl) fun _ ↦ Entry.get?_file_of_ne_nil
  have hget := Entry.get?_put_self_of_folderAt hne hparent (.file bytes)
  refine ⟨?_, h.keeps hkeeps rfl⟩
  rw [read, entry, locate, if_neg hsize]
  simp only [walk_of_keeps hkeeps hwalk hstart hfolder hget, hget]

/-- What can be read is found. -/
theorem find?_of_read {bytes : List UInt8} (hfile : d.read p = .ok bytes) :
    d.find? p = .ok (some (.file bytes)) := by
  unfold read at hfile
  unfold find?
  split at hfile <;> simp_all

/-- A file that can be read is a text, or none. -/
theorem readText_cases {bytes : List UInt8} (hfile : d.read p = .ok bytes) :
    (∀ cs, bytes ≠ Text.Utf8.encode cs) ∧ (∃ fault, d.readText p = .error (.undecodable fault)) ∨
      ∃ cs, bytes = Text.Utf8.encode cs ∧ d.readText p = .ok (Text.unifyNewlines cs) := by
  cases hdecode : Text.Utf8.decode? bytes with
  | error fault =>
    refine .inl ⟨fun cs hcs ↦ ?_, fault, ?_⟩
    · rw [hcs, Text.Utf8.decode?_encode] at hdecode
      cases hdecode
    · simp only [readText, hfile, hdecode]
  | ok cs =>
    refine .inr ⟨cs, Text.Utf8.decode?_eq_ok_iff.mp hdecode, ?_⟩
    simp only [readText, hfile, hdecode]

/-- A text without carriage returns is read when its bytes are. -/
theorem readText_of_read {text : String} (hreturn : '\r' ∉ text.toList)
    (hread : d.read p = .ok (Text.Utf8.ofString text)) : d.readText p = .ok text.toList := by
  rw [readText, hread]
  simp only [Text.Utf8.decode?_ofString, Text.unifyNewlines_eq_self hreturn]

/-- **A text without carriage returns that has been written is read.** -/
theorem readText_writeText (h : d.Housed) {text : String} (hreturn : '\r' ∉ text.toList)
    (hwrite : d.writeText p text = .ok d') : d'.readText p = .ok text.toList ∧ d'.Housed := by
  obtain ⟨hread, hhoused⟩ := read_write h hwrite
  exact ⟨readText_of_read hreturn hread, hhoused⟩

/-! ### Making folders -/

theorem housed_makeFolder (h : d.Housed) (hmake : d.makeFolder p = .ok d') : d'.Housed := by
  obtain ⟨place, hlocate, hnone, rfl⟩ := exists_of_makeFolder hmake
  have hfolder : d.tree.folderAt place = false := by
    rw [Entry.folderAt, hnone]
    rfl
  obtain ⟨hne, hparent, -⟩ :=
    open_of_folderAt_eq_false (walk_of_locate hlocate).2 (folderAt_startOf h p) hfolder
  have hlink (target : String) : d.tree.get? place ≠ some (.link target) := by
    rw [hnone]
    exact (Option.some_ne_none _).symm
  exact h.keeps (Entry.Keeps.put_leaf hne hparent hfolder hlink
    fun _ ↦ Entry.get?_emptyFolder_of_ne_nil) rfl

/-- **Making folders leaves the working folder where it is**, even when it fails. -/
theorem housed_makeFolders (h : d.Housed) (p : Path) : (d.makeFolders p).2.Housed :=
  makeFolders_induction housed_makeFolder h p

end Disk

end Docwright.Files
