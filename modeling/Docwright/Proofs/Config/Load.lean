import Docwright.Proofs.Config.Settings
import Docwright.Proofs.Files.Entry
import Docwright.Proofs.Files.ReadBack

/-!
# What loading settings comes to

A settings file that can be read has one value at most (`HasValue`), and nothing but that value
decides what loading it comes to. Where there is none, the file is refused, unless it is no text or
the reader of texts stumbles over it (`Unreadable`). A reader that either gives a value or says that
the text is malformed never does, and for these `ends_loadBy` says the most: the settings that are
loaded are those of the value and are within bounds, a crash means that the file is not a text or
that a setting in it cannot be read, and all that is left is refused.
-/

namespace Docwright.Config

open Yaml (Value)

variable {α β : Type} {read : SettingsReader} {d : Files.Disk} {p : Files.Path}
  {bytes : List UInt8} {v : Value} {c : Config}

/-! ### The value of a settings file -/

/-- What a reader makes of the text of a settings file: nothing when the text is blank. -/
inductive ValueOf (read : SettingsReader) (cs : List Char) : Value → Prop
  | blank (h : ∀ c ∈ cs, Text.isBlank c = true) : ValueOf read cs .null
  | text {v : Value} (h : ∃ c ∈ cs, Text.isBlank c = false) (hread : read cs = .ok v) :
    ValueOf read cs v

theorem ValueOf.unique {cs : List Char} {v w : Value} (hv : ValueOf read cs v)
    (hw : ValueOf read cs w) : v = w := by
  have hmixed (h : ∀ c ∈ cs, Text.isBlank c = true) : ¬∃ c ∈ cs, Text.isBlank c = false :=
    fun ⟨c, hc, hother⟩ ↦ by simp [h c hc] at hother
  cases hv with
  | blank h =>
    cases hw with
    | blank => rfl
    | text hw => exact absurd hw (hmixed h)
  | text h hread =>
    cases hw with
    | blank hw => exact absurd h (hmixed hw)
    | text _ hread' => exact Except.ok.inj (hread.symm.trans hread')

/-- A settings file with these bytes has the value `v`. -/
def HasValue (read : SettingsReader) (bytes : List UInt8) (v : Value) : Prop :=
  ∃ cs, bytes = Text.Utf8.encode cs ∧ ValueOf read (Text.unifyNewlines cs) v

theorem HasValue.unique {v w : Value} (hv : HasValue read bytes v) (hw : HasValue read bytes w) :
    v = w := by
  obtain ⟨cs, rfl, hv⟩ := hv
  obtain ⟨cs', heq, hw⟩ := hw
  obtain rfl := Text.Utf8.encode_injective heq
  exact hv.unique hw

theorem valueOfFile_eq_ok_iff {file : Files.Path} (hfile : d.read file = .ok bytes) :
    valueOfFile read d file = .ok v ↔ HasValue read bytes v := by
  rcases Files.Disk.readText_cases hfile with ⟨hbytes, fault, htext⟩ | ⟨cs, rfl, htext⟩
  · simp only [valueOfFile, htext]
    exact iff_of_false nofun fun ⟨cs, hcs, _⟩ ↦ hbytes cs hcs
  · simp only [valueOfFile, htext]
    constructor
    · intro h
      split at h
      case isTrue hblank =>
        cases h
        exact ⟨cs, rfl, .blank (List.all_eq_true.mp hblank)⟩
      case isFalse hblank =>
        split at h
        case h_1 w hvalue =>
          cases h
          exact ⟨cs, rfl, .text (by simpa using hblank) hvalue⟩
        all_goals cases h
    · rintro ⟨cs', heq, hv⟩
      obtain rfl := Text.Utf8.encode_injective heq
      cases hv with
      | blank h => rw [if_pos (List.all_eq_true.mpr h)]
      | text h hvalue => rw [if_neg (by simpa using h), hvalue]

/-- Bytes that are neither those of a value nor refused: those of no text, and those of a text that
the reader stumbles over. -/
inductive Unreadable (read : SettingsReader) (bytes : List UInt8) : Prop
  | noText (h : ∀ cs, bytes ≠ Text.Utf8.encode cs)
  | noValue {cs : List Char} {fault : Yaml.Fault} (hcs : bytes = Text.Utf8.encode cs)
    (hfilled : ∃ c ∈ Text.unifyNewlines cs, Text.isBlank c = false)
    (hread : read (Text.unifyNewlines cs) = .error fault) (hfault : fault ≠ .malformed)

theorem HasValue.readable {v : Value} (h : HasValue read bytes v) : ¬Unreadable read bytes := by
  obtain ⟨cs, rfl, hv⟩ := h
  rintro (hbytes | ⟨hcs, ⟨c, hc, hother⟩, hread, -⟩)
  · exact hbytes cs rfl
  · obtain rfl := Text.Utf8.encode_injective hcs
    cases hv with
    | blank hblank =>
      rw [hblank c hc] at hother
      cases hother
    | text _ hvalue => cases hread.symm.trans hvalue

/-- A reader that only ever says that a text is malformed stumbles over no text. -/
theorem Unreadable.forall_ne (h : Unreadable read bytes)
    (hread : ∀ cs fault, read cs = .error fault → fault = .malformed) :
    ∀ cs, bytes ≠ Text.Utf8.encode cs := by
  obtain hbytes | ⟨-, -, hvalue, hfault⟩ := h
  · exact hbytes
  · exact absurd (hread _ _ hvalue) hfault

/-- What reading the value of a file comes to. -/
theorem ends_valueOfFile {file : Files.Path} (hfile : d.read file = .ok bytes) :
    Ends (Unreadable read bytes)
      (¬Unreadable read bytes ∧ ∀ v, ¬HasValue read bytes v) (HasValue read bytes)
      (valueOfFile read d file) := by
  have hvalue (v : Value) : valueOfFile read d file = .ok v ↔ HasValue read bytes v :=
    valueOfFile_eq_ok_iff hfile
  rcases Files.Disk.readText_cases hfile with ⟨hbytes, fault, htext⟩ | ⟨cs, rfl, htext⟩
  · simp only [valueOfFile, htext]
    exact .noText hbytes
  · by_cases hblank : (Text.unifyNewlines cs).all Text.isBlank = true
    · have hnull : valueOfFile read d file = .ok .null := by
        simp only [valueOfFile, htext, if_pos hblank]
      rw [hnull]
      exact (hvalue .null).mp hnull
    · have hfilled : ∃ c ∈ Text.unifyNewlines cs, Text.isBlank c = false := by simpa using hblank
      cases hreading : read (Text.unifyNewlines cs) with
      | ok v =>
        have hok : valueOfFile read d file = .ok v := by
          simp only [valueOfFile, htext, if_neg hblank, hreading]
        rw [hok]
        exact (hvalue v).mp hok
      | error fault =>
        by_cases hfault : fault = .malformed
        · subst hfault
          have hrejected : valueOfFile read d file = .error (.rejected (.malformed file.name)) := by
            simp only [valueOfFile, htext, if_neg hblank, hreading]
          rw [hrejected]
          refine ⟨?_, fun v hv ↦ ?_⟩
          · rintro (hbytes | ⟨hcs, -, hreading', hfault⟩)
            · exact hbytes cs rfl
            · obtain rfl := Text.Utf8.encode_injective hcs
              cases hreading.symm.trans hreading'
              exact hfault rfl
          · cases hrejected.symm.trans ((hvalue v).mpr hv)
        · have hcrashed :
              valueOfFile read d file = .error (.crashed (.settings fault)) := by
            simp only [valueOfFile, htext, if_neg hblank, hreading]
          rw [hcrashed]
          exact .noValue rfl hfilled hreading hfault

/-- The file that settings are loaded from is there when it can be read. -/
theorem loadBy_eq_bind (hfile : d.read (fileAt d p) = .ok bytes) :
    loadBy read d p = valueOfFile read d (fileAt d p) >>= ofValue (fileAt d p).parent := by
  simp only [loadBy, Files.Disk.find?_of_read hfile]

/-- **What loading settings comes to** is decided by the bytes of the file. -/
theorem ends_loadBy_file (hfile : d.read (fileAt d p) = .ok bytes) :
    Ends (Unreadable read bytes ∨ ∃ v, HasValue read bytes v ∧ Crashes v.field)
      (¬Unreadable read bytes ∧
        ∀ v, HasValue read bytes v → ¬Crashes v.field ∧ ¬(IsSettings v ∧ Passes v.field))
      (fun c ↦ ∃ v, HasValue read bytes v ∧ ¬Crashes v.field ∧ IsSettings v ∧ Passes v.field ∧
        Valid c ∧ Reads v.field c)
      (loadBy read d p) := by
  rw [loadBy_eq_bind hfile]
  refine Ends.bind ((ends_valueOfFile hfile).imp .inl ?_ fun _ ↦ id) fun v hv ↦ ?_
  · exact fun ⟨hreadable, hnone⟩ ↦ ⟨hreadable, fun v hv ↦ absurd hv (hnone v)⟩
  · refine (ends_ofValue _ v).imp (fun hcrash ↦ .inr ⟨v, hv, hcrash⟩) (fun hrefused ↦ ?_)
      fun c hdone ↦ ⟨v, hv, hdone⟩
    exact ⟨hv.readable, fun w hw ↦ hv.unique hw ▸ hrefused⟩

/-- Which settings files crash loading, for every reader of their texts. -/
theorem loadBy_crashes_iff (hfile : d.read (fileAt d p) = .ok bytes) :
    (∃ crash, loadBy read d p = .error (.crashed crash)) ↔
      Unreadable read bytes ∨ ∃ v, HasValue read bytes v ∧ Crashes v.field := by
  refine (ends_loadBy_file hfile).crashed_iff ?_ ?_
  · rintro ⟨hreadable, hrefused⟩ (hunreadable | ⟨v, hv, hcrash⟩)
    · exact hreadable hunreadable
    · exact (hrefused v hv).1 hcrash
  · rintro c ⟨v, hv, hharmless, -⟩ (hunreadable | ⟨w, hw, hcrash⟩)
    · exact hv.readable hunreadable
    · exact hharmless (hw.unique hv ▸ hcrash)

/-- The same for a reader that only ever says that a text is malformed. -/
theorem ends_loadBy (hfile : d.read (fileAt d p) = .ok bytes)
    (hread : ∀ cs fault, read cs = .error fault → fault = .malformed) :
    Ends ((∀ cs, bytes ≠ Text.Utf8.encode cs) ∨ ∃ v, HasValue read bytes v ∧ Crashes v.field)
      ((∃ cs, bytes = Text.Utf8.encode cs) ∧
        ∀ v, HasValue read bytes v → ¬Crashes v.field ∧ ¬(IsSettings v ∧ Passes v.field))
      (fun c ↦ ∃ v, HasValue read bytes v ∧ ¬Crashes v.field ∧ IsSettings v ∧ Passes v.field ∧
        Valid c ∧ Reads v.field c)
      (loadBy read d p) := by
  refine (ends_loadBy_file hfile).imp ?_ (fun ⟨hreadable, hrefused⟩ ↦ ⟨?_, hrefused⟩) fun _ ↦ id
  · exact Or.imp_left fun hunreadable ↦ hunreadable.forall_ne hread
  · by_contra hnone
    exact hreadable (.noText fun cs hcs ↦ hnone ⟨cs, hcs⟩)

/-- **What loading a settings file that can be read comes to**, for every reader of texts that only
ever says that a text is malformed. Settings that are loaded are within bounds and are those of the
file, with those of another kind at their defaults. Loading crashes just when the file is no text or
has a setting that cannot be read where it is looked at; it succeeds just when the file has settings
that pass their checks, none of them like that; and all other files are refused. -/
theorem loadBy_file (read : SettingsReader)
    (hread : ∀ cs fault, read cs = .error fault → fault = .malformed) (d : Files.Disk)
    (p : Files.Path) (bytes : List UInt8) (hfile : d.read (fileAt d p) = .ok bytes) :
    (∀ c, loadBy read d p = .ok c → Valid c ∧ ∃ v, HasValue read bytes v ∧ Reads v.field c) ∧
      ((∃ crash, loadBy read d p = .error (.crashed crash)) ↔
        (∀ cs, bytes ≠ Text.Utf8.encode cs) ∨ ∃ v, HasValue read bytes v ∧ Crashes v.field) ∧
      ((∃ c, loadBy read d p = .ok c) ↔
        ∃ v, HasValue read bytes v ∧ ¬Crashes v.field ∧ IsSettings v ∧ Passes v.field) := by
  have hends := ends_loadBy hfile hread
  refine ⟨fun c hc ↦ ?_, hends.crashed_iff ?_ ?_, hends.ok_iff ?_ ?_ ?_⟩
  · obtain ⟨v, hv, -, -, -, hvalid, hreads⟩ := hends.of_ok hc
    exact ⟨hvalid, v, hv, hreads⟩
  · rintro ⟨⟨cs, hcs⟩, hrefused⟩ (hbytes | ⟨v, hv, hcrash⟩)
    · exact hbytes cs hcs
    · exact (hrefused v hv).1 hcrash
  · rintro c ⟨v, hv, hharmless, -⟩ (hbytes | ⟨w, hw, hcrash⟩)
    · exact hv.elim fun cs h ↦ hbytes cs h.1
    · exact hharmless (hw.unique hv ▸ hcrash)
  · rintro (hbytes | ⟨w, hw, hcrash⟩) ⟨v, hv, hharmless, -⟩
    · exact hv.elim fun cs h ↦ hbytes cs h.1
    · exact hharmless (hw.unique hv ▸ hcrash)
  · exact fun ⟨_, hrefused⟩ ⟨v, hv, _, hpasses⟩ ↦ (hrefused v hv).2 hpasses
  · exact fun c ⟨v, hv, hharmless, hsettings, hpasses, _⟩ ↦ ⟨v, hv, hharmless, hsettings, hpasses⟩

/-- Settings that are loaded are those of a file, or what they are by default when there is no file
that could be read. -/
theorem cases_of_loadBy (h : loadBy read d p = .ok c) :
    ((∃ e, d.read (fileAt d p) = .error e) ∧ c = { root := (fileAt d p).parent }) ∨
      ∃ bytes v, d.read (fileAt d p) = .ok bytes ∧ HasValue read bytes v ∧ Valid c ∧
        Reads v.field c := by
  cases hfile : d.read (fileAt d p) with
  | error e =>
    refine .inl ⟨⟨e, rfl⟩, ?_⟩
    have hvalue : valueOfFile read d (fileAt d p) =
        .error (.rejected (.unreadable (fileAt d p).name e)) := by
      simp only [valueOfFile, Files.Disk.readText, hfile]
    cases hfound : d.find? (fileAt d p) with
    | error e =>
      simp only [loadBy, hfound] at h
      cases h
    | ok entry =>
      cases entry with
      | none =>
        simp only [loadBy, hfound] at h
        exact (Except.ok.inj h).symm
      | some entry =>
        simp only [loadBy, hfound, hvalue] at h
        cases h
  | ok bytes =>
    rw [loadBy_eq_bind hfile] at h
    cases hvalue : valueOfFile read d (fileAt d p) with
    | error fault =>
      rw [hvalue] at h
      cases h
    | ok v =>
      rw [hvalue] at h
      obtain ⟨-, -, -, hvalid, hreads⟩ := (ends_ofValue _ v).of_ok h
      exact .inr ⟨bytes, v, rfl, (valueOfFile_eq_ok_iff hfile).mp hvalue, hvalid, hreads⟩

/-- A working folder with a settings file and nothing else. -/
def alone (bytes : List UInt8) : Files.Disk where
  tree := .folder [(fileName, .file bytes)]
  here := []

theorem fileAt_alone (bytes : List UInt8) :
    fileAt (alone bytes) ⟨false, []⟩ = ⟨true, [fileName]⟩ := by
  have hfits : ¬Files.Disk.pathLimit < (⟨false, []⟩ : Files.Path).text.utf8ByteSize := by
    decide +kernel
  have hdots : (fileName == "..") = false := by decide
  have hfolder : (alone bytes).isFolder ⟨false, []⟩ = true := by
    simp [Files.Disk.isFolder, Files.Disk.entry, Files.Disk.locate, Files.Disk.walk, hfits,
      Files.Disk.startOf, alone, Files.Entry.isFolder]
  rw [fileAt, if_pos hfolder]
  simp [Files.Disk.resolve, Files.Disk.resolveFrom, Files.Disk.startOf, alone, Files.Path.child,
    hdots]

theorem read_alone (bytes : List UInt8) :
    (alone bytes).read (fileAt (alone bytes) ⟨false, []⟩) = .ok bytes := by
  have hfits : ¬Files.Disk.pathLimit < (⟨true, [fileName]⟩ : Files.Path).text.utf8ByteSize := by
    decide +kernel
  have hname : ¬Files.Disk.nameLimit < fileName.utf8ByteSize := by decide +kernel
  have hdots : (fileName == "..") = false := by decide
  rw [fileAt_alone]
  simp [Files.Disk.read, Files.Disk.entry, Files.Disk.locate, Files.Disk.walk, Files.Disk.startOf,
    alone, hfits, hname, hdots]

theorem loadBy_alone (h : HasValue read bytes v) :
    loadBy read (alone bytes) ⟨false, []⟩ =
      ofValue (⟨true, [fileName]⟩ : Files.Path).parent v := by
  rw [loadBy_eq_bind (read_alone bytes), (valueOfFile_eq_ok_iff (read_alone bytes)).mpr h,
    fileAt_alone]
  rfl

/-- The single byte `0x80` is no text, and loading it crashes. -/
theorem loadBy_stray_byte :
    let read : SettingsReader := fun cs ↦ (Yaml.Value.ofText cs).mapError fun _ ↦ .malformed
    ∃ crash, loadBy read (alone [0x80]) ⟨false, []⟩ = .error (.crashed crash) := by
  intro read
  have hread : ∀ cs fault, read cs = .error fault → fault = .malformed := by
    intro cs fault h
    simp only [read] at h
    cases hvalue : Yaml.Value.ofText cs <;> rw [hvalue] at h <;> cases h
    rfl
  have hbytes : ∀ cs, [0x80] ≠ Text.Utf8.encode cs := by
    intro cs hcs
    have hdecode := Text.Utf8.decode?_eq_ok_iff.mpr hcs
    have hfault : Text.Utf8.decode? [0x80] = .error .invalidStart := by decide
    rw [hfault] at hdecode
    cases hdecode
  exact (loadBy_file read hread _ _ _ (read_alone [0x80])).2.1.mpr (.inl hbytes)

end Docwright.Config
