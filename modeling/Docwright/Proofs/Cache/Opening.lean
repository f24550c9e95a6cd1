import Docwright.Proofs.Cache.Cycle
import Docwright.Proofs.Json.Distinct
import Docwright.Proofs.Json.Limits
import Docwright.Proofs.Text.Wellformed

/-!
# Opening a cache over any bytes

Whatever bytes stand where a snapshot is expected, opening a cache over them comes to one of two
ends. Three kinds of bytes end what is under way (`Spoils`): those of no text, those in which a
whole number has too many digits, and those in which values are nested too deeply. All others open,
and under every key there is then the text that the bytes hold for it, or nothing (`openAt_file`).

What bytes hold is said without the program's choice of entries: a snapshot of the right version has
an object of entries, and the entry under the key has a text for its body (`HeldBy`).
-/

namespace Docwright.Cache

open Text

variable {d : Files.Disk} {p : Files.Path} {bytes : List UInt8} {cs : List Char} {log : Log}
  {c : Cache} {key body : String} {snapshot : Json}

/-! ### What a snapshot holds -/

/-- The snapshot holds the text `body` under `key`. -/
structure Holds (snapshot : Json) (key body : String) : Prop where
  version : ∃ v, snapshot.field? "version" = some v ∧ isVersion v = true
  entry : ∃ entries fields, snapshot.field? "entries" = some (.object entries) ∧
    entries.lookup key = some (.object fields) ∧ fields.lookup "body" = some (.text body)

/-- The bytes are those of a snapshot that holds the text `body` under `key`. -/
def HeldBy (bytes : List UInt8) (key body : String) : Prop :=
  ∃ cs snapshot, bytes = Utf8.encode cs ∧ Json.parse (unifyNewlines cs) = .ok snapshot ∧
    Holds snapshot key body

/-- An entry with a text. -/
def withText? (value : Json) : Option CacheEntry :=
  value.object?.bind fun fields ↦ if (CacheEntry.body? fields).isSome then some fields else none

theorem entriesOf_eq (hversion : ((snapshot.field? "version").map isVersion).getD false = true) :
    entriesOf snapshot = (((snapshot.field? "entries").bind Json.object?).getD []).filterMap
      fun field ↦ (withText? field.2).map (field.1, ·) := by
  rw [entriesOf, if_pos hversion]
  refine List.filterMap_congr fun field _ ↦ ?_
  simp only [withText?]
  cases field.2.object? with
  | none => rfl
  | some fields =>
    simp only [Option.bind_some]
    split <;> rfl

theorem body?_of_withText? {value : Json} :
    (withText? value).bind CacheEntry.body? = some body ↔
      ∃ fields, value = .object fields ∧ fields.lookup "body" = some (.text body) := by
  have hbody (fields : CacheEntry) :
      CacheEntry.body? fields = some body ↔ fields.lookup "body" = some (.text body) := by
    rw [CacheEntry.body?, Option.bind_eq_some_iff]
    constructor
    · rintro ⟨j, hj, htext⟩
      cases j <;> simp_all [Json.text?]
    · exact fun h ↦ ⟨_, h, rfl⟩
  cases value with
  | object fields =>
    rw [withText?, Json.object?, Option.bind_some]
    constructor
    · split
      · exact fun h ↦ ⟨fields, rfl, (hbody fields).1 h⟩
      · intro h
        cases h
    · rintro ⟨_, ⟨⟩, h⟩
      have h := (hbody fields).2 h
      rw [h, Option.isSome_some, if_pos rfl, Option.bind_some, h]
  | _ =>
    constructor
    · intro h
      cases h
    · rintro ⟨fields, hvalue, -⟩
      cases hvalue

/-- **The entries of a snapshot have the texts that it holds**, if it repeats no name. -/
theorem lookup_entriesOf_iff (hdistinct : snapshot.Distinct) :
    ((entriesOf snapshot).lookup key).bind CacheEntry.body? = some body ↔
      Holds snapshot key body := by
  have hversion_iff : ((snapshot.field? "version").map isVersion).getD false = true ↔
      ∃ v, snapshot.field? "version" = some v ∧ isVersion v = true := by
    cases snapshot.field? "version" <;> simp
  by_cases hversion : ((snapshot.field? "version").map isVersion).getD false = true
  · cases hentries : (snapshot.field? "entries").bind Json.object? with
    | none =>
      rw [entriesOf_eq hversion, hentries]
      constructor
      · intro h
        cases h
      · rintro ⟨-, entries, fields, hfield, -⟩
        rw [hfield] at hentries
        cases hentries
    | some entries =>
      obtain ⟨j, hfield, hj⟩ := Option.bind_eq_some_iff.1 hentries
      cases j <;> cases hj
      have hnames : (entries.map Prod.fst).Nodup := by
        cases hdistinct.field? hfield with
        | object names _ => exact names
      rw [entriesOf_eq hversion, hentries, Option.getD_some,
        Json.lookup_filterMap_snd withText? hnames, Option.bind_assoc, Option.bind_eq_some_iff]
      constructor
      · rintro ⟨value, hvalue, hbody⟩
        obtain ⟨fields, rfl, htext⟩ := body?_of_withText?.1 hbody
        exact ⟨hversion_iff.1 hversion, entries, fields, hfield, hvalue, htext⟩
      · rintro ⟨-, entries', fields, hfield', hvalue, htext⟩
        cases hfield.symm.trans hfield'
        exact ⟨_, hvalue, body?_of_withText?.2 ⟨fields, rfl, htext⟩⟩
  · rw [entriesOf, if_neg hversion]
    refine ⟨fun h ↦ ?_, fun h ↦ absurd (hversion_iff.2 h.version) hversion⟩
    cases h

/-! ### What ends the opening -/

/-- Bytes over which no cache is opened, and what it ends with. -/
inductive Spoils : List UInt8 → Crash → Prop
  /-- The bytes are those of no text. -/
  | noText {bytes : List UInt8} (h : ∀ cs, bytes ≠ Utf8.encode cs) : Spoils bytes .undecodable
  /-- A whole number has too many digits. -/
  | digits {cs : List Char} {digits : Nat}
    (hparse : Json.parse (unifyNewlines cs) = .error (.tooLong digits)) :
    Spoils (Utf8.encode cs) (.badNumber (.tooLong digits))
  /-- Values are nested too deeply. -/
  | depth {cs : List Char} {kind : String}
    (hparse : Json.parse (unifyNewlines cs) = .error (.tooDeep kind)) :
    Spoils (Utf8.encode cs) (.tooDeep kind)

theorem spoils_encode_iff {crash : Crash} :
    Spoils (Utf8.encode cs) crash ↔
      ∃ fault, Json.parse (unifyNewlines cs) = .error fault ∧ Crash.ofJson? fault = some crash := by
  constructor
  · intro h
    generalize hbytes : Utf8.encode cs = bytes at h
    cases h with
    | noText h => exact absurd hbytes.symm (h cs)
    | digits hparse =>
      obtain rfl := Utf8.encode_injective hbytes
      exact ⟨_, hparse, rfl⟩
    | depth hparse =>
      obtain rfl := Utf8.encode_injective hbytes
      exact ⟨_, hparse, rfl⟩
  · rintro ⟨fault, hparse, hcrash⟩
    cases fault with
    | malformed left => cases hcrash
    | tooLong digits =>
      cases hcrash
      exact .digits hparse
    | tooDeep kind =>
      cases hcrash
      exact .depth hparse

theorem Spoils.unique {crash crash' : Crash} (h : Spoils bytes crash) (h' : Spoils bytes crash') :
    crash = crash' := by
  by_cases htext : ∃ cs, bytes = Utf8.encode cs
  · obtain ⟨cs, rfl⟩ := htext
    obtain ⟨fault, hparse, hcrash⟩ := spoils_encode_iff.1 h
    obtain ⟨fault', hparse', hcrash'⟩ := spoils_encode_iff.1 h'
    cases hparse.symm.trans hparse'
    exact Option.some.inj (hcrash.symm.trans hcrash')
  · have hnone {crash : Crash} (h : Spoils bytes crash) : crash = .undecodable := by
      cases h with
      | noText => rfl
      | digits => exact absurd ⟨_, rfl⟩ htext
      | depth => exact absurd ⟨_, rfl⟩ htext
    rw [hnone h, hnone h']

/-- How opening over a file ends, by what is read of its bytes. -/
theorem openAt_cases (hfile : d.read p = .ok bytes) :
    (∃ crash, Spoils bytes crash ∧ openAt d p = ([], .error crash)) ∨
      ∃ cs, bytes = Utf8.encode cs ∧
        ((∃ snapshot, Json.parse (unifyNewlines cs) = .ok snapshot ∧
            openAt d p = ([], .ok { path := some p, entries := entriesOf snapshot })) ∨
          ∃ left, Json.parse (unifyNewlines cs) = .error (.malformed left) ∧
            openAt d p = (unreadableLog p "not structured data", .ok { path := some p })) := by
  rcases Files.Disk.readText_cases hfile with ⟨hbytes, fault, htext⟩ | ⟨cs, rfl, htext⟩
  · exact .inl ⟨_, .noText hbytes, by simp only [openAt, htext]⟩
  · cases hparse : Json.parse (unifyNewlines cs) with
    | ok snapshot =>
      exact .inr ⟨cs, rfl, .inl ⟨snapshot, hparse, by simp only [openAt, htext, hparse]⟩⟩
    | error fault =>
      cases fault with
      | malformed left =>
        refine .inr ⟨cs, rfl, .inr ⟨left, hparse, ?_⟩⟩
        simp only [openAt, htext, hparse, Crash.ofJson?]
      | tooLong digits =>
        exact .inl ⟨_, .digits hparse, by simp only [openAt, htext, hparse, Crash.ofJson?]⟩
      | tooDeep kind =>
        exact .inl ⟨_, .depth hparse, by simp only [openAt, htext, hparse, Crash.ofJson?]⟩

/-- **What ends the opening** is exactly what spoils the bytes. -/
theorem openAt_eq_error_iff (hfile : d.read p = .ok bytes) {crash : Crash} :
    (∃ log, openAt d p = (log, .error crash)) ↔ Spoils bytes crash := by
  rcases openAt_cases hfile with ⟨found, hfound, hend⟩ |
    ⟨cs, rfl, ⟨snapshot, hparse, hend⟩ | ⟨left, hparse, hend⟩⟩
  · rw [hend]
    constructor
    · rintro ⟨log, ⟨⟩⟩
      exact hfound
    · exact fun h ↦ ⟨[], by rw [hfound.unique h]⟩
  · refine iff_of_false (fun ⟨log, h⟩ ↦ nomatch hend.symm.trans h) fun h ↦ ?_
    obtain ⟨fault, hfault, -⟩ := spoils_encode_iff.1 h
    cases hparse.symm.trans hfault
  · refine iff_of_false (fun ⟨log, h⟩ ↦ nomatch hend.symm.trans h) fun h ↦ ?_
    obtain ⟨fault, hfault, hcrash⟩ := spoils_encode_iff.1 h
    cases hparse.symm.trans hfault
    cases hcrash

/-- A cache that opens holds what the bytes hold. -/
theorem get?_openAt_iff (hfile : d.read p = .ok bytes) (hopen : openAt d p = (log, .ok c)) :
    c.get? key = some body ↔ HeldBy bytes key body := by
  rcases openAt_cases hfile with ⟨crash, -, hend⟩ |
    ⟨cs, rfl, ⟨snapshot, hparse, hend⟩ | ⟨left, hparse, hend⟩⟩
  · cases hend.symm.trans hopen
  · cases hend.symm.trans hopen
    refine (lookup_entriesOf_iff (Json.distinct_parse hparse)).trans
      ⟨fun h ↦ ⟨cs, snapshot, rfl, hparse, h⟩, ?_⟩
    rintro ⟨cs', snapshot', hcs, hparse', h⟩
    obtain rfl := Utf8.encode_injective hcs
    cases hparse.symm.trans hparse'
    exact h
  · cases hend.symm.trans hopen
    refine ⟨nofun, ?_⟩
    rintro ⟨cs', snapshot', hcs, hparse', -⟩
    obtain rfl := Utf8.encode_injective hcs
    cases hparse.symm.trans hparse'

/-- **Opening a cache over any bytes.** It crashes just over the bytes that spoil it, which those of
a text with short numbers and few brackets never do. Over all others a cache opens, and what is
found in it under a key is just what the bytes hold for that key. -/
theorem openAt_file (d : Files.Disk) (p : Files.Path) (bytes : List UInt8)
    (hfile : d.read p = .ok bytes) :
    (∀ crash, (∃ log, openAt d p = (log, .error crash)) ↔ Spoils bytes crash) ∧
      ((∃ log c, openAt d p = (log, .ok c)) ↔ ∀ crash, ¬Spoils bytes crash) ∧
      (∀ log c, openAt d p = (log, .ok c) →
        ∀ key body, c.get? key = some body ↔ HeldBy bytes key body) ∧
      ∀ cs, Json.Moderate (unifyNewlines cs) → ∀ crash, ¬Spoils (Utf8.encode cs) crash := by
  have hcrash (crash : Crash) : (∃ log, openAt d p = (log, .error crash)) ↔ Spoils bytes crash :=
    openAt_eq_error_iff hfile
  refine ⟨hcrash, ?_, fun log c hopen key body ↦ get?_openAt_iff hfile hopen, ?_⟩
  · simp only [← hcrash]
    rcases hopen : openAt d p with ⟨log, _ | c⟩
    · simp
    · simp
  · intro cs hmoderate crash hspoils
    obtain ⟨fault, hparse, hcrash⟩ := spoils_encode_iff.1 hspoils
    obtain ⟨left, rfl⟩ := hmoderate.eq_malformed hparse
    cases hcrash

/-- The bytes of a file in the working folder are read by its name. -/
theorem read_barePath (bytes : List UInt8) :
    ({ tree := .folder [("cache.json", .file bytes)], here := [] } : Files.Disk).read barePath
      = .ok bytes := by
  rw [Files.Disk.read, Files.Disk.entry, barePath,
    Files.Disk.locate_name (by decide) (by decide) (by simp) true]
  rfl

/-- The single byte `0x80` is no text, and no cache opens over it. -/
theorem not_openAt_stray_byte :
    let d : Files.Disk := { tree := .folder [("cache.json", .file [0x80])], here := [] }
    d.read barePath = .ok [0x80] ∧ ¬∃ log c, openAt d barePath = (log, .ok c) := by
  intro d
  have hopens := (openAt_file d barePath [0x80] (read_barePath [0x80])).2.1
  exact ⟨read_barePath [0x80], fun h ↦ hopens.1 h _ (.noText Utf8.stray_byte_ne_encode)⟩

end Docwright.Cache
