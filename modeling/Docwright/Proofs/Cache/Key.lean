import Docwright.Proofs.Cache.Store
import Docwright.Proofs.Json.Text
import Docwright.Proofs.Text.Lines
import Docwright.Proofs.Text.Wellformed

/-!
# What a key stands for

The key of a page is a digest, so what it stands for is what can be read off the bytes that are
digested. These are four parts, each ended by a zero byte. No text holds a zero byte unless it holds
the zero character (`zero_mem_encode_iff`), so the first three parts end where the first three zero
bytes are, and the last part is all that remains; it may hold any character. The third part is a
list of paths that are joined by line feeds, and since none of them is empty or holds a line feed,
the list can be read off it again.

So two units have the same bytes exactly when they agree on all parts (`AgreeUpTo`), and the same
key exactly when they agree or show a collision of the digest (`keyOf_iff`). Nothing is assumed
about the digest: it certainly has collisions, so a law that asks for it to have none holds of no
function.
-/

namespace Docwright

open Text

/-! ### Digests in hexadecimal -/

theorem hexDigits_two (n : Nat) : hexDigits 2 n = [hexDigit (n / 16 % 16), hexDigit (n % 16)] := by
  simp [hexDigits, List.range_succ]

/-- Two digits tell bytes apart. -/
theorem hexDigits_two_inj {a b : UInt8} : hexDigits 2 a.toNat = hexDigits 2 b.toNat ↔ a = b := by
  refine ⟨fun h ↦ ?_, fun h ↦ h ▸ rfl⟩
  have hvalue {m n : Nat} (h : hexDigit (m % 16) = hexDigit (n % 16)) : m % 16 = n % 16 := by
    have hread := congrArg hexDigit? h
    rw [Json.hexDigit?_hexDigit (Nat.mod_lt _ (by decide)),
      Json.hexDigit?_hexDigit (Nat.mod_lt _ (by decide))] at hread
    exact Option.some.inj hread
  rw [hexDigits_two, hexDigits_two] at h
  obtain ⟨hhigh, hlow, -⟩ : hexDigit (a.toNat / 16 % 16) = hexDigit (b.toNat / 16 % 16) ∧
      hexDigit (a.toNat % 16) = hexDigit (b.toNat % 16) ∧ ([] : List Char) = [] := by simpa using h
  have hhigh := hvalue hhigh
  have hlow := hvalue hlow
  have ha := a.toNat_lt
  have hb := b.toNat_lt
  exact UInt8.toNat_inj.1 (by omega)

theorem flatMap_hexDigits_inj {bytes bytes' : List UInt8} :
    (bytes.flatMap fun b ↦ hexDigits 2 b.toNat) = (bytes'.flatMap fun b ↦ hexDigits 2 b.toNat) ↔
      bytes = bytes' := by
  refine ⟨fun h ↦ ?_, fun h ↦ h ▸ rfl⟩
  induction bytes generalizing bytes' with
  | nil =>
    cases bytes' with
    | nil => rfl
    | cons b bytes' => simp [hexDigits_two] at h
  | cons a bytes ih =>
    cases bytes' with
    | nil => simp [hexDigits_two] at h
    | cons b bytes' =>
      rw [List.flatMap_cons, List.flatMap_cons] at h
      obtain ⟨hfirst, hrest⟩ := List.append_inj h (by rw [hexDigits_two, hexDigits_two]; rfl)
      rw [hexDigits_two_inj.1 hfirst, ih hrest]

/-! ### Where a part ends -/

/-- Every byte of a character is from 128 on, unless it is the only one. -/
theorem toNat_of_mem_encodeChar {c : Char} {b : UInt8} (h : b ∈ Utf8.encodeChar c) :
    b.toNat = c.toNat ∨ 128 ≤ b.toNat := by
  have hvalid := Utf8.toNat_valid c
  simp only [Utf8.encodeChar] at h
  split at h
  · rw [List.mem_singleton.1 h]
    exact .inl (Utf8.toNat_toUInt8_of_lt (by omega))
  right
  split at h
  · simp only [List.mem_cons, List.not_mem_nil, or_false] at h
    rcases h with rfl | rfl
    all_goals
      rw [Utf8.toNat_toUInt8_of_lt (by omega)]
      omega
  split at h
  all_goals simp only [List.mem_cons, List.not_mem_nil, or_false] at h
  · rcases h with rfl | rfl | rfl
    all_goals
      rw [Utf8.toNat_toUInt8_of_lt (by omega)]
      omega
  · rcases h with rfl | rfl | rfl | rfl
    all_goals
      rw [Utf8.toNat_toUInt8_of_lt (by omega)]
      omega

/-- **A text has a zero byte only where it has the zero character.** -/
theorem zero_mem_encode_iff {cs : List Char} : 0 ∈ Utf8.encode cs ↔ '\x00' ∈ cs := by
  rw [Utf8.encode, List.mem_flatMap]
  constructor
  · rintro ⟨c, hc, hzero⟩
    rcases toNat_of_mem_encodeChar hzero with h | h
    · rwa [Char.toNat_inj.1 (show c.toNat = '\x00'.toNat from h.symm)] at hc
    · exact absurd h (by decide)
  · exact fun h ↦ ⟨_, h, by decide⟩

/-- What stands before the first occurrence of an element, and what stands behind it. -/
theorem append_cons_inj {α : Type} {x : α} {before before' after after' : List α}
    (h : x ∉ before) (h' : x ∉ before') :
    before ++ x :: after = before' ++ x :: after' ↔ before = before' ∧ after = after' := by
  refine ⟨fun heq ↦ ?_, fun ⟨hbefore, hafter⟩ ↦ hbefore ▸ hafter ▸ rfl⟩
  rcases List.append_eq_append_iff.1 heq with ⟨between, rfl, heq⟩ | ⟨between, rfl, heq⟩
  all_goals cases between with
    | nil => simpa using heq
    | cons y between => simp_all

/-- A text without the zero character can be read off its bytes and the zero byte behind them. -/
theorem encode_append_zero_inj {cs ds : List Char} {rest rest' : List UInt8} (hcs : '\x00' ∉ cs)
    (hds : '\x00' ∉ ds) :
    Utf8.encode cs ++ 0 :: rest = Utf8.encode ds ++ 0 :: rest' ↔ cs = ds ∧ rest = rest' := by
  rw [append_cons_inj (fun h ↦ hcs (zero_mem_encode_iff.1 h))
    (fun h ↦ hds (zero_mem_encode_iff.1 h)), Utf8.encode_injective.eq_iff]

/-! ### The bytes of a unit -/

namespace Page.PageUnit

/-- The names that a unit goes by can be told apart in a key: its kind and its label hold no zero
character, and its paths are not empty and hold neither a zero character nor a line feed. Nothing is
required of its content. -/
structure Separable (u : PageUnit) : Prop where
  kind : '\x00' ∉ u.kind.name.toList
  label : '\x00' ∉ u.label.toList
  files : ∀ path ∈ u.files, path ≠ "" ∧ '\x00' ∉ path.toList ∧ '\n' ∉ path.toList

/-- Units that agree on kind, label, files and the start of the content. -/
structure AgreeUpTo (count : Int) (u v : PageUnit) : Prop where
  kind : u.kind.name = v.kind.name
  label : u.label = v.label
  files : u.files = v.files
  content : startOfText u.content.toList count = startOfText v.content.toList count

/-- The bytes that the key of a unit is the digest of. -/
def keyBytes (u : PageUnit) (count : Int) : List UInt8 :=
  Docwright.keyBytes u.kind.name u.label u.files u.content count

variable {u v : PageUnit}

/-- The joined paths hold no zero character. -/
theorem Separable.zero_not_mem (h : u.Separable) :
    '\x00' ∉ joinWith ['\n'] (u.files.map String.toList) := by
  have hpaths : ∀ part ∈ u.files.map String.toList, ∀ c ∈ part, c ≠ '\x00' := by
    intro part hpart c hc hzero
    obtain ⟨path, hpath, rfl⟩ := List.mem_map.1 hpart
    exact (h.files path hpath).2.1 (hzero ▸ hc)
  exact fun hmem ↦ forall_mem_joinWith (List.forall_mem_singleton.2 (by decide)) hpaths _ hmem rfl

/-- **The list of files can be read off the joined paths.** -/
theorem Separable.joined_inj (hu : u.Separable) (hv : v.Separable) :
    joinWith ['\n'] (u.files.map String.toList) = joinWith ['\n'] (v.files.map String.toList) ↔
      u.files = v.files := by
  have hpaths {w : PageUnit} (h : w.Separable) :
      ∀ part ∈ w.files.map String.toList, part ≠ [] ∧ '\n' ∉ part := by
    refine List.forall_mem_map.2 fun path hpath ↦ ⟨fun hnil ↦ ?_, (h.files path hpath).2.2⟩
    exact (h.files path hpath).1 (String.toList_eq_nil_iff.1 hnil)
  rw [joinWith_inj (hpaths hu) (hpaths hv)]
  exact (List.map_injective_iff.2 fun _ _ ↦ String.toList_inj.1).eq_iff

/-- **Units have the same bytes exactly when they agree.** Three parts end at the first three zero
bytes, and the last is all that remains but the zero byte at its end. -/
theorem keyBytes_inj (hu : u.Separable) (hv : v.Separable) (count : Int) :
    u.keyBytes count = v.keyBytes count ↔ AgreeUpTo count u v := by
  have hparts (w : PageUnit) : w.keyBytes count = Utf8.encode w.kind.name.toList ++ 0 ::
      (Utf8.encode w.label.toList ++ 0 ::
        (Utf8.encode (joinWith ['\n'] (w.files.map String.toList)) ++ 0 ::
          (Utf8.encode (startOfText w.content.toList count) ++ [0]))) := by
    simp [keyBytes, Docwright.keyBytes]
  rw [hparts, hparts, encode_append_zero_inj hu.kind hv.kind,
    encode_append_zero_inj hu.label hv.label,
    encode_append_zero_inj hu.zero_not_mem hv.zero_not_mem, hu.joined_inj hv,
    List.append_left_inj, Utf8.encode_injective.eq_iff, String.toList_inj, String.toList_inj]
  exact ⟨fun ⟨hkind, hlabel, hfiles, hcontent⟩ ↦ ⟨hkind, hlabel, hfiles, hcontent⟩,
    fun h ↦ ⟨h.kind, h.label, h.files, h.content⟩⟩

end Page.PageUnit

/-! ### Keys -/

/-- Two different messages with the same digest. -/
def Digest.Collide (a b : List UInt8) : Prop :=
  a ≠ b ∧ Digest.sha256 a = Digest.sha256 b

open Page.PageUnit in
/-- Two keys are the same exactly when the digested bytes are, or collide. -/
theorem keyOf_inj {u v : Page.PageUnit} {count : Int} : keyOf u count = keyOf v count ↔
    u.keyBytes count = v.keyBytes count ∨ Digest.Collide (u.keyBytes count) (v.keyBytes count) := by
  have hdigest : keyOf u count = keyOf v count ↔
      Digest.sha256 (u.keyBytes count) = Digest.sha256 (v.keyBytes count) := by
    rw [keyOf, keyOf, pageKey, pageKey, String.ofList_inj, flatMap_hexDigits_inj]
    rfl
  rw [hdigest, Digest.Collide]
  by_cases heq : u.keyBytes count = v.keyBytes count
  · simp [heq]
  · simp [heq]

open Page.PageUnit in
/-- **What a key stands for.** Take two units of which no kind or label holds a zero character and
no path is empty or holds a zero character or a line feed, with any content, and any bound on the
part of the content that counts. The bytes that their keys are digests of are the same exactly when
the units agree on kind, label, files and start of the content. So they have the same key only if
they agree or the digest has a collision in just these bytes; and whatever is kept for the one is
found for the other in this case, and has no bearing on it in any other. -/
theorem keyOf_iff {u v : Page.PageUnit} (hu : u.Separable) (hv : v.Separable) (count : Int) :
    (u.keyBytes count = v.keyBytes count ↔ AgreeUpTo count u v) ∧
      (keyOf u count = keyOf v count ↔
        AgreeUpTo count u v ∨ Digest.Collide (u.keyBytes count) (v.keyBytes count)) ∧
      ∀ (cache : Cache) (body : String) (moment : Moment),
        let kept := cache.store (keyOf u count) body moment
        (AgreeUpTo count u v ∨ Digest.Collide (u.keyBytes count) (v.keyBytes count) →
          kept.get? (keyOf v count) = some body) ∧
        (¬(AgreeUpTo count u v ∨ Digest.Collide (u.keyBytes count) (v.keyBytes count)) →
          kept.get? (keyOf v count) = cache.get? (keyOf v count)) := by
  have hbytes := keyBytes_inj hu hv count
  have hkeys : keyOf u count = keyOf v count ↔
      AgreeUpTo count u v ∨ Digest.Collide (u.keyBytes count) (v.keyBytes count) := by
    rw [keyOf_inj, hbytes]
  refine ⟨hbytes, hkeys, fun cache body moment ↦ ⟨fun hshared ↦ ?_, fun hapart ↦ ?_⟩⟩
  · rw [Cache.get?_store, if_pos (hkeys.2 hshared).symm]
  · rw [Cache.get?_store, if_neg fun heq ↦ hapart (hkeys.1 heq.symm)]

/-- A feature of two files. -/
def pairUnit (content : String) : Page.PageUnit :=
  ⟨.group, "Api", "Api", ["api/a.ts", "api/b.ts"], content, []⟩

theorem separable_pairUnit (content : String) : (pairUnit content).Separable where
  kind := show '\x00' ∉ "group".toList by decide
  label := show '\x00' ∉ "Api".toList by decide
  files := show ∀ path ∈ ["api/a.ts", "api/b.ts"], _ by decide

/-- Contents that differ behind a zero character: with two characters, or all but the last, the keys
are the same, and with three characters the digested bytes are not. -/
theorem keyOf_iff_pairUnit :
    (pairUnit "a\x00b").Separable ∧ (pairUnit "a\x00c").Separable ∧
      keyOf (pairUnit "a\x00b") 2 = keyOf (pairUnit "a\x00c") 2 ∧
      keyOf (pairUnit "a\x00b") (-1) = keyOf (pairUnit "a\x00c") (-1) ∧
      (pairUnit "a\x00b").keyBytes 3 ≠ (pairUnit "a\x00c").keyBytes 3 := by
  have hseparable := separable_pairUnit
  refine ⟨hseparable _, hseparable _, ?_, ?_, fun hbytes ↦ ?_⟩
  · exact (keyOf_iff (hseparable _) (hseparable _) 2).2.1.2 (.inl ⟨rfl, rfl, rfl, by decide⟩)
  · exact (keyOf_iff (hseparable _) (hseparable _) (-1)).2.1.2 (.inl ⟨rfl, rfl, rfl, by decide⟩)
  · have hagree := (keyOf_iff (hseparable _) (hseparable _) 3).1.1 hbytes
    exact absurd hagree.content (by decide)

end Docwright
