import Docwright.Proofs.Text.Utf8
import Mathlib.Data.List.Induction

/-!
# Bytes that are read as a text

Only the bytes of a text are read as a text (`decode?_eq_ok_iff`), so bytes that are refused are
the bytes of no text. The reader looks at one byte at a time; what it has to keep to is that the
bytes so far are those of the characters found, and inside a character those of its beginning
(`Mirrors`). What a beginning is, is said by what may come after it (`Begins`): bytes within the
bounds that the reader sets make it the bytes of a character.
-/

namespace Docwright.Text.Utf8

variable {found : List (Except Fault Char)} {bytes : List UInt8} {cs : List Char}

/-- The bytes `seen` are the beginning of a character: `need + 1` more, the first of them between
`low` and `high`, make them the bytes of the character whose bits they add up to. -/
def Begins : Nat → Nat → Nat → Nat → List UInt8 → Prop
  | 0, low, high, value, seen => ∀ b : UInt8, low ≤ b.toNat → b.toNat ≤ high →
    encodeChar (Char.ofNat (value * 64 + (b.toNat - 0x80))) = seen ++ [b]
  | need + 1, low, high, value, seen => ∀ b : UInt8, low ≤ b.toNat → b.toNat ≤ high →
    Begins need 0x80 0xBF (value * 64 + (b.toNat - 0x80)) (seen ++ [b])

/-- The bytes are those of what a reader has found, as long as it has found no fault. -/
def Mirrors (r : Reader) (bytes : List UInt8) : Prop :=
  ∀ cs : List Char, r.found = (cs.map Except.ok).reverse →
    match r.state with
    | .between => bytes = encode cs
    | .inside need low high value =>
      ∃ seen, bytes = encode cs ++ seen ∧ Begins need low high value seen

/-! ### The first byte of a character -/

theorem toUInt8_eq {n : Nat} {b : UInt8} (h : n = b.toNat) : n.toUInt8 = b := by
  rw [h, Nat.toUInt8_eq, UInt8.ofNat_toNat]

theorem toNat_ofNat_of_valid {n : Nat} (h : n.isValidChar) : (Char.ofNat n).toNat = n := by
  rw [Char.ofNat, dif_pos h]
  rfl

theorem encodeChar_one (b : UInt8) (h : b.toNat < 0x80) :
    encodeChar (Char.ofNat b.toNat) = [b] := by
  rw [encodeChar, toNat_ofNat_of_valid (.inl (by omega))]
  simp [h]

theorem begins_two (b : UInt8) (hlow : 0xC2 ≤ b.toNat) (hhigh : b.toNat < 0xE0) :
    Begins 0 0x80 0xBF (b.toNat - 0xC0) [b] := by
  intro c hc hc'
  rw [encodeChar, toNat_ofNat_of_valid (.inl (by omega)), if_neg (by omega), if_pos (by omega),
    toUInt8_eq (b := b) (by omega), toUInt8_eq (b := c) (by omega)]
  rfl

theorem begins_three (b : UInt8) (hlow : 0xE0 ≤ b.toNat) (hhigh : b.toNat < 0xF0) :
    Begins 1 (if b.toNat == 0xE0 then 0xA0 else 0x80) (if b.toNat == 0xED then 0x9F else 0xBF)
      (b.toNat - 0xE0) [b] := by
  intro c hc hc' d hd hd'
  simp only [beq_iff_eq] at hc hc'
  have hvalid : (((b.toNat - 0xE0) * 64 + (c.toNat - 0x80)) * 64 +
      (d.toNat - 0x80)).isValidChar := by
    unfold Nat.isValidChar
    split at hc <;> split at hc' <;> omega
  have hlong : 0x800 ≤ ((b.toNat - 0xE0) * 64 + (c.toNat - 0x80)) * 64 + (d.toNat - 0x80) := by
    split at hc <;> omega
  rw [encodeChar, toNat_ofNat_of_valid hvalid]
  have hc : 0x80 ≤ c.toNat ∧ c.toNat ≤ 0xBF := by
    split at hc <;> split at hc' <;> omega
  rw [if_neg (by omega), if_neg (by omega), if_pos (by omega), toUInt8_eq (b := b) (by omega),
    toUInt8_eq (b := c) (by omega), toUInt8_eq (b := d) (by omega)]
  rfl

theorem begins_four (b : UInt8) (hlow : 0xF0 ≤ b.toNat) (hhigh : b.toNat < 0xF5) :
    Begins 2 (if b.toNat == 0xF0 then 0x90 else 0x80) (if b.toNat == 0xF4 then 0x8F else 0xBF)
      (b.toNat - 0xF0) [b] := by
  intro c hc hc' d hd hd' e he he'
  simp only [beq_iff_eq] at hc hc'
  have hvalid : ((((b.toNat - 0xF0) * 64 + (c.toNat - 0x80)) * 64 + (d.toNat - 0x80)) * 64 +
      (e.toNat - 0x80)).isValidChar := by
    unfold Nat.isValidChar
    split at hc <;> split at hc' <;> omega
  have hlong : 0x10000 ≤ (((b.toNat - 0xF0) * 64 + (c.toNat - 0x80)) * 64 +
      (d.toNat - 0x80)) * 64 + (e.toNat - 0x80) := by
    split at hc <;> omega
  rw [encodeChar, toNat_ofNat_of_valid hvalid]
  have hc : 0x80 ≤ c.toNat ∧ c.toNat ≤ 0xBF := by
    split at hc <;> split at hc' <;> omega
  rw [if_neg (by omega), if_neg (by omega), if_neg (by omega), toUInt8_eq (b := b) (by omega),
    toUInt8_eq (b := c) (by omega), toUInt8_eq (b := d) (by omega), toUInt8_eq (b := e) (by omega)]
  rfl

/-! ### Steps of the reader -/

theorem error_cons_ne (fault : Fault) (found : List (Except Fault Char)) (cs : List Char) :
    Except.error fault :: found ≠ (cs.map Except.ok).reverse := by
  intro h
  have hmem : Except.error fault ∈ (cs.map Except.ok).reverse := h ▸ List.mem_cons_self
  obtain ⟨c, -, hc⟩ := List.mem_map.mp (List.mem_reverse.mp hmem)
  cases hc

theorem exists_of_ok_cons {c : Char} (h : Except.ok c :: found = (cs.map Except.ok).reverse) :
    ∃ front, cs = front ++ [c] ∧ found = (front.map Except.ok).reverse := by
  rw [← List.map_reverse] at h
  obtain ⟨d, rest, hsplit, hd, hrest⟩ := List.map_eq_cons_iff.mp h.symm
  cases hd
  refine ⟨rest.reverse, ?_, ?_⟩
  · rw [← List.reverse_cons, ← hsplit, List.reverse_reverse]
  · rw [← hrest, List.map_reverse, List.reverse_reverse]

/-- A reader that has found a fault mirrors anything. -/
theorem mirrors_of_fault (fault : Fault) (s : State) :
    Mirrors ⟨.error fault :: found, s⟩ bytes :=
  fun cs h ↦ absurd h (error_cons_ne fault found cs)

theorem Mirrors.begin (h : Mirrors ⟨found, .between⟩ bytes) (b : UInt8) :
    Mirrors (Reader.begin ⟨found, .between⟩ b.toNat) (bytes ++ [b]) := by
  have hinside {need low high value : Nat} (hb : Begins need low high value [b]) :
      Mirrors ⟨found, .inside need low high value⟩ (bytes ++ [b]) :=
    fun cs hfound ↦ ⟨[b], by rw [h cs hfound], hb⟩
  have hb := b.toNat_lt
  unfold Reader.begin
  split
  case isTrue hone =>
    intro cs hfound
    obtain ⟨front, rfl, hfront⟩ := exists_of_ok_cons hfound
    show bytes ++ [b] = encode (front ++ [Char.ofNat b.toNat])
    rw [h front hfront, encode, encode, List.flatMap_append, List.flatMap_singleton,
      encodeChar_one b hone]
  split
  case isTrue => exact mirrors_of_fault _ _
  split
  case isTrue htwo => exact hinside (begins_two b (by omega) htwo)
  split
  case isTrue hthree => exact hinside (begins_three b (by omega) hthree)
  split
  case isTrue hfour => exact hinside (begins_four b (by omega) hfour)
  case isFalse => exact mirrors_of_fault _ _

theorem Mirrors.step {r : Reader} (h : Mirrors r bytes) (b : UInt8) :
    Mirrors (r.step b) (bytes ++ [b]) := by
  obtain ⟨found, state⟩ := r
  cases state with
  | between => exact h.begin b
  | inside need low high value =>
    unfold Reader.step
    dsimp only
    split
    case isTrue hb =>
      cases need with
      | zero =>
        intro cs hfound
        obtain ⟨front, rfl, hfront⟩ := exists_of_ok_cons hfound
        obtain ⟨seen, hbytes, hseen⟩ := h front hfront
        show bytes ++ [b] = encode (front ++ [Char.ofNat (value * 64 + (b.toNat - 0x80))])
        rw [hbytes, encode, encode, List.flatMap_append, List.flatMap_singleton,
          hseen b hb.1 hb.2, List.append_assoc]
      | succ need =>
        intro cs hfound
        obtain ⟨seen, hbytes, hseen⟩ := h cs hfound
        exact ⟨seen ++ [b], by rw [hbytes, List.append_assoc], hseen b hb.1 hb.2⟩
    case isFalse => exact Mirrors.begin (mirrors_of_fault _ _) b

/-! ### Whole texts -/

theorem mirrors_foldl (bytes : List UInt8) :
    Mirrors (bytes.foldl Reader.step ⟨[], .between⟩) bytes := by
  induction bytes using List.reverseRecOn with
  | nil =>
    intro cs hfound
    have hcs : cs = [] := by simpa using hfound
    rw [hcs]
    rfl
  | append_singleton bytes b ih =>
    rw [List.foldl_append]
    exact ih.step b

/-- Pieces without a fault are characters. -/
theorem eq_map_ok_of_faultless {pieces : List (Except Fault Char)}
    (h : pieces.findSome? faultOf? = none) : pieces = (pieces.filterMap charOf?).map Except.ok := by
  rw [List.findSome?_eq_none_iff] at h
  induction pieces with
  | nil => rfl
  | cons piece pieces ih =>
    have hrest := ih fun p hp ↦ h p (List.mem_cons_of_mem _ hp)
    cases piece with
    | error fault => cases h _ List.mem_cons_self
    | ok c => exact congrArg (Except.ok c :: ·) hrest

theorem encode_of_decode? : decode? bytes = .ok cs → encode cs = bytes := by
  have hmirrors := mirrors_foldl bytes
  unfold decode? pieces
  generalize bytes.foldl Reader.step ⟨[], .between⟩ = r at hmirrors
  obtain ⟨found, state⟩ := r
  dsimp only
  split
  case h_1 => exact nofun
  case h_2 hfaultless =>
    rintro ⟨⟩
    have hok := eq_map_ok_of_faultless hfaultless
    cases state with
    | between => exact (hmirrors _ (by rw [← hok]; simp [Reader.finish])).symm
    | inside need low high value => simp [Reader.finish, faultOf?] at hfaultless

/-- **The bytes that are read as a text are the bytes of that text**, and no others. -/
theorem decode?_eq_ok_iff : decode? bytes = .ok cs ↔ bytes = encode cs :=
  ⟨fun h ↦ (encode_of_decode? h).symm, fun h ↦ h ▸ decode?_encode cs⟩

/-- The byte `0x80` alone continues a character that was never begun. -/
theorem stray_byte_ne_encode (cs : List Char) : [0x80] ≠ encode cs := by
  intro hcs
  have hdecode := decode?_eq_ok_iff.mpr hcs
  have hfault : decode? [0x80] = .error .invalidStart := by decide
  cases hfault.symm.trans hdecode

/-- Different texts have different bytes. -/
theorem encode_injective : Function.Injective encode := by
  intro cs ds h
  have hread := decode?_encode cs
  rw [h, decode?_encode] at hread
  exact (Except.ok.inj hread).symm

end Docwright.Text.Utf8
