import Docwright.Text.Utf8
import Mathlib.Data.List.Basic

/-!
# Reading back UTF-8

Bytes written by `encode` are read back as the text they were written from: `decode?_encode`. The
reader is a fold over single bytes, so the whole fact rests on one about single characters,
`foldl_step_encodeChar`: the bytes of a character take a reader between two characters back between
two characters, with exactly that character found.
-/

namespace Docwright.Text.Utf8

/-! ### Single bytes -/

theorem toNat_toUInt8_of_lt {n : Nat} (h : n < 256) : n.toUInt8.toNat = n := by
  rw [Nat.toUInt8_eq, UInt8.toNat_ofNat', Nat.mod_eq_of_lt h]

variable {found : List (Except Fault Char)}

/-- Between two characters the first byte decides alone. -/
theorem step_between {b : Nat} (hb : b < 256) :
    Reader.step ⟨found, .between⟩ b.toUInt8 = Reader.begin ⟨found, .between⟩ b := by
  rw [Reader.step, toNat_toUInt8_of_lt hb]

/-- A continuation byte that is not the last one adds its six bits. -/
theorem step_inside_succ {b need low high value : Nat} (hb : b < 256) (hlow : low ≤ b)
    (hhigh : b ≤ high) :
    Reader.step ⟨found, .inside (need + 1) low high value⟩ b.toUInt8
      = ⟨found, .inside need 0x80 0xBF (value * 64 + (b - 0x80))⟩ := by
  simp only [Reader.step, toNat_toUInt8_of_lt hb, hlow, hhigh, and_self, if_true]

/-- The last continuation byte ends the character. -/
theorem step_inside_zero {b low high value : Nat} (hb : b < 256) (hlow : low ≤ b)
    (hhigh : b ≤ high) :
    Reader.step ⟨found, .inside 0 low high value⟩ b.toUInt8
      = ⟨.ok (Char.ofNat (value * 64 + (b - 0x80))) :: found, .between⟩ := by
  simp only [Reader.step, toNat_toUInt8_of_lt hb, hlow, hhigh, and_self, if_true]

theorem begin_of_lt_two {b : Nat} (hb : b < 0x80) :
    Reader.begin ⟨found, .between⟩ b = ⟨.ok (Char.ofNat b) :: found, .between⟩ := by
  rw [Reader.begin, if_pos hb]

theorem begin_of_two {b : Nat} (hlow : 0xC2 ≤ b) (hhigh : b < 0xE0) :
    Reader.begin ⟨found, .between⟩ b = ⟨found, .inside 0 0x80 0xBF (b - 0xC0)⟩ := by
  rw [Reader.begin, if_neg (by omega), if_neg (by omega), if_pos hhigh]

theorem begin_of_three {b : Nat} (hlow : 0xE0 ≤ b) (hhigh : b < 0xF0) :
    Reader.begin ⟨found, .between⟩ b = ⟨found, .inside 1 (if b == 0xE0 then 0xA0 else 0x80)
      (if b == 0xED then 0x9F else 0xBF) (b - 0xE0)⟩ := by
  rw [Reader.begin, if_neg (by omega), if_neg (by omega), if_neg (by omega), if_pos hhigh]

theorem begin_of_four {b : Nat} (hlow : 0xF0 ≤ b) (hhigh : b < 0xF5) :
    Reader.begin ⟨found, .between⟩ b = ⟨found, .inside 2 (if b == 0xF0 then 0x90 else 0x80)
      (if b == 0xF4 then 0x8F else 0xBF) (b - 0xF0)⟩ := by
  rw [Reader.begin, if_neg (by omega), if_neg (by omega), if_neg (by omega), if_neg (by omega),
    if_pos hhigh]

/-! ### Single characters -/

/-- The code point of a character lies in one of the two ranges that UTF-8 can express. -/
theorem toNat_valid (c : Char) :
    c.toNat < 0xD800 ∨ (0xDFFF < c.toNat ∧ c.toNat < 0x110000) :=
  c.valid

/-- **The bytes of a character are read as that character.** The four cases are the four lengths of
a written character. In each the reader's bounds on the second byte are met because the code point
is that of a character. -/
theorem foldl_step_encodeChar (c : Char) :
    (encodeChar c).foldl Reader.step ⟨found, .between⟩ = ⟨.ok c :: found, .between⟩ := by
  have hvalid := toNat_valid c
  have hback : Char.ofNat c.toNat = c := Char.ofNat_toNat c
  rw [encodeChar]
  generalize c.toNat = n at hvalid hback
  by_cases h₁ : n < 0x80
  · simp only [h₁, if_true, List.foldl_cons, List.foldl_nil]
    rw [step_between (by omega), begin_of_lt_two h₁, hback]
  by_cases h₂ : n < 0x800
  · simp only [h₁, h₂, if_true, if_false, List.foldl_cons, List.foldl_nil]
    rw [step_between (by omega), begin_of_two (by omega) (by omega),
      step_inside_zero (by omega) (by omega) (by omega),
      show (0xC0 + n / 64 - 0xC0) * 64 + (0x80 + n % 64 - 0x80) = n by omega, hback]
  by_cases h₃ : n < 0x10000
  · simp only [h₁, h₂, h₃, if_true, if_false, List.foldl_cons, List.foldl_nil]
    rw [step_between (by omega), begin_of_three (by omega) (by omega),
      step_inside_succ (by omega) (by grind) (by grind),
      step_inside_zero (by omega) (by omega) (by omega),
      show ((0xE0 + n / 4096 - 0xE0) * 64 + (0x80 + n / 64 % 64 - 0x80)) * 64
        + (0x80 + n % 64 - 0x80) = n by omega, hback]
  · simp only [h₁, h₂, h₃, if_false, List.foldl_cons, List.foldl_nil]
    rw [step_between (by omega), begin_of_four (by omega) (by omega),
      step_inside_succ (by omega) (by grind) (by grind),
      step_inside_succ (by omega) (by omega) (by omega),
      step_inside_zero (by omega) (by omega) (by omega),
      show (((0xF0 + n / 262144 - 0xF0) * 64 + (0x80 + n / 4096 % 64 - 0x80)) * 64
        + (0x80 + n / 64 % 64 - 0x80)) * 64 + (0x80 + n % 64 - 0x80) = n by omega, hback]

/-! ### Whole texts -/

/-- The bytes of a text leave a reader between two characters, with the text found. -/
theorem foldl_step_encode (cs : List Char) (found : List (Except Fault Char)) :
    (encode cs).foldl Reader.step ⟨found, .between⟩
      = ⟨(cs.map Except.ok).reverse ++ found, .between⟩ := by
  induction cs generalizing found with
  | nil => rfl
  | cons c cs ih =>
    rw [encode, List.flatMap_cons, List.foldl_append, foldl_step_encodeChar, ← encode, ih,
      List.map_cons, List.reverse_cons, List.append_assoc, List.singleton_append]

theorem pieces_encode (cs : List Char) : pieces (encode cs) = cs.map Except.ok := by
  rw [pieces, foldl_step_encode, List.append_nil, Reader.finish, List.reverse_reverse]

/-- **What was written is read back**, whatever the text. -/
theorem decode?_encode (cs : List Char) : decode? (encode cs) = .ok cs := by
  have hfault : (cs.map Except.ok).findSome? faultOf? = none := by
    rw [List.findSome?_eq_none_iff]
    intro piece hpiece
    obtain ⟨c, -, rfl⟩ := List.mem_map.1 hpiece
    rfl
  have hchars : (cs.map Except.ok).filterMap charOf? = cs := by
    rw [List.filterMap_map]
    exact List.filterMap_some
  rw [decode?, pieces_encode]
  simp only [hfault, hchars]

theorem decode?_ofString (s : String) : decode? (ofString s) = .ok s.toList :=
  decode?_encode s.toList

end Docwright.Text.Utf8
