import Docwright.Json.Printer
import Docwright.Json.Reader
import Mathlib.Data.List.Basic

/-!
# Texts are read back as they are written

A text value is written character by character, so it is enough to read one character back
(`readText_showChar`); the rest is induction over the text (`readText_showText`). There are four
kinds of characters: those with an escape of one letter, those that stand for themselves, those of
the basic plane that are written by their number, and those beyond it, which take two escapes that
must be put together again.
-/

namespace Docwright.Json

open Text

/-! ### Hexadecimal digits -/

theorem hexDigit?_hexDigit {k : Nat} (h : k < 16) : hexDigit? (hexDigit k) = some k := by
  have hall : ∀ k < 16, hexDigit? (hexDigit k) = some k := by decide
  exact hall k h

/-- The four digits of a unit. -/
theorem hexDigits_four (n : Nat) :
    hexDigits 4 n
      = [hexDigit (n / 4096 % 16), hexDigit (n / 256 % 16), hexDigit (n / 16 % 16),
        hexDigit (n % 16)] := by
  simp [hexDigits, List.range_succ]

/-- Four digits stand for the number that they were made of. -/
theorem hexOf?_hexDigit {n : Nat} (h : n < 65536) :
    hexOf? (hexDigit (n / 4096 % 16)) (hexDigit (n / 256 % 16)) (hexDigit (n / 16 % 16))
      (hexDigit (n % 16)) = some n := by
  have hvalue : ((n / 4096 % 16 * 16 + n / 256 % 16) * 16 + n / 16 % 16) * 16 + n % 16 = n := by
    omega
  simp only [hexOf?, hexDigit?_hexDigit (Nat.mod_lt _ (by decide : 0 < 16)), Option.bind_eq_bind,
    Option.bind_some, hvalue]
  rfl

/-! ### Units -/

theorem unitEscape_append (n : Nat) (tail : List Char) :
    unitEscape n ++ tail
      = '\\' :: 'u' :: hexDigit (n / 4096 % 16) :: hexDigit (n / 256 % 16) :: hexDigit (n / 16 % 16)
        :: hexDigit (n % 16) :: tail := by
  rw [unitEscape, hexDigits_four]
  rfl

theorem pairAfter?_of_not_high {n : Nat} (h : isHighHalf n = false) (cs : List Char) :
    pairAfter? n cs = .ok none := by
  unfold pairAfter?
  split
  · rw [h]
    rfl
  · rfl

/-- A unit that is no half of a character is read as its character. -/
theorem readText_unitEscape {n : Nat} (hn : n < 65536) (hhigh : isHighHalf n = false)
    (hlow : isLowHalf n = false) (opening : Nat) (found : List Char) {tail : List Char}
    (htail : tail ≠ []) :
    readText opening found (unitEscape n ++ tail)
      = readText opening (Char.ofNat n :: found) tail := by
  obtain ⟨after, rest, rfl⟩ := List.exists_cons_of_ne_nil htail
  rw [unitEscape_append, readText]
  simp only [hexOf?_hexDigit hn, pairAfter?_of_not_high hhigh, unitChar, hhigh, hlow, Bool.or_self,
    Bool.false_eq_true, if_false]

/-- **Two halves are put together again.** -/
theorem readText_pair {high low : Nat} (hhigh : isHighHalf high = true)
    (hlow : isLowHalf low = true) (opening : Nat) (found : List Char) {tail : List Char}
    (htail : tail ≠ []) :
    readText opening found (unitEscape high ++ (unitEscape low ++ tail))
      = readText opening
        (Char.ofNat (0x10000 + (high - 0xD800) * 0x400 + (low - 0xDC00)) :: found) tail := by
  obtain ⟨after, rest, rfl⟩ := List.exists_cons_of_ne_nil htail
  have hsmall : high < 65536 := by
    have := of_decide_eq_true hhigh
    omega
  have hsmall' : low < 65536 := by
    have := of_decide_eq_true hlow
    omega
  have hpair : pairAfter? high (unitEscape low ++ after :: rest)
      = .ok (some (Char.ofNat (0x10000 + (high - 0xD800) * 0x400 + (low - 0xDC00)))) := by
    rw [unitEscape_append, pairAfter?]
    simp only [hhigh, hexOf?_hexDigit hsmall', hlow, if_true]
  rw [unitEscape_append low] at hpair ⊢
  rw [unitEscape_append, readText]
  simp only [hexOf?_hexDigit hsmall, hpair, List.drop_succ_cons, List.drop_zero]

/-! ### Characters -/

/-- A character is no half of one. -/
theorem isHalf_toNat (c : Char) : isHighHalf c.toNat = false ∧ isLowHalf c.toNat = false := by
  have hvalid : c.toNat < 0xD800 ∨ 0xDFFF < c.toNat ∧ c.toNat < 0x110000 := c.valid
  refine ⟨decide_eq_false ?_, decide_eq_false ?_⟩
  · omega
  · omega

/-- An escape of one letter is read as the character it stands for. -/
theorem readText_letter {letter c : Char} (h : escapeOf? letter = some c) (opening : Nat)
    (found tail : List Char) :
    readText opening found ('\\' :: letter :: tail) = readText opening (c :: found) tail := by
  have hu : letter ≠ 'u' := by
    rintro rfl
    cases h
  rw [readText]
  · simp only [h]
  · intro a b c d after rest hletter
    exact absurd hletter hu

/-- A character that needs no escape is read as itself. -/
theorem readText_plain {c : Char} (hquote : c ≠ '"') (hslash : c ≠ '\\') (hle : 0x20 ≤ c.toNat)
    (opening : Nat) (found tail : List Char) :
    readText opening found (c :: tail) = readText opening (c :: found) tail := by
  rw [readText]
  · rw [if_neg (by omega)]
  -- the other ways to read it start with a quote or a backslash
  · exact hquote
  · exact fun h _ ↦ hslash h
  · exact fun _ _ _ _ _ _ h _ ↦ hslash h
  · exact fun _ _ h _ ↦ hslash h

/-- **A character is read back as it is written**, when something follows it. -/
theorem readText_showChar (opening : Nat) (found : List Char) (c : Char) {tail : List Char}
    (htail : tail ≠ []) :
    readText opening found (showChar c ++ tail) = readText opening (c :: found) tail := by
  obtain ⟨hhigh, hlow⟩ := isHalf_toNat c
  unfold showChar
  split
  case h_8 hquote hslash _ _ _ _ _ =>
    simp only
    split
    · rename_i hplain
      exact readText_plain hquote hslash hplain.1 opening found tail
    · split
      · rename_i hbasic
        rw [readText_unitEscape hbasic hhigh hlow opening found htail, Char.ofNat_toNat]
      · rename_i hbeyond
        have hvalid : c.toNat < 0xD800 ∨ 0xDFFF < c.toNat ∧ c.toNat < 0x110000 := c.valid
        have hhalf : isHighHalf (0xD800 + (c.toNat - 0x10000) / 0x400) = true :=
          decide_eq_true (by omega)
        have hhalf' : isLowHalf (0xDC00 + (c.toNat - 0x10000) % 0x400) = true :=
          decide_eq_true (by omega)
        have hwhole : 0x10000 + (0xD800 + (c.toNat - 0x10000) / 0x400 - 0xD800) * 0x400
            + (0xDC00 + (c.toNat - 0x10000) % 0x400 - 0xDC00) = c.toNat := by
          omega
        rw [List.append_assoc, readText_pair hhalf hhalf' opening found htail, hwhole,
          Char.ofNat_toNat]
  all_goals exact readText_letter rfl opening found tail

/-- **A text value is read back as it is written.** -/
theorem readText_showText (opening : Nat) (found cs tail : List Char) :
    readText opening found (cs.flatMap showChar ++ '"' :: tail)
      = .ok (String.ofList (found.reverse ++ cs), tail) := by
  induction cs generalizing found with
  | nil =>
    rw [List.flatMap_nil, List.nil_append, readText, List.append_nil]
  | cons c cs ih =>
    have htail : cs.flatMap showChar ++ '"' :: tail ≠ [] := by simp
    rw [List.flatMap_cons, List.append_assoc, readText_showChar opening found c htail, ih]
    simp

end Docwright.Json
