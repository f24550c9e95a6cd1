import Docwright.Number.Binary64
import Mathlib

/-!
# Real numbers in their format

Numbers are computed with in an unpacked form, of a sign, a significand and an exponent, and held as
bits. This module says what the two have to do with each other: which unpacked numbers are held at
all (`held_unpack`), that these are packed and unpacked without loss (`unpack_pack`), and that an
exponent which is too large gives infinity (`unpack_pack_of_overflow`). Taking a number apart by
whole-number arithmetic finds the same significand and exponent (`Shape.ofFloat_eq`).
-/

namespace Docwright.Number

open Float.Model Float.Model.UnpackedFloat

/-! ### Numbers that are held -/

/-- A significand and an exponent as the format has them: all 53 digits or, with the least exponent,
fewer. -/
structure Canonical (m : Nat) (e : Int) : Prop where
  lt : m < 2 ^ 53
  least : -1074 ≤ e
  full : 2 ^ 52 ≤ m ∨ e = -1074

/-- The unpacked numbers that the format holds. -/
inductive Held : UnpackedFloat → Prop
  | notANumber : Held .notANumber
  | infinity (s : Sign) : Held (.infinity s)
  | zero (s : Sign) : Held (.zero s)
  | finite (s : Sign) (m : Nat) (e : Int) (hm : 0 < m) (hcanonical : Canonical m e) (he : e ≤ 971) :
    Held (.finite s m e hm)

theorem toNat_unpackMantissa (b : BitVec 64) :
    (@unpackMantissa .binary64 b).toNat = b.toNat % 2 ^ 52 := by
  simp [unpackMantissa]

theorem toNat_unpackExponent (b : BitVec 64) :
    (@unpackExponent .binary64 b).toNat = b.toNat / 2 ^ 52 % 2048 := by
  simp [unpackExponent, Nat.shiftRight_eq_div_pow]

theorem toNat_unpackSign (b : BitVec 64) :
    (@unpackSign .binary64 b).toNat = b.toNat / 2 ^ 63 := by
  have hlt : b.toNat < 2 ^ 64 := b.isLt
  simp only [unpackSign, BitVec.toNat_cast, BitVec.extractLsb_toNat, Nat.shiftRight_eq_div_pow]
  omega

/-- The leading digit stands before the others. -/
theorem toNat_append_one (m : BitVec 52) : (1#1 ++ m).toNat = m.toNat + 2 ^ 52 := by
  rw [BitVec.toNat_append, ← Nat.shiftLeft_add_eq_or_of_lt m.isLt, Nat.add_comm]
  rfl

/-- What is added to an exponent when it is packed. -/
theorem exponentOffset_eq : (Format.binary64.exponentBias : Int) +
    Format.binary64.mantissaBitsWithoutImplicit = 1075 := rfl

/-- **What is unpacked from bits is held.** -/
theorem held_unpack (b : BitVec 64) : Held (UnpackedFloat.unpack .binary64 b) := by
  have hm : (@unpackMantissa .binary64 b).toNat < 2 ^ 52 := BitVec.isLt _
  have he : (@unpackExponent .binary64 b).toNat < 2 ^ 11 := BitVec.isLt _
  rw [UnpackedFloat.unpack]
  split
  · split
    · exact .infinity _
    · exact .notANumber
  rename_i hexponent
  split
  · split
    · exact .zero _
    · rename_i hzero _
      rw [hzero]
      rw [exponentOffset_eq]
      exact .finite _ _ _ _ ⟨by omega, by decide, .inr (by decide)⟩ (by decide)
  · rename_i hzero
    have hpos : (@unpackExponent .binary64 b).toNat ≠ 0 := fun h ↦
      hzero (BitVec.eq_of_toNat_eq h)
    have hmax : (@unpackExponent .binary64 b).toNat ≠ 2047 := fun h ↦
      hexponent (BitVec.eq_of_toNat_eq h)
    refine .finite _ _ _ _ ⟨?_, ?_, .inl ?_⟩ ?_
    · rw [toNat_append_one]
      omega
    · rw [exponentOffset_eq]
      omega
    · rw [toNat_append_one]
      omega
    · rw [exponentOffset_eq]
      omega

theorem finite_congr {s : Sign} {m m' : Nat} {e e' : Int} {hm : 0 < m} {hm' : 0 < m'} (h : m = m')
    (he : e = e') : UnpackedFloat.finite s m e hm = .finite s m' e' hm' := by
  subst h he
  rfl

/-- A number that has all its digits. -/
theorem unpack_of_normal {b : BitVec 64} (hpos : b.toNat / 2 ^ 52 % 2048 ≠ 0)
    (hmax : b.toNat / 2 ^ 52 % 2048 ≠ 2047) :
    UnpackedFloat.unpack .binary64 b
      = .finite (Sign.ofBitVec (@unpackSign .binary64 b)) (b.toNat % 2 ^ 52 + 2 ^ 52)
        ((b.toNat / 2 ^ 52 % 2048 : Nat) - 1075) (by omega) := by
  rw [← toNat_unpackExponent] at hpos hmax
  have hzero : @unpackExponent .binary64 b ≠ 0#11 := fun h ↦ hpos (by rw [h]; rfl)
  have hones : @unpackExponent .binary64 b ≠ -1#11 := fun h ↦ hmax (by rw [h]; rfl)
  rw [UnpackedFloat.unpack]
  dsimp only
  rw [if_neg hones, if_neg hzero]
  refine finite_congr ?_ ?_
  · rw [toNat_append_one, toNat_unpackMantissa]
  · rw [toNat_unpackExponent, exponentOffset_eq]

/-! ### Packing -/

/-- What the parts of a finite number are unpacked as. -/
theorem unpack_packComponents (s : Sign) {e : BitVec 11} (m : BitVec 52) (he : e ≠ -1#11) :
    UnpackedFloat.unpack .binary64 (packComponents .binary64 s e m)
      = if e = 0#11 then
          if h : m = 0#52 then .zero s
          else .finite s m.toNat (-1074) (by simpa [BitVec.toNat_pos, BitVec.pos_iff_ne_zero])
        else .finite s (m.toNat + 2 ^ 52) (e.toNat - 1075) (by omega) := by
  rw [UnpackedFloat.unpack]
  simp only [unpackMantissa_packComponents, unpackExponent_packComponents,
    unpackSign_packComponents, Sign.ofBitVec_toBitVec]
  rw [if_neg he]
  split
  · rename_i hzero
    split
    · rfl
    · exact finite_congr rfl (by rw [hzero, exponentOffset_eq]; rfl)
  · exact finite_congr (toNat_append_one m) (by rw [exponentOffset_eq])

/-- **Numbers that are held are packed and unpacked without loss.** -/
theorem unpack_pack {u : UnpackedFloat} (h : Held u) :
    UnpackedFloat.unpack .binary64 (UnpackedFloat.pack .binary64 u) = u := by
  cases h with
  | notANumber => rfl
  | infinity s => cases s <;> rfl
  | zero s => cases s <;> rfl
  | finite s m e hm hcanonical he =>
    obtain ⟨hlt, hleast, hfull⟩ := hcanonical
    have hbiased : e + (Format.binary64.exponentBias : Int) +
        Format.binary64.mantissaBitsWithoutImplicit = e + 1075 := by
      rw [Int.add_assoc, exponentOffset_eq]
    have hsmall : ¬2 ^ Format.binary64.exponentBits ≤ (e + 1075).toNat + 1 := by
      show ¬2048 ≤ _
      omega
    rw [UnpackedFloat.pack, hbiased]
    dsimp only
    rw [if_neg hsmall]
    by_cases hnormal : 2 ^ 52 ≤ m
    case pos =>
      have hlog : m.log2 + 1 = Format.binary64.mantissaBits := by
        show m.log2 + 1 = 53
        have hlow := (Nat.le_log2 hm.ne').2 hnormal
        have hhigh := (Nat.log2_lt hm.ne').2 hlt
        omega
      have hexponent : (BitVec.ofNat 11 (e + 1075).toNat).toNat = (e + 1075).toNat := by
        rw [BitVec.toNat_ofNat]
        omega
      have hmax : BitVec.ofNat 11 (e + 1075).toNat ≠ -1#11 := fun h ↦ by
        have hnat : (e + 1075).toNat = 2047 := hexponent.symm.trans (congrArg BitVec.toNat h)
        omega
      have hzero : BitVec.ofNat 11 (e + 1075).toNat ≠ 0#11 := fun h ↦ by
        have hnat : (e + 1075).toNat = 0 := hexponent.symm.trans (congrArg BitVec.toNat h)
        omega
      rw [if_pos hlog, unpack_packComponents s _ hmax, if_neg hzero]
      refine finite_congr ?_ ?_
      · rw [BitVec.toNat_ofNat]
        omega
      · rw [hexponent]
        omega
    case neg =>
      have hlog : ¬m.log2 + 1 = Format.binary64.mantissaBits := by
        show ¬m.log2 + 1 = 53
        have hhigh := (Nat.log2_lt hm.ne').2 (Nat.not_le.1 hnormal)
        omega
      have hmantissa : (BitVec.ofNat 52 m).toNat = m := by
        rw [BitVec.toNat_ofNat]
        omega
      have hne : BitVec.ofNat 52 m ≠ 0#52 := fun h ↦ by
        have hnat : m = 0 := hmantissa.symm.trans (congrArg BitVec.toNat h)
        omega
      rw [if_neg hlog, unpack_packComponents s _ (by decide), if_pos rfl, dif_neg hne]
      exact finite_congr hmantissa (hfull.resolve_left hnormal).symm

/-- **An exponent that is too large gives infinity.** -/
theorem unpack_pack_of_overflow {m : Nat} {e : Int} (s : Sign) (hm : 0 < m) (he : 971 < e) :
    UnpackedFloat.unpack .binary64 (UnpackedFloat.pack .binary64 (.finite s m e hm))
      = .infinity s := by
  have hpacked : UnpackedFloat.pack .binary64 (.finite s m e hm)
      = UnpackedFloat.pack .binary64 (.infinity s) := by
    rw [UnpackedFloat.pack, UnpackedFloat.pack]
    refine if_pos ?_
    rw [Int.add_assoc, exponentOffset_eq]
    show 2048 ≤ _
    omega
  rw [hpacked]
  exact unpack_pack (.infinity s)

/-! ### Taking numbers apart -/

/-- A number made of given bits is unpacked as the bits are. -/
theorem unpack_ofBits (bits : UInt64) :
    (Float.ofBits bits).toModel.unpack = UnpackedFloat.unpack .binary64 bits.toBitVec :=
  unpack_pack (held_unpack bits.toBitVec)

/-- An unpacked number taken apart. -/
def Shape.ofUnpacked : UnpackedFloat → Shape
  | .infinity s => .infinite (s == .negative)
  | .notANumber => .nan
  | .zero s => .finite (s == .negative) 0 (-1074)
  | .finite s m e _ => .finite (s == .negative) m e

/-- **Whole-number arithmetic on the bits of a number finds what it is unpacked as.** -/
theorem Shape.ofFloat_eq (x : Float) : Shape.ofFloat x = .ofUnpacked x.toModel.unpack := by
  let b : BitVec 64 := x.toBits.toBitVec
  have hm := toNat_unpackMantissa b
  have he := toNat_unpackExponent b
  have hs := toNat_unpackSign b
  have hsign : (b.toNat / 2 ^ 63 == 1) = (Sign.ofBitVec (@unpackSign .binary64 b) ==
      .negative) := by
    rw [← hs]
    generalize @unpackSign .binary64 b = sign
    decide +revert
  have hunpack : x.toModel.unpack = UnpackedFloat.unpack .binary64 b := rfl
  have hbits : x.toBits.toNat = b.toNat := rfl
  have hmax : (@unpackExponent .binary64 b = -1#11) ↔ b.toNat / 2 ^ 52 % 2048 = 2047 := by
    rw [← BitVec.toNat_inj, he]
    rfl
  have hleast : (@unpackExponent .binary64 b = 0#11) ↔ b.toNat / 2 ^ 52 % 2048 = 0 := by
    rw [← BitVec.toNat_inj, he]
    rfl
  have hzero : (@unpackMantissa .binary64 b = 0#52) ↔ b.toNat % 2 ^ 52 = 0 := by
    rw [← BitVec.toNat_inj, hm]
    rfl
  have hfull : fullSignificand = 2 ^ 52 := rfl
  have hweight : signBit = 2 ^ 63 := rfl
  rw [hunpack, UnpackedFloat.unpack, Shape.ofFloat, hbits, hfull, hweight, hsign]
  dsimp only
  by_cases hexponent : b.toNat / 2 ^ 52 % 2048 = 2047
  case pos =>
    rw [if_pos (beq_iff_eq.2 hexponent), if_pos (hmax.2 hexponent)]
    by_cases hfraction : b.toNat % 2 ^ 52 = 0
    · rw [if_pos (beq_iff_eq.2 hfraction), if_pos (hzero.2 hfraction)]
      rfl
    · rw [if_neg (mt beq_iff_eq.1 hfraction), if_neg (mt hzero.1 hfraction)]
      rfl
  case neg =>
    rw [if_neg (mt beq_iff_eq.1 hexponent), if_neg (mt hmax.1 hexponent)]
    by_cases hsubnormal : b.toNat / 2 ^ 52 % 2048 = 0
    case pos =>
      rw [if_pos (beq_iff_eq.2 hsubnormal), if_pos (hleast.2 hsubnormal)]
      by_cases hfraction : b.toNat % 2 ^ 52 = 0
      · rw [dif_pos (hzero.2 hfraction), hfraction]
        rfl
      · rw [dif_neg (mt hzero.1 hfraction), ofUnpacked, hm, he, hsubnormal, exponentOffset_eq]
        rfl
    case neg =>
      rw [if_neg (mt beq_iff_eq.1 hsubnormal), if_neg (mt hleast.1 hsubnormal), ofUnpacked,
        toNat_append_one, hm, he, exponentOffset_eq]

end Docwright.Number
