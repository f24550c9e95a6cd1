import Docwright.Proofs.Number.Format
import Docwright.Proofs.Number.Range

/-!
# Lengths that are doubled

A length is a finite number that is not negative. It is made of a whole number of the least units
there are (`units`), and lengths are compared as these numbers are (`lt_iff_units_lt`). Multiplying
a length by a power of two multiplies its units, without any rounding, because the digits stay and
only the exponent grows. Where that becomes too large the product is infinite, and it would have had
more units than any length (`IsLength.mul_twoPow`).
-/

namespace Docwright.Number

open Float.Model Float.Model.UnpackedFloat

variable {m m' k : Nat} {e e' : Int}

/-! ### Units -/

/-- How many units of `2 ^ -1074` a finite number is away from zero. -/
def Shape.units : Shape → Nat
  | .finite _ m e => m * 2 ^ (e + 1074).toNat
  | _ => 0

/-- How many units of `2 ^ -1074` a finite number is away from zero. -/
def units (x : Float) : Nat :=
  (Shape.ofFloat x).units

/-- A finite number that is not negative. -/
structure IsLength (x : Float) : Prop where
  finite : x.isFinite = true
  nonneg : 0 ≤ x

/-- Lengths as they are unpacked. -/
theorem isLength_iff {x : Float} : IsLength x ↔ (∃ s, x.toModel.unpack = .zero s) ∨
    ∃ m e hm, x.toModel.unpack = .finite .positive m e hm := by
  have hfinite : x.isFinite = x.toModel.unpack.isFinite := rfl
  have hnonneg : 0 ≤ x ↔ UnpackedFloat.le (.zero .positive) x.toModel.unpack = true :=
    decide_eq_true_iff
  constructor
  · rintro ⟨hx, hle⟩
    rw [hfinite] at hx
    rw [hnonneg] at hle
    cases hunpack : x.toModel.unpack with
    | infinity s =>
      rw [hunpack] at hx
      cases hx
    | notANumber =>
      rw [hunpack] at hx
      cases hx
    | zero s => exact .inl ⟨s, rfl⟩
    | finite s m e hm =>
      cases s with
      | negative =>
        rw [hunpack] at hle
        cases hle
      | positive => exact .inr ⟨m, e, hm, rfl⟩
  · rintro (⟨s, hunpack⟩ | ⟨m, e, hm, hunpack⟩)
    · refine ⟨?_, ?_⟩
      · rw [hfinite, hunpack]
        rfl
      · rw [hnonneg, hunpack]
        rfl
    · refine ⟨?_, ?_⟩
      · rw [hfinite, hunpack]
        rfl
      · rw [hnonneg, hunpack]
        rfl

/-- What is unpacked from a number is in the form of the format. -/
theorem canonical_of_unpack {x : Float} {s : Sign} {hm : 0 < m}
    (h : x.toModel.unpack = .finite s m e hm) : Canonical m e ∧ e ≤ 971 := by
  have hheld : Held x.toModel.unpack := held_unpack _
  rw [h] at hheld
  cases hheld with
  | finite _ _ _ _ hcanonical he => exact ⟨hcanonical, he⟩

theorem units_of_zero {x : Float} {s : Sign} (h : x.toModel.unpack = .zero s) : units x = 0 := by
  rw [units, Shape.ofFloat_eq, h, Shape.ofUnpacked, Shape.units, Nat.zero_mul]

theorem units_of_finite {x : Float} {s : Sign} {hm : 0 < m}
    (h : x.toModel.unpack = .finite s m e hm) : units x = m * 2 ^ (e + 1074).toNat := by
  rw [units, Shape.ofFloat_eq, h, Shape.ofUnpacked, Shape.units]

/-! ### Order -/

theorem Canonical.units_lt_pow {n : Nat} (h : Canonical m e) (hn : e + 1074 < n) :
    m * 2 ^ (e + 1074).toNat < 2 ^ 52 * 2 ^ n := by
  have hnext : (e + 1074).toNat + 1 ≤ n := by
    have hleast := h.least
    omega
  calc m * 2 ^ (e + 1074).toNat
      < 2 ^ 53 * 2 ^ (e + 1074).toNat := Nat.mul_lt_mul_of_pos_right h.lt (Nat.two_pow_pos _)
    _ = 2 ^ 52 * 2 ^ ((e + 1074).toNat + 1) := by ring
    _ ≤ 2 ^ 52 * 2 ^ n := Nat.mul_le_mul_left _ (Nat.pow_le_pow_right (by decide) hnext)

theorem Canonical.pow_le_units {n : Nat} (h : Canonical m e) (hn : n ≤ e + 1074)
    (hpos : -1074 < e) : 2 ^ 52 * 2 ^ n ≤ m * 2 ^ (e + 1074).toNat := by
  have hfull : 2 ^ 52 ≤ m := h.full.resolve_right (by omega)
  calc 2 ^ 52 * 2 ^ n
      ≤ 2 ^ 52 * 2 ^ (e + 1074).toNat :=
        Nat.mul_le_mul_left _ (Nat.pow_le_pow_right (by decide) (by omega))
    _ ≤ m * 2 ^ (e + 1074).toNat := Nat.mul_le_mul_right _ hfull

theorem Canonical.units_lt (h : Canonical m e) (h' : Canonical m' e') (hlt : e < e') :
    m * 2 ^ (e + 1074).toNat < m' * 2 ^ (e' + 1074).toNat := by
  have hleast := h.least
  exact (h.units_lt_pow (n := (e' + 1074).toNat) (by omega)).trans_le
    (h'.pow_le_units (by omega) (by omega))

/-- **Comparing exponents and then significands compares the units.** -/
theorem Canonical.compare_eq (h : Canonical m e) (h' : Canonical m' e') :
    (compare e e').then (compare m m')
      = compare (m * 2 ^ (e + 1074).toNat) (m' * 2 ^ (e' + 1074).toNat) := by
  rcases Int.lt_trichotomy e e' with hlt | rfl | hgt
  · rw [Int.compare_eq_lt.2 hlt, Nat.compare_eq_lt.2 (h.units_lt h' hlt)]
    rfl
  · have hpos : 0 < 2 ^ (e + 1074).toNat := Nat.two_pow_pos _
    rw [Int.compare_eq_eq.2 rfl]
    rcases Nat.lt_trichotomy m m' with hlt | rfl | hgt
    · rw [Nat.compare_eq_lt.2 hlt, Nat.compare_eq_lt.2 (Nat.mul_lt_mul_of_pos_right hlt hpos)]
      rfl
    · rw [Nat.compare_eq_eq.2 rfl, Nat.compare_eq_eq.2 rfl]
      rfl
    · rw [Nat.compare_eq_gt.2 hgt, Nat.compare_eq_gt.2 (Nat.mul_lt_mul_of_pos_right hgt hpos)]
      rfl
  · rw [Int.compare_eq_gt.2 hgt, Nat.compare_eq_gt.2 (h'.units_lt h hgt)]
    rfl

theorem compare_unpack {x y : Float} (hx : IsLength x) (hy : IsLength y) :
    x.toModel.unpack.compare y.toModel.unpack = some (compare (units x) (units y)) := by
  have hpos {m : Nat} (e : Int) (hm : 0 < m) : 0 < m * 2 ^ (e + 1074).toNat :=
    Nat.mul_pos hm (Nat.two_pow_pos _)
  rcases isLength_iff.1 hx with ⟨s, hs⟩ | ⟨m, e, hm, hfinite⟩
  · rcases isLength_iff.1 hy with ⟨s', hs'⟩ | ⟨m', e', hm', hfinite'⟩
    · rw [units_of_zero hs, units_of_zero hs', hs, hs']
      rfl
    · rw [units_of_zero hs, units_of_finite hfinite', hs, hfinite',
        Nat.compare_eq_lt.2 (hpos e' hm')]
      rfl
  · rcases isLength_iff.1 hy with ⟨s', hs'⟩ | ⟨m', e', hm', hfinite'⟩
    · rw [units_of_finite hfinite, units_of_zero hs', hs', hfinite,
        Nat.compare_eq_gt.2 (hpos e hm)]
      rfl
    · rw [units_of_finite hfinite, units_of_finite hfinite', hfinite, hfinite',
        ← (canonical_of_unpack hfinite).1.compare_eq (canonical_of_unpack hfinite').1]
      rfl

theorem lt_iff_compare {x y : Float} :
    x < y ↔ x.toModel.unpack.compare y.toModel.unpack = some .lt := by
  show decide _ = true ↔ _
  rw [decide_eq_true_iff]
  exact beq_iff_eq

/-- **Lengths are compared as their numbers of units are.** -/
theorem lt_iff_units_lt {x y : Float} (hx : IsLength x) (hy : IsLength y) :
    x < y ↔ units x < units y := by
  rw [lt_iff_compare, compare_unpack hx hy, Option.some_inj, Nat.compare_eq_lt]

theorem le_iff_units_le {x y : Float} (hx : IsLength x) (hy : IsLength y) :
    x ≤ y ↔ units x ≤ units y := by
  show decide _ = true ↔ _
  rw [decide_eq_true_iff]
  show Option.any _ (UnpackedFloat.compare _ _) = true ↔ _
  rw [compare_unpack hx hy, Option.any_some, Nat.isLE_compare]

/-- A number whose exponent is too large would be beyond all lengths. -/
theorem Canonical.units_lt_of_overflow {x : Float} (h : Canonical m e) (he : 971 < e)
    (hx : IsLength x) : units x < m * 2 ^ (e + 1074).toNat := by
  rcases isLength_iff.1 hx with ⟨s, hs⟩ | ⟨m', e', hm', hfinite⟩
  · have hfull : 2 ^ 52 ≤ m := h.full.resolve_right (by omega)
    rw [units_of_zero hs]
    exact Nat.mul_pos (by omega) (Nat.two_pow_pos _)
  · obtain ⟨hcanonical, hbound⟩ := canonical_of_unpack hfinite
    rw [units_of_finite hfinite]
    exact hcanonical.units_lt h (by omega)

/-! ### Powers of two -/

/-- The bits of a power of two: its significand is the least one with all digits. -/
theorem nearestBits_twoPow (h : k < 1024) : nearestBits (Nat.pow 2 k) 1 = (k + 1023) * 2 ^ 52 := by
  have hne : Nat.pow 2 k ≠ 0 := (Nat.two_pow_pos k).ne'
  have hexponent : exponentOf (Nat.pow 2 k) = k - 52 := by
    rw [exponentOf, show Nat.pow 2 k = 2 ^ k from rfl, Nat.log2_two_pow]
  have hpower : (powerOfTwo (k - 52)).1 * 2 ^ 52 = (powerOfTwo (k - 52)).2 * 2 ^ k :=
    powerOfTwo_mul (by omega)
  have hsignificand : significandOf (Nat.pow 2 k) = fullSignificand := by
    rw [significandOf, hexponent, show Nat.pow 2 k = 2 ^ k from rfl, Nat.mul_comm, ← hpower]
    exact le_antisymm (roundDiv_le le_rfl (powerOfTwo_pos _))
      (le_roundDiv le_rfl (powerOfTwo_pos _))
  have hsmall : fullSignificand < 2 * fullSignificand := by decide
  have hbiased : ((k : Int) - 52 + 1075).toNat = k + 1023 := by omega
  rw [nearestBits_eq hne, hexponent, hsignificand, if_pos hsmall, if_neg (by omega), hbiased,
    Nat.sub_self, Nat.add_zero]
  rfl

theorem unpack_nearest_twoPow (h : k < 1024) :
    (nearest false (Nat.pow 2 k) 1).toModel.unpack
      = .finite .positive (2 ^ 52) (k - 52) (Nat.two_pow_pos 52) := by
  have hbits : (UInt64.ofNat ((k + 1023) * 2 ^ 52)).toBitVec.toNat = (k + 1023) * 2 ^ 52 := by
    show (UInt64.ofNat _).toNat = _
    rw [UInt64.toNat_ofNat_of_lt']
    show _ < 2 ^ 64
    omega
  have hexponent : (UInt64.ofNat ((k + 1023) * 2 ^ 52)).toBitVec.toNat / 2 ^ 52 % 2048
      = k + 1023 := by
    rw [hbits]
    omega
  have hsign : @unpackSign .binary64 (UInt64.ofNat ((k + 1023) * 2 ^ 52)).toBitVec
      = 0#1 := by
    refine BitVec.eq_of_toNat_eq ?_
    rw [toNat_unpackSign, hbits]
    show _ = 0
    omega
  rw [nearest]
  simp only [Bool.false_eq_true, if_false, Nat.add_zero, nearestBits_twoPow h]
  rw [unpack_ofBits, unpack_of_normal (by omega) (by omega), hsign]
  refine finite_congr ?_ ?_
  · rw [hbits]
    omega
  · rw [hexponent]
    omega

/-! ### Rounding -/

theorem log2_mul_twoPow (hm : 0 < m) (k : Nat) : (m * 2 ^ k).log2 = m.log2 + k := by
  refine (Nat.log2_eq_iff (Nat.mul_pos hm (Nat.two_pow_pos k)).ne').2 ⟨?_, ?_⟩
  · rw [pow_add]
    exact Nat.mul_le_mul_right _ (Nat.log2_self_le hm.ne')
  · rw [Nat.add_right_comm, pow_add]
    exact Nat.mul_lt_mul_of_pos_right Nat.lt_log2_self (Nat.two_pow_pos k)

theorem targetExponent_eq (m : Nat) (e : Int) :
    Format.binary64.targetExponent (totalExponent m e) = max (m.log2 + e - 52) (-1074) := by
  have hdigits : (Format.binary64.mantissaBits : Int) = 53 := rfl
  have hleast : Format.binary64.minExponent = -1074 := rfl
  rw [Format.targetExponent, totalExponent, hdigits, hleast]
  omega

/-- Rounding leaves the exponent of a number that is in the form of the format. -/
theorem Canonical.targetExponent (h : Canonical m e) (hm : 0 < m) :
    Format.binary64.targetExponent (totalExponent m e) = e := by
  have hlog : m.log2 < 53 := (Nat.log2_lt hm.ne').2 h.lt
  rw [targetExponent_eq]
  rcases h.full with hfull | hleast
  · have hlow : 52 ≤ m.log2 := (Nat.le_log2 hm.ne').2 hfull
    have hleast := h.least
    omega
  · omega

/-- Nothing is lost when the digits that are dropped are zero. -/
theorem repeat_shiftRightOne (m k : Nat) :
    k.repeat ExtendedMantissa.shiftRightOne ⟨m * 2 ^ k, false, false⟩ = ⟨m, false, false⟩ := by
  induction k generalizing m with
  | zero => rw [pow_zero, Nat.mul_one, Nat.repeat]
  | succ k ih =>
    rw [pow_succ', ← Nat.mul_assoc, Nat.repeat, ih, ExtendedMantissa.shiftRightOne,
      Nat.mul_div_cancel m Nat.two_pos, Nat.mul_mod_left]
    rfl

theorem Canonical.shiftToTargetExponent (h : Canonical m e) (hm : 0 < m) (k : Nat) :
    shiftToTargetExponent .binary64 (m * 2 ^ k) (e - k) .exact = (⟨m, false, false⟩, e) := by
  have htarget : Format.binary64.targetExponent (totalExponent (m * 2 ^ k) (e - k)) = e := by
    rw [targetExponent_eq, log2_mul_twoPow hm, Int.natCast_add,
      show (m.log2 : Int) + k + (e - k) - 52 = m.log2 + e - 52 by omega, ← targetExponent_eq,
      h.targetExponent hm]
  have hamount : (e - (e - k)).toNat = k := by omega
  rw [UnpackedFloat.shiftToTargetExponent, htarget, shiftToExponent, hamount]
  refine Prod.ext (repeat_shiftRightOne m k) ?_
  show e - k + k = e
  omega

/-- **Rounding does nothing but drop zeros** where a number of the form of the format remains. -/
theorem Canonical.roundWithAccuracy (h : Canonical m e) (hm : 0 < m) (s : Sign) (k : Nat) :
    roundWithAccuracy .binary64 s (m * 2 ^ k) (e - k) .exact = .finite s m e hm := by
  have hagain := h.shiftToTargetExponent hm 0
  rw [pow_zero, Nat.mul_one, Int.natCast_zero, Int.sub_zero] at hagain
  have hrounded : ExtendedMantissa.roundedMantissa ⟨m, false, false⟩ = m := rfl
  rw [UnpackedFloat.roundWithAccuracy, h.shiftToTargetExponent hm k]
  dsimp only
  rw [hrounded, hagain]
  exact dif_neg hm.ne'

/-! ### Doubling -/

/-- A number in the form of the format, multiplied by a power of two, in that form. -/
theorem Canonical.exists_mul_twoPow (h : Canonical m e) (hm : 0 < m) (k : Nat) :
    ∃ m' e', ∃ s : Nat, 0 < m' ∧ Canonical m' e' ∧ m * 2 ^ 52 = m' * 2 ^ s ∧
      e + (k - 52) = e' - s ∧ m' * 2 ^ (e' + 1074).toNat = m * 2 ^ (e + 1074).toNat * 2 ^ k := by
  have hleast := h.least
  have hlog : m.log2 < 53 := (Nat.log2_lt hm.ne').2 h.lt
  -- as many of the 52 new zeros are dropped as there are digits beyond the first, or fewer where
  -- the exponent would become too small
  obtain ⟨s, hs, hmax⟩ : ∃ s : Nat, s ≤ 52 ∧ (s : Int) = max (m.log2 : Int) (-1022 - e - k) :=
    ⟨(max (m.log2 : Int) (-1022 - e - k)).toNat, by omega, by omega⟩
  have hsum : 52 - s + s = 52 := by omega
  have hlog' : (m * 2 ^ (52 - s)).log2 = m.log2 + (52 - s) := log2_mul_twoPow hm _
  have hpos : 0 < m * 2 ^ (52 - s) := Nat.mul_pos hm (Nat.two_pow_pos _)
  refine ⟨m * 2 ^ (52 - s), e + (k - 52) + s, s, hpos, ⟨?_, by omega, ?_⟩, ?_, by omega, ?_⟩
  · rw [← Nat.log2_lt hpos.ne', hlog']
    omega
  · rw [← Nat.le_log2 hpos.ne', hlog']
    omega
  · rw [Nat.mul_assoc, ← pow_add, hsum]
  · rw [Nat.mul_assoc, Nat.mul_assoc, ← pow_add, ← pow_add]
    congr 2
    omega

/-- **A length times a power of two** has as many times the units, unless it is infinite because
these would be more than those of any length. -/
theorem IsLength.mul_twoPow {x : Float} (hx : IsLength x) (hk : k < 1024) :
    (IsLength (x * nearest false (Nat.pow 2 k) 1) ∧
        units (x * nearest false (Nat.pow 2 k) 1) = units x * 2 ^ k) ∨
      ((x * nearest false (Nat.pow 2 k) 1).toModel.unpack = .infinity .positive ∧
        ∀ y, IsLength y → units y < units x * 2 ^ k) := by
  have hproduct : (x * nearest false (Nat.pow 2 k) 1).toModel.unpack
      = UnpackedFloat.unpack .binary64 (UnpackedFloat.pack .binary64 (UnpackedFloat.mul .binary64
        x.toModel.unpack (.finite .positive (2 ^ 52) (k - 52) (Nat.two_pow_pos 52)))) := by
    rw [← unpack_nearest_twoPow hk]
    rfl
  rcases isLength_iff.1 hx with ⟨s, hs⟩ | ⟨m, e, hm, hfinite⟩
  · rw [hs, UnpackedFloat.mul, unpack_pack (.zero _)] at hproduct
    rw [units_of_zero hproduct, units_of_zero hs, Nat.zero_mul]
    exact .inl ⟨isLength_iff.2 (.inl ⟨_, hproduct⟩), rfl⟩
  · obtain ⟨hcanonical, -⟩ := canonical_of_unpack hfinite
    obtain ⟨m', e', s, hm', hcanonical', hdigits, hexponent, hunits⟩ :=
      hcanonical.exists_mul_twoPow hm k
    rw [hfinite, UnpackedFloat.mul, hdigits, hexponent, hcanonical'.roundWithAccuracy hm']
      at hproduct
    rw [units_of_finite hfinite, ← hunits]
    by_cases he : e' ≤ 971
    case pos =>
      rw [unpack_pack (.finite _ _ _ _ hcanonical' he)] at hproduct
      exact .inl ⟨isLength_iff.2 (.inr ⟨_, _, _, hproduct⟩), units_of_finite hproduct⟩
    case neg =>
      rw [unpack_pack_of_overflow _ _ (by omega)] at hproduct
      exact .inr ⟨hproduct, fun y hy ↦ hcanonical'.units_lt_of_overflow (by omega) hy⟩

/-- Every length is less than infinity. -/
theorem IsLength.lt_infinity {x y : Float} (hx : IsLength x)
    (hy : y.toModel.unpack = .infinity .positive) : x < y := by
  rw [lt_iff_compare, hy]
  rcases isLength_iff.1 hx with ⟨s, hs⟩ | ⟨m, e, hm, hfinite⟩
  · rw [hs]
    rfl
  · rw [hfinite]
    rfl

end Docwright.Number
