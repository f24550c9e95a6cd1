import Docwright.Number.Binary64
import Mathlib.Tactic.Ring

/-!
# The range of real numbers

A whole number is beyond the range of the 64-bit binary format from `wholeLimit` on, half a unit of
the last place above the greatest finite number (`ofInt?_eq_none_iff`).

Where the rounding puts a number depends on its binary length alone, but for one length: numbers of
1023 bits and fewer are far below the bound, those of 1025 bits and more are beyond it, and among
those of 1024 bits the significand decides. It reaches `2 ^ 53` just when the number is within half
a unit of `2 ^ 1024` (`significandOf_lt_iff`).
-/

namespace Docwright.Number

/-- The least whole number beyond the range: half a unit of the last place below `2 ^ 1024`. -/
def wholeLimit : Nat := Nat.pow 2 1024 - Nat.pow 2 970

/-! ### Rounding a quotient -/

theorem roundDiv_cases (num den : Nat) :
    (2 * (num % den) ≤ den ∧ roundDiv num den = num / den) ∨
      (den ≤ 2 * (num % den) ∧ roundDiv num den = num / den + 1) := by
  unfold roundDiv
  dsimp only
  split
  · left; omega
  split
  · right; omega
  split
  · left; omega
  · right; omega

theorem roundDiv_le {num den q : Nat} (h : num ≤ den * q) (hden : 0 < den) :
    roundDiv num den ≤ q := by
  have hsplit := Nat.div_add_mod num den
  rcases roundDiv_cases num den with ⟨-, hround⟩ | ⟨hhalf, hround⟩
  · rw [hround]
    exact Nat.div_le_of_le_mul h
  · rw [hround]
    refine Nat.div_lt_of_lt_mul (lt_of_le_of_ne h fun heq ↦ ?_)
    rw [heq, Nat.mul_mod_right] at hhalf
    omega

theorem le_roundDiv {num den q : Nat} (h : den * q ≤ num) (hden : 0 < den) :
    q ≤ roundDiv num den := by
  have hq : q ≤ num / den := (Nat.le_div_iff_mul_le hden).mpr (by rwa [Nat.mul_comm])
  rcases roundDiv_cases num den with ⟨-, hround⟩ | ⟨-, hround⟩
  · omega
  · omega

/-- A quotient is rounded up to an even number from half a unit below it on. -/
theorem succ_le_roundDiv_iff {num den q : Nat} (hden : 0 < den) (hodd : q % 2 = 1) :
    q + 1 ≤ roundDiv num den ↔ den * (2 * q + 1) ≤ 2 * num := by
  have hsplit := Nat.div_add_mod num den
  have hrest := Nat.mod_lt num hden
  rcases Nat.lt_trichotomy (num / den) q with hlt | heq | hgt
  · -- Below `q` there is no way up to `q + 1`.
    have hle : den * (num / den + 1) ≤ den * q := Nat.mul_le_mul_left _ hlt
    have hround : roundDiv num den ≤ q := roundDiv_le (by rw [Nat.mul_add] at hle; omega) hden
    have hfar : 2 * num < den * (2 * q + 1) := by
      rw [Nat.mul_add, Nat.mul_left_comm]
      rw [Nat.mul_add] at hle
      omega
    omega
  · -- At `q` the rest decides, and a tie goes up because `q` is odd.
    rw [heq] at hsplit
    have hexpand : den * (2 * q + 1) = 2 * (den * q) + den := by ring
    unfold roundDiv
    dsimp only
    rw [heq]
    have hodd' : (q % 2 == 0) = false := by simp [hodd]
    rw [hodd', if_neg Bool.false_ne_true]
    split
    · omega
    split
    · omega
    · omega
  · have hge : den * (q + 1) ≤ den * (num / den) := Nat.mul_le_mul_left _ hgt
    have hround : q + 1 ≤ roundDiv num den := le_roundDiv (by omega) hden
    have hnear : den * (2 * q + 1) ≤ 2 * num := by
      rw [Nat.mul_add] at hge
      rw [Nat.mul_add, Nat.mul_left_comm]
      omega
    omega

/-! ### Whole numbers -/

/-- Powers of two as quotients: what is divided on the one side is multiplied on the other. -/
theorem powerOfTwo_mul {e : Int} {a b : Nat} (h : e + b = a) :
    (powerOfTwo e).1 * 2 ^ b = (powerOfTwo e).2 * 2 ^ a := by
  show 2 ^ e.toNat * 2 ^ b = 2 ^ (-e).toNat * 2 ^ a
  rw [← pow_add, ← pow_add]
  congr 1
  omega

theorem powerOfTwo_pos (e : Int) : 0 < (powerOfTwo e).1 :=
  Nat.two_pow_pos _

/-- A number of `log2 n + 1` bits, moved by a power of two to `b + 1` bits. -/
theorem moved_bounds {n b : Nat} (h : n ≠ 0) {e : Int} (he : e + b = n.log2) :
    (powerOfTwo e).1 * 2 ^ b ≤ n * (powerOfTwo e).2 ∧
      n * (powerOfTwo e).2 ≤ (powerOfTwo e).1 * 2 ^ (b + 1) := by
  have hpower := powerOfTwo_mul he
  constructor
  · calc (powerOfTwo e).1 * 2 ^ b = (powerOfTwo e).2 * 2 ^ n.log2 := hpower
      _ ≤ (powerOfTwo e).2 * n := Nat.mul_le_mul_left _ (Nat.log2_self_le h)
      _ = n * (powerOfTwo e).2 := Nat.mul_comm _ _
  · calc n * (powerOfTwo e).2
        ≤ 2 ^ (n.log2 + 1) * (powerOfTwo e).2 := Nat.mul_le_mul_right _ Nat.lt_log2_self.le
      _ = 2 * ((powerOfTwo e).2 * 2 ^ n.log2) := by ring
      _ = 2 * ((powerOfTwo e).1 * 2 ^ b) := by rw [hpower]
      _ = (powerOfTwo e).1 * 2 ^ (b + 1) := by ring

/-- The exponent of a whole number, unless rounding adds one more bit. -/
def exponentOf (n : Nat) : Int := (n.log2 : Int) - 52

/-- The significand of a whole number. -/
def significandOf (n : Nat) : Nat :=
  roundDiv (n * (powerOfTwo (exponentOf n)).2) (powerOfTwo (exponentOf n)).1

theorem significandOf_bounds {n : Nat} (h : n ≠ 0) :
    fullSignificand ≤ significandOf n ∧ significandOf n ≤ 2 * fullSignificand := by
  obtain ⟨hlow, hhigh⟩ := moved_bounds (b := 52) h (e := exponentOf n) (by simp [exponentOf])
  exact ⟨le_roundDiv hlow (powerOfTwo_pos _), roundDiv_le hhigh (powerOfTwo_pos _)⟩

/-- The bits of a whole number other than zero. The exponent that the search for it starts from is
one too small, and it is far above the least there is. -/
theorem nearestBits_eq {n : Nat} (h : n ≠ 0) :
    nearestBits n 1 =
      if significandOf n < 2 * fullSignificand then
        if 971 < exponentOf n then infiniteBits
        else (exponentOf n + 1075).toNat * fullSignificand + (significandOf n - fullSignificand)
      else if 971 < exponentOf n + 1 then infiniteBits
      else (exponentOf n + 1076).toNat * fullSignificand := by
  have hstart : 2 * fullSignificand ≤ n * (powerOfTwo ((n.log2 : Int) - 53)).2 /
      (powerOfTwo ((n.log2 : Int) - 53)).1 := by
    refine (Nat.le_div_iff_mul_le (powerOfTwo_pos _)).mpr ?_
    obtain ⟨hlow, -⟩ := moved_bounds (b := 53) h (e := (n.log2 : Int) - 53) (by simp)
    rw [Nat.mul_comm]
    exact hlow
  have hlog : Nat.log2 1 = 0 := by decide
  have hzero : (n == 0) = false := by simp [h]
  have hnext : (n.log2 : Int) - 53 + 1 = exponentOf n := by
    unfold exponentOf
    omega
  have hmax : max (exponentOf n) (-1074) = exponentOf n := by
    unfold exponentOf
    omega
  have hsignificand : roundDiv (n * (powerOfTwo (exponentOf n)).2) (powerOfTwo (exponentOf n)).1 =
      significandOf n := rfl
  obtain ⟨hfull, htwice⟩ := significandOf_bounds h
  unfold nearestBits
  simp only [hzero, hlog, Nat.one_mul, Int.natCast_zero, Int.sub_zero, ge_iff_le, hstart, if_true,
    hnext, hmax, hsignificand, Bool.false_eq_true, if_false]
  by_cases hsmall : significandOf n < 2 * fullSignificand
  · have hkeep : ¬2 * fullSignificand ≤ significandOf n := Nat.not_le.mpr hsmall
    have hnormal : ¬significandOf n < fullSignificand := Nat.not_lt.mpr hfull
    simp only [hsmall, hkeep, hnormal, if_true, if_false, gt_iff_lt]
  · have hequal : significandOf n = 2 * fullSignificand := by omega
    have hhalf : 2 * fullSignificand / 2 = fullSignificand := Nat.mul_div_right _ (by decide)
    have hsum : exponentOf n + 1 + 1075 = exponentOf n + 1076 := by omega
    simp only [hequal, le_refl, lt_irrefl, hhalf, hsum, if_true, if_false, gt_iff_lt, Nat.sub_self,
      Nat.add_zero]

theorem nearestBits_lt_iff {n : Nat} (h : n ≠ 0) :
    nearestBits n 1 < infiniteBits ↔
      exponentOf n < 971 ∨ exponentOf n = 971 ∧ significandOf n < 2 * fullSignificand := by
  obtain ⟨hfull, htwice⟩ := significandOf_bounds h
  have hpos : 0 < fullSignificand := Nat.two_pow_pos 52
  have hinfinite : infiniteBits = 2046 * fullSignificand + fullSignificand := by
    rw [infiniteBits, ← Nat.succ_mul]
  rw [nearestBits_eq h]
  split
  · split
    · omega
    · have hle : (exponentOf n + 1075).toNat * fullSignificand ≤ 2046 * fullSignificand :=
        Nat.mul_le_mul_right _ (by omega)
      omega
  · split
    · omega
    · have hle : (exponentOf n + 1076).toNat * fullSignificand ≤ 2046 * fullSignificand :=
        Nat.mul_le_mul_right _ (by omega)
      omega

/-- The significand of a number stays below `2 ^ 53` unless the number is within half a unit of the
next power of two. -/
theorem significandOf_lt_iff {n k limit : Nat} (h : exponentOf n = k)
    (hlimit : Nat.pow 2 k * (2 * (2 * fullSignificand - 1) + 1) = 2 * limit) :
    significandOf n < 2 * fullSignificand ↔ n < limit := by
  have hround : significandOf n = roundDiv n (Nat.pow 2 k) := by
    have hpower : powerOfTwo k = (Nat.pow 2 k, 1) := by simp [powerOfTwo]
    rw [significandOf, h, hpower, Nat.mul_one]
  have hodd : (2 * fullSignificand - 1) % 2 = 1 := by decide
  have hstep : 2 * fullSignificand - 1 + 1 = 2 * fullSignificand := by decide
  have hiff : 2 * fullSignificand - 1 + 1 ≤ roundDiv n (Nat.pow 2 k) ↔
      Nat.pow 2 k * (2 * (2 * fullSignificand - 1) + 1) ≤ 2 * n :=
    succ_le_roundDiv_iff (Nat.two_pow_pos k) hodd
  rw [hstep, hlimit] at hiff
  rw [hround, ← not_le, hiff]
  omega

theorem lt_of_log2_lt {n k limit : Nat} (h : n.log2 < k) (hlimit : Nat.pow 2 k ≤ limit) :
    n < limit :=
  (Nat.lt_log2_self.trans_le (Nat.pow_le_pow_right (by decide) h)).trans_le hlimit

theorem le_of_le_log2 {n k limit : Nat} (hn : n ≠ 0) (h : k ≤ n.log2)
    (hlimit : limit ≤ Nat.pow 2 k) : limit ≤ n :=
  (hlimit.trans (Nat.pow_le_pow_right (by decide) h)).trans (Nat.log2_self_le hn)

/-- **A whole number is within range just when it is below the limit.** -/
theorem nearestBits_lt_infiniteBits_iff (n : Nat) :
    nearestBits n 1 < infiniteBits ↔ n < wholeLimit := by
  by_cases h : n = 0
  · rw [h]
    decide +kernel
  rw [nearestBits_lt_iff h]
  rcases Int.lt_trichotomy (exponentOf n) 971 with hlt | heq | hgt
  · have hlog : n.log2 < 1023 := by
      unfold exponentOf at hlt
      omega
    exact iff_of_true (.inl hlt) (lt_of_log2_lt hlog (by decide +kernel))
  · rw [← significandOf_lt_iff (k := 971) heq (by decide +kernel)]
    omega
  · have hlog : 1024 ≤ n.log2 := by
      unfold exponentOf at hgt
      omega
    exact iff_of_false (by omega) (Nat.not_lt.mpr (le_of_le_log2 h hlog (by decide +kernel)))

/-- A whole number below the limit has a real number nearest to it. -/
theorem ofInt?_eq_some_iff {n : Int} {x : Float} :
    ofInt? n = some x ↔ n.natAbs < wholeLimit ∧ nearest (n < 0) n.natAbs 1 = x := by
  rw [ofInt?, Option.ite_none_right_eq_some, nearestBits_lt_infiniteBits_iff]
  exact and_congr_right fun _ ↦ Option.some_inj

/-- A whole number from the limit on has none. -/
theorem ofInt?_eq_none_iff {n : Int} : ofInt? n = none ↔ wholeLimit ≤ n.natAbs := by
  rw [← not_lt, ← nearestBits_lt_infiniteBits_iff, ofInt?]
  simp

end Docwright.Number
