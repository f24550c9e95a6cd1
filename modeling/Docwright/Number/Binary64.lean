/-!
# The 64-bit binary format

A finite binary64 number is `± m · 2 ^ e` with `m < 2 ^ 53` and `-1074 ≤ e ≤ 971`. `Shape.ofFloat`
takes a number apart and `nearest` finds the number nearest to a quotient of naturals, a half going
to the even neighbour; both use whole-number arithmetic only.
-/

namespace Docwright.Number

/-- A binary64 number taken apart. -/
inductive Shape
  /-- The number `± significand · 2 ^ exponent`. -/
  | finite (negative : Bool) (significand : Nat) (exponent : Int)
  /-- An infinity. -/
  | infinite (negative : Bool)
  /-- Not a number. -/
  | nan
  deriving DecidableEq, Repr

/-- The least significand with all its 53 digits, and the weight of an exponent among the bits. -/
def fullSignificand : Nat := Nat.pow 2 52

/-- The weight of the sign among the bits. -/
def signBit : Nat := Nat.pow 2 63

/-- The bits of infinity. -/
def infiniteBits : Nat := 2047 * fullSignificand

/-- Takes a number apart. -/
def Shape.ofFloat (x : Float) : Shape :=
  let bits := x.toBits.toNat
  let negative := bits / signBit == 1
  let biased : Nat := bits / fullSignificand % 2048
  let fraction : Nat := bits % fullSignificand
  if biased == 2047 then
    if fraction == 0 then .infinite negative else .nan
  else if biased == 0 then .finite negative fraction (-1074)
  else .finite negative (fraction + fullSignificand) ((biased : Int) - 1075)

/-- The quotient rounded to a whole number, a half going to the even neighbour. -/
def roundDiv (num den : Nat) : Nat :=
  let q := num / den
  let r := num % den
  if 2 * r < den then q
  else if den < 2 * r then q + 1
  else if q % 2 == 0 then q else q + 1

/-- The power `2 ^ e` as a quotient. -/
def powerOfTwo (e : Int) : Nat × Nat :=
  (Nat.pow 2 e.toNat, Nat.pow 2 (-e).toNat)

/-- The power `10 ^ e` as a quotient. -/
def powerOfTen (e : Int) : Nat × Nat :=
  (Nat.pow 10 e.toNat, Nat.pow 10 (-e).toNat)

/-- The bits of the magnitude nearest to `num / den`; those of infinity when it is too large. -/
def nearestBits (num den : Nat) : Nat :=
  if num == 0 then 0
  else
    let start : Int := (num.log2 : Int) - den.log2 - 53
    let (p, q) := powerOfTwo start
    let e := if num * q / (den * p) ≥ 2 * fullSignificand then start + 1 else start
    let e := max e (-1074)
    let (p, q) := powerOfTwo e
    let m := roundDiv (num * q) (den * p)
    let (m, e) := if m ≥ 2 * fullSignificand then (m / 2, e + 1) else (m, e)
    if e > 971 then infiniteBits
    else if m < fullSignificand then m
    else (e + 1075).toNat * fullSignificand + (m - fullSignificand)

/-- The number nearest to `± num / den`. -/
def nearest (negative : Bool) (num den : Nat) : Float :=
  let sign := if negative then signBit else 0
  Float.ofBits (UInt64.ofNat (nearestBits num den + sign))

/-- An infinity. -/
def infinity (negative : Bool) : Float :=
  nearest negative (Nat.pow 2 1024) 1

/-- The number nearest to `± digits · 10 ^ exponent`. Exponents far outside the range of the format
give zero or infinity without the power being computed. -/
def nearestDecimal (negative : Bool) (digits : Nat) (exponent : Int) : Float :=
  let size : Int := (digits.log2 : Int) * 30103 / 100000 + exponent
  if digits == 0 || size < -400 then nearest negative 0 1
  else if size > 400 then infinity negative
  else
    let (p, q) := powerOfTen exponent
    nearest negative (digits * p) q

/-- The number nearest to an integer, `none` when that would be infinite. -/
def ofInt? (n : Int) : Option Float :=
  if nearestBits n.natAbs 1 < infiniteBits then some (nearest (n < 0) n.natAbs 1) else none

end Docwright.Number
