import Docwright.Number.Binary64

/-!
# The text of a number

`shortest` chooses the fewest decimal digits that read back as the same number, the nearest of those
when there are several. `Layout` says how digits are set out: which exponents are written
positionally and how the others are. `fixed` writes a number with a fixed count of places, rounding
its exact value with halves to even.
-/

namespace Docwright.Number

/-- Digits and the exponent of the first of them: `digits = d₁ d₂ … dₙ` stands for
`d₁.d₂…dₙ · 10 ^ exponent`. -/
structure Decimal where
  /-- The digits as one whole number without a zero at its end. -/
  digits : Nat
  /-- The exponent of the first digit. -/
  exponent : Int
  deriving DecidableEq, Repr

/-- Takes the zeros off the end of `n`, at most `fuel` of them. -/
def dropZeros : Nat → Nat → Nat
  | 0, n => n
  | fuel + 1, n => if n != 0 && n % 10 == 0 then dropZeros fuel (n / 10) else n

/-- The exponent of the first digit of `num / den`: the greatest `k` with `10 ^ k ≤ num / den`. -/
def leadingExponent (num den : Nat) : Int :=
  let guess : Int := ((num.log2 : Int) - den.log2) * 30103 / 100000
  let fits (k : Int) : Bool := let (p, q) := powerOfTen k; decide (p * den ≤ num * q)
  if fits (guess + 1) then guess + 1 else if fits guess then guess else guess - 1

/-- The shortest decimal among those with `count`, `count + 1`, … digits, `fuel` counts in all, that
lies between `low / den` and `high / den`; the ends count when `closed`. -/
def shortestFrom (closed : Bool) (low value high den : Nat) (k : Int) : Nat → Nat → Decimal
  | 0, _ => ⟨0, 0⟩
  | fuel + 1, count =>
    let unit : Int := k - count + 1
    let (p, q) := powerOfTen unit
    let below := value * q / (den * p)
    let inside (d : Nat) : Bool :=
      if closed then decide (low * q ≤ d * p * den ∧ d * p * den ≤ high * q)
      else decide (low * q < d * p * den ∧ d * p * den < high * q)
    let pick (d : Nat) : Decimal :=
      ⟨dropZeros (count + 1) d, if d == Nat.pow 10 count then k + 1 else k⟩
    match inside below, inside (below + 1) with
    | true, true =>
      let twice := 2 * value * q
      let middle := (2 * below + 1) * p * den
      if twice < middle then pick below
      else if middle < twice then pick (below + 1)
      else if below % 2 == 0 then pick below else pick (below + 1)
    | true, false => pick below
    | false, true => pick (below + 1)
    | false, false => shortestFrom closed low value high den k fuel (count + 1)

/-- The fewest digits that read back as `m · 2 ^ e`. Seventeen are always enough. -/
def shortest (m : Nat) (e : Int) : Decimal :=
  if m == 0 then ⟨0, 0⟩
  else
    let (p, q) := powerOfTwo (e - 2)
    let below := if m == fullSignificand && decide (-1074 < e) then 4 * m - 1 else 4 * m - 2
    shortestFrom (m % 2 == 0) (below * p) (4 * m * p) ((4 * m + 2) * p) q
      (leadingExponent (4 * m * p) q) 17 1

/-- How digits are set out. -/
structure Layout where
  /-- The least exponent that is written positionally. -/
  leastPositional : Int
  /-- The exponent from which on numbers are written with an exponent. -/
  firstScientific : Int
  /-- The least number of digits of a written exponent. -/
  exponentDigits : Nat

/-- Positional from a ten-thousandth up to sixteen digits before the point; written exponents have a
sign and at least two digits. -/
def Layout.standard : Layout := ⟨-4, 16, 2⟩

/-- The text of `n` with zeros in front up to the given width. -/
def padded (width n : Nat) : String :=
  let text := toString n
  "".pushn '0' (width - text.length) ++ text

/-- Sets digits out. A positional number always has a point. -/
def Layout.render (l : Layout) (d : Decimal) : String :=
  let digits := toString d.digits
  let count := digits.length
  if l.leastPositional ≤ d.exponent ∧ d.exponent < l.firstScientific then
    if d.exponent < 0 then
      "0." ++ "".pushn '0' ((-d.exponent).toNat - 1) ++ digits
    else
      let whole := d.exponent.toNat + 1
      if count ≤ whole then digits ++ "".pushn '0' (whole - count) ++ ".0"
      else (digits.take whole).toString ++ "." ++ (digits.drop whole).toString
  else
    let mantissa :=
      if count == 1 then digits
      else (digits.take 1).toString ++ "." ++ (digits.drop 1).toString
    let sign := if d.exponent < 0 then "-" else "+"
    mantissa ++ "e" ++ sign ++ padded l.exponentDigits d.exponent.natAbs

/-- The text of a number: the fewest digits that read back. -/
def text (x : Float) : String :=
  match Shape.ofFloat x with
  | .nan => "nan"
  | .infinite negative => if negative then "-inf" else "inf"
  | .finite negative m e =>
    (if negative then "-" else "") ++ Layout.standard.render (shortest m e)

/-- The text of a number with exactly `places` digits after the point. -/
def fixed (places : Nat) (x : Float) : String :=
  match Shape.ofFloat x with
  | .nan => "nan"
  | .infinite negative => if negative then "-inf" else "inf"
  | .finite negative m e =>
    let (p, q) := powerOfTwo e
    let unit := Nat.pow 10 places
    let scaled := roundDiv (m * p * unit) q
    let sign := if negative then "-" else ""
    sign ++ toString (scaled / unit) ++ "." ++ padded places (scaled % unit)

end Docwright.Number
