import Docwright.Number.Shortest

/-!
# Numbers as data carries them

Configuration files and messages tell whole numbers from real ones: `1` and `1.0` are written
differently and some settings accept only the first. A `Numeral` keeps the difference, whole numbers
being of any size and real ones in the 64-bit binary format.
-/

namespace Docwright.Number

/-- A whole number of any size or a real number. -/
inductive Numeral
  | whole (n : Int)
  | real (x : Float)
  deriving Repr

/-- The text of a numeral; only a real one has a point or an exponent. -/
def Numeral.text : Numeral → String
  | .whole n => toString n
  | .real x => Number.text x

/-- The lesser of two numbers, the first unless the second is less. -/
def least (a b : Float) : Float :=
  if b < a then b else a

/-- The greater of two numbers, the first unless the second is greater. -/
def greatest (a b : Float) : Float :=
  if b > a then b else a

/-- The whole part of a finite number, with its sign. -/
def truncate? (x : Float) : Option Int :=
  match Shape.ofFloat x with
  | .finite negative m e =>
    let (p, q) := powerOfTwo e
    let size : Int := m * p / q
    some (if negative then -size else size)
  | _ => none

end Docwright.Number
