/-!
# Sets of code points

A property of characters that a standard gives as a list of ranges is held here as the increasing
list of the code points where membership changes: `⟨[a, b, c, d]⟩` holds `a … b - 1` and
`c … d - 1`. Asking for a character walks the list up to the first turn above it, so that a small
code point is answered after a few comparisons.
-/

namespace Docwright.Text

/-- A set of code points, given by the places where membership turns on and off. -/
structure CodeSet where
  /-- The increasing list of the code points where membership changes; it starts outside. -/
  turns : List Nat

namespace CodeSet

/-- Whether `n` is inside, when everything below the first of the turns has status `now`. -/
def inside (now : Bool) : List Nat → Nat → Bool
  | [], _ => now
  | t :: rest, n => if n < t then now else inside (!now) rest n

/-- Whether the set holds the character. -/
def mem (s : CodeSet) (c : Char) : Bool :=
  inside false s.turns c.toNat

end CodeSet

end Docwright.Text
