import Docwright.Text.Utf8

/-!
# The encoding of a message

The bytes of a message are in UTF-8 unless they say otherwise: by a byte order mark in front, or by
zero bytes among the first four, since the first two characters of structured data are ASCII ones.
`textOf?` reads the bytes of a message in the encoding that `Encoding.of` finds.
-/

namespace Docwright.Json

/-- How a message is written in bytes: in units of one, two or four bytes. -/
inductive Encoding
  | utf8
  | utf16 (bigEndian : Bool)
  | utf32 (bigEndian : Bool)
  deriving DecidableEq, Repr

/-- The encoding of a message, and how many bytes its byte order mark takes. -/
def Encoding.of (bytes : List UInt8) : Encoding × Nat :=
  match bytes with
  | 0x00 :: 0x00 :: 0xFE :: 0xFF :: _ => (.utf32 true, 4)
  | 0xFF :: 0xFE :: 0x00 :: 0x00 :: _ => (.utf32 false, 4)
  | 0xFE :: 0xFF :: _ => (.utf16 true, 2)
  | 0xFF :: 0xFE :: _ => (.utf16 false, 2)
  | 0xEF :: 0xBB :: 0xBF :: _ => (.utf8, 3)
  | 0x00 :: b :: _ :: _ :: _ => (if b == 0 then .utf32 true else .utf16 true, 0)
  | _ :: 0x00 :: c :: d :: _ => (if c == 0 && d == 0 then .utf32 false else .utf16 false, 0)
  | [0x00, _] => (.utf16 true, 0)
  | [_, 0x00] => (.utf16 false, 0)
  | _ => (.utf8, 0)

/-- The numbers that groups of `width` bytes stand for; `none` when bytes are left over. -/
def units? (width : Nat) (bigEndian : Bool) (bytes : List UInt8) : Option (List Nat) :=
  let step := fun ((group : List UInt8), (units : List Nat)) (b : UInt8) =>
    let group := group ++ [b]
    if group.length == width then
      let digits := if bigEndian then group else group.reverse
      (([] : List UInt8), digits.foldl (fun n b => n * 256 + b.toNat) 0 :: units)
    else (group, units)
  let (left, units) := bytes.foldl step ([], [])
  if left.isEmpty then some units.reverse else none

/-- The characters of units of two bytes; half a character has no form. -/
def ofUnits16 : List Nat → List Char
  | [] => []
  | [a] => [charOf a]
  | a :: b :: rest =>
    if 0xD800 ≤ a ∧ a < 0xDC00 ∧ 0xDC00 ≤ b ∧ b < 0xE000 then
      Char.ofNat (0x10000 + (a - 0xD800) * 0x400 + (b - 0xDC00)) :: ofUnits16 rest
    else charOf a :: ofUnits16 (b :: rest)
where
  /-- The character of a unit that stands alone. -/
  charOf (n : Nat) : Char :=
    if 0xD800 ≤ n ∧ n < 0xE000 then '\uFFFD' else Char.ofNat n

/-- The text of a message; `none` when its bytes are not in its encoding. -/
def textOf? (bytes : List UInt8) : Option (List Char) :=
  let (encoding, mark) := Encoding.of bytes
  let bytes := bytes.drop mark
  match encoding with
  | .utf8 => (Text.Utf8.decode? bytes).toOption
  | .utf16 bigEndian => (units? 2 bigEndian bytes).map ofUnits16
  | .utf32 bigEndian => do
    let units ← units? 4 bigEndian bytes
    if units.all (· < 0x110000) then return units.map ofUnits16.charOf else none

end Docwright.Json
