/-!
# UTF-8

`encode` writes a text as bytes. `pieces` reads any bytes: it walks them once and yields the
characters it finds together with one `Fault` for each maximal ill-formed piece. The three readings
differ only in what they make of a fault: `decode?` reports the first one, `decodeLossy` puts a
replacement character in its place, and `decodeIgnoring` leaves it out.
-/

namespace Docwright.Text.Utf8

/-- Why a piece of the bytes is not a character. -/
inductive Fault
  /-- The first byte of the piece starts no character. -/
  | invalidStart
  /-- A byte that should continue a character does not, or leads to no character. -/
  | invalidContinuation
  /-- The bytes end inside a character. -/
  | unexpectedEnd
  deriving DecidableEq, Repr

/-- The fault in words. -/
def Fault.message : Fault → String
  | invalidStart => "invalid start byte"
  | invalidContinuation => "invalid continuation byte"
  | unexpectedEnd => "unexpected end of data"

/-- The bytes of one character. -/
def encodeChar (c : Char) : List UInt8 :=
  let n := c.toNat
  if n < 0x80 then [n.toUInt8]
  else if n < 0x800 then [(0xC0 + n / 64).toUInt8, (0x80 + n % 64).toUInt8]
  else if n < 0x10000 then
    [(0xE0 + n / 4096).toUInt8, (0x80 + n / 64 % 64).toUInt8, (0x80 + n % 64).toUInt8]
  else
    [(0xF0 + n / 262144).toUInt8, (0x80 + n / 4096 % 64).toUInt8,
      (0x80 + n / 64 % 64).toUInt8, (0x80 + n % 64).toUInt8]

/-- The bytes of a text. -/
def encode (cs : List Char) : List UInt8 :=
  cs.flatMap encodeChar

/-- Where the reader stands between two bytes. -/
inductive State
  /-- Between two characters. -/
  | between
  /-- Inside a character: `need + 1` bytes are missing, the next of them must lie in `low … high`,
  and the bits read so far make up `value`. -/
  | inside (need low high value : Nat)
  deriving DecidableEq, Repr

/-- What the reader has found, latest first, and where it stands. -/
structure Reader where
  /-- Characters and faults, latest first. -/
  found : List (Except Fault Char)
  /-- Where the reader stands. -/
  state : State

/-- Takes a byte between two characters. -/
def Reader.begin (r : Reader) (b : Nat) : Reader :=
  if b < 0x80 then ⟨.ok (Char.ofNat b) :: r.found, .between⟩
  else if b < 0xC2 then ⟨.error .invalidStart :: r.found, .between⟩
  else if b < 0xE0 then ⟨r.found, .inside 0 0x80 0xBF (b - 0xC0)⟩
  else if b < 0xF0 then
    ⟨r.found, .inside 1 (if b == 0xE0 then 0xA0 else 0x80) (if b == 0xED then 0x9F else 0xBF)
      (b - 0xE0)⟩
  else if b < 0xF5 then
    ⟨r.found, .inside 2 (if b == 0xF0 then 0x90 else 0x80) (if b == 0xF4 then 0x8F else 0xBF)
      (b - 0xF0)⟩
  else ⟨.error .invalidStart :: r.found, .between⟩

/-- Takes one byte. A byte that does not continue the character under way ends it with a fault and
is looked at afresh. -/
def Reader.step (r : Reader) (byte : UInt8) : Reader :=
  let b := byte.toNat
  match r.state with
  | .between => r.begin b
  | .inside need low high value =>
    if low ≤ b ∧ b ≤ high then
      let value := value * 64 + (b - 0x80)
      match need with
      | 0 => ⟨.ok (Char.ofNat value) :: r.found, .between⟩
      | need + 1 => ⟨r.found, .inside need 0x80 0xBF value⟩
    else
      Reader.begin ⟨.error .invalidContinuation :: r.found, .between⟩ b

/-- Everything found once the bytes have ended, in order. -/
def Reader.finish (r : Reader) : List (Except Fault Char) :=
  match r.state with
  | .between => r.found.reverse
  | .inside .. => (.error .unexpectedEnd :: r.found).reverse

/-- The characters and the ill-formed pieces of the bytes, in order. -/
def pieces (bytes : List UInt8) : List (Except Fault Char) :=
  (bytes.foldl Reader.step ⟨[], .between⟩).finish

/-- The fault of a piece that has one. -/
def faultOf? : Except Fault Char → Option Fault
  | .error f => some f
  | .ok _ => none

/-- The character of a piece that is one. -/
def charOf? : Except Fault Char → Option Char
  | .error _ => none
  | .ok c => some c

/-- The text, when the bytes are well formed; otherwise the first fault. -/
def decode? (bytes : List UInt8) : Except Fault (List Char) :=
  let found := pieces bytes
  match found.findSome? faultOf? with
  | some fault => .error fault
  | none => .ok (found.filterMap charOf?)

/-- The text with a replacement character for each ill-formed piece. -/
def decodeLossy (bytes : List UInt8) : List Char :=
  (pieces bytes).map fun piece => (charOf? piece).getD '\uFFFD'

/-- The text without the ill-formed pieces. -/
def decodeIgnoring (bytes : List UInt8) : List Char :=
  (pieces bytes).filterMap charOf?

/-- The bytes of a string. -/
def ofString (s : String) : List UInt8 :=
  encode s.toList

end Docwright.Text.Utf8
