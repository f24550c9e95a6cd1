import Docwright.Json.Basic
import Docwright.Number.Reading

/-!
# Reading structured data

`Json.parse` reads the whole of a text as one value. Beyond the plain format it knows the words
`NaN`, `Infinity` and `-Infinity`. Control characters may not stand in a text value, a byte order
mark may not stand in front, and a name that is repeated in an object takes its last value.

A fault names the place where reading stopped by the number of characters that were left, so that no
step has to count; `Fault.position?` turns that into a place counted from the start.
-/

namespace Docwright.Json

/-- Why a text is not structured data. -/
inductive Fault
  /-- The text departs from the format where `left` characters are left. -/
  | malformed (left : Nat)
  /-- A whole number has more digits than are read. -/
  | tooLong (digits : Nat)
  /-- Values are nested too deeply; `kind` is what would have been opened. -/
  | tooDeep (kind : String)
  deriving DecidableEq, Repr

/-- The place of a departure from the format in a text of the given length. -/
def Fault.position? (length : Nat) : Fault → Option Nat
  | malformed left => some (length - left)
  | _ => none

/-- How deeply values may be nested. -/
def depthLimit : Nat := 990

/-- The blanks that may stand between the parts of a value. -/
def isGap (c : Char) : Bool :=
  c == ' ' || c == '\t' || c == '\n' || c == '\r'

/-- The text from its first character that is not a gap. -/
def skipGap (cs : List Char) : List Char :=
  cs.dropWhile isGap

/-- The character that an escape of one letter stands for. -/
def escapeOf? (c : Char) : Option Char :=
  match c with
  | '"' => some '"'
  | '\\' => some '\\'
  | '/' => some '/'
  | 'b' => some '\x08'
  | 'f' => some '\x0C'
  | 'n' => some '\n'
  | 'r' => some '\r'
  | 't' => some '\t'
  | _ => none

/-- The number that four hexadecimal digits stand for. -/
def hexOf? (a b c d : Char) : Option Nat := do
  let a ← Text.hexDigit? a
  let b ← Text.hexDigit? b
  let c ← Text.hexDigit? c
  let d ← Text.hexDigit? d
  return ((a * 16 + b) * 16 + c) * 16 + d

/-- The first half of a character beyond the basic plane. -/
def isHighHalf (n : Nat) : Bool := decide (0xD800 ≤ n ∧ n < 0xDC00)

/-- The second half of a character beyond the basic plane. -/
def isLowHalf (n : Nat) : Bool := decide (0xDC00 ≤ n ∧ n < 0xE000)

/-- The character that a unit stands for when it is alone; half a character has no form. -/
def unitChar (n : Nat) : Char :=
  if isHighHalf n || isLowHalf n then '\uFFFD' else Char.ofNat n

/-- The character that an escape for the first half `high` makes together with an escape for a
second half that follows it at once; at least one more character must follow the two. -/
def pairAfter? (high : Nat) (cs : List Char) : Except Fault (Option Char) :=
  match cs with
  | '\\' :: 'u' :: a :: b :: c :: d :: after :: rest =>
    if isHighHalf high then
      match hexOf? a b c d with
      | none => .error (.malformed ((after :: rest).length + 5))
      | some low =>
        if isLowHalf low then
          .ok (some (Char.ofNat (0x10000 + (high - 0xD800) * 0x400 + (low - 0xDC00))))
        else .ok none
    else .ok none
  | _ => .ok none

/-- Reads the rest of a text value. `opening` is what was left at its opening quote and `found` the
characters so far, latest first. -/
def readText (opening : Nat) (found : List Char) : List Char → Except Fault (String × List Char)
  | [] => .error (.malformed opening)
  | '"' :: rest => .ok (String.ofList found.reverse, rest)
  | ['\\'] => .error (.malformed opening)
  | '\\' :: 'u' :: a :: b :: c :: d :: after :: rest =>
    match hexOf? a b c d with
    | none => .error (.malformed (rest.length + 6))
    | some high =>
      match pairAfter? high (after :: rest) with
      | .error fault => .error fault
      | .ok none => readText opening (unitChar high :: found) (after :: rest)
      | .ok (some c) => readText opening (c :: found) (rest.drop 5)
  | '\\' :: c :: rest =>
    match escapeOf? c with
    | some e => readText opening (e :: found) rest
    | none =>
      if c == 'u' then .error (.malformed (rest.length + 1))
      else .error (.malformed (rest.length + 2))
  | c :: rest =>
    if c.toNat < 0x20 then .error (.malformed (rest.length + 1))
    else readText opening (c :: found) rest
termination_by cs => cs.length
decreasing_by all_goals (simp; try omega)

/-- The digits of a whole number at the start of a text: a zero alone or digits without one in
front. -/
def wholeDigits? (cs : List Char) : Option (List Char × List Char) :=
  match cs with
  | '0' :: rest => some (['0'], rest)
  | c :: _ => if Number.isDigit c then some (cs.span Number.isDigit) else none
  | [] => none

/-- The point and the digits of a fraction at the start of a text. -/
def fractionDigits? (cs : List Char) : Option (List Char × List Char) :=
  match cs with
  | '.' :: rest =>
    let (digits, after) := rest.span Number.isDigit
    if digits.isEmpty then none else some ('.' :: digits, after)
  | _ => none

/-- The mark, the sign and the digits of an exponent at the start of a text. -/
def exponentDigits? (cs : List Char) : Option (List Char × List Char) :=
  match cs with
  | e :: rest =>
    if e == 'e' || e == 'E' then
      let (sign, rest) := match rest with
        | '+' :: rest => (['+'], rest)
        | '-' :: rest => (['-'], rest)
        | _ => ([], rest)
      let (digits, after) := rest.span Number.isDigit
      if digits.isEmpty then none else some (e :: sign ++ digits, after)
    else none
  | [] => none

/-- Whether a text starts with a minus, and what follows it. -/
def splitMinus (cs : List Char) : Bool × List Char :=
  match cs with
  | '-' :: rest => (true, rest)
  | _ => (false, cs)

/-- Reads a number at the start of a text. -/
def readNumber (cs : List Char) : Except Fault (Json × List Char) :=
  let (negative, body) := splitMinus cs
  match wholeDigits? body with
  | none => .error (.malformed cs.length)
  | some (digits, rest) =>
    let (fraction, rest) := (fractionDigits? rest).getD ([], rest)
    let (power, rest) := (exponentDigits? rest).getD ([], rest)
    if fraction.isEmpty && power.isEmpty then
      if digits.length > Number.digitLimit then .error (.tooLong digits.length)
      else
        let n : Int := Number.valueOf digits
        .ok (.number (.whole (if negative then -n else n)), rest)
    else
      match Number.decimal? negative (digits ++ fraction ++ power) with
      | some x => .ok (.number (.real x), rest)
      | none => .error (.malformed cs.length)

/-- The words that stand for values. -/
def wordValues : List (String × Json) := [
  ("null", .null), ("true", .bool true), ("false", .bool false),
  ("NaN", .number (.real (0.0 / 0.0))),
  ("Infinity", .number (.real (Number.infinity false))),
  ("-Infinity", .number (.real (Number.infinity true)))]

/-- Reads a word or a number at the start of a text. -/
def readScalar (cs : List Char) : Except Fault (Json × List Char) :=
  match wordValues.find? fun (word, _) => word.toList.isPrefixOf cs with
  | some (word, value) => .ok (value, cs.drop word.length)
  | none => readNumber cs

mutual

/-- Reads a value at the start of a text. `fuel` bounds the number of steps and `depth` the number
of arrays and objects that may still be opened. -/
def readValue (fuel depth : Nat) (cs : List Char) : Except Fault (Json × List Char) :=
  match fuel with
  | 0 => .error (.malformed cs.length)
  | fuel + 1 =>
    match cs with
    | '"' :: rest => do
      let (s, rest) ← readText cs.length [] rest
      .ok (.text s, rest)
    | '{' :: rest =>
      match depth with
      | 0 => .error (.tooDeep "object")
      | depth + 1 =>
        match skipGap rest with
        | '}' :: rest => .ok (.object [], rest)
        | rest => readFields fuel depth [] rest
    | '[' :: rest =>
      match depth with
      | 0 => .error (.tooDeep "array")
      | depth + 1 =>
        match skipGap rest with
        | ']' :: rest => .ok (.array [], rest)
        | rest => readItems fuel depth [] rest
    | _ => readScalar cs

/-- Reads the rest of an array from the start of an item; `found` holds the items so far, latest
first. -/
def readItems (fuel depth : Nat) (found : List Json) (cs : List Char) :
    Except Fault (Json × List Char) :=
  match fuel with
  | 0 => .error (.malformed cs.length)
  | fuel + 1 =>
    match readValue fuel depth cs with
    | .error fault => .error fault
    | .ok (item, rest) =>
      match skipGap rest with
      | ']' :: rest => .ok (.array (item :: found).reverse, rest)
      | ',' :: rest => readItems fuel depth (item :: found) (skipGap rest)
      | rest => .error (.malformed rest.length)

/-- Reads the rest of an object from the start of a name; `found` holds the fields so far. -/
def readFields (fuel depth : Nat) (found : List (String × Json)) (cs : List Char) :
    Except Fault (Json × List Char) :=
  match fuel with
  | 0 => .error (.malformed cs.length)
  | fuel + 1 =>
    match cs with
    | '"' :: rest =>
      match readText cs.length [] rest with
      | .error fault => .error fault
      | .ok (name, rest) =>
        match skipGap rest with
        | ':' :: rest =>
          match readValue fuel depth (skipGap rest) with
          | .error fault => .error fault
          | .ok (value, rest) =>
            let found := setField found name value
            match skipGap rest with
            | '}' :: rest => .ok (.object found, rest)
            | ',' :: rest => readFields fuel depth found (skipGap rest)
            | rest => .error (.malformed rest.length)
        | rest => .error (.malformed rest.length)
    | rest => .error (.malformed rest.length)

end

/-- Reads the whole of a text as one value with at most `depth` levels. -/
def parseWithin (depth : Nat) (cs : List Char) : Except Fault Json :=
  if cs.head? == some '\uFEFF' then .error (.malformed cs.length)
  else
    match readValue (2 * cs.length + 1) depth (skipGap cs) with
    | .error fault => .error fault
    | .ok (value, rest) =>
      let rest := skipGap rest
      if rest.isEmpty then .ok value else .error (.malformed rest.length)

/-- Reads the whole of a text as one value. -/
def parse (cs : List Char) : Except Fault Json :=
  parseWithin depthLimit cs

end Docwright.Json
