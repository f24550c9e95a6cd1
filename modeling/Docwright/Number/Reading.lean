import Docwright.Number.Basic
import Docwright.Text.Blank
import Docwright.Text.Digit
import Docwright.Text.Quoted

/-!
# Reading numbers from text

A number may stand between blanks, use the digits of any script, and have single low lines between
its digits. Whole numbers of more than 4300 digits are refused, because reading them takes too long.
`wholeOf` and `realOf` say what went wrong, in the words of the message that reports it.
-/

namespace Docwright.Number

/-- Why no whole number could be had. -/
inductive Fault
  /-- The text is not a whole number. -/
  | notWhole (text : String)
  /-- The text has more digits than are read. -/
  | tooLong (digits : Nat)
  /-- The value is neither a number nor a text. -/
  | wrongKind (kind : String)
  /-- The number is not a number at all. -/
  | notANumber
  /-- The number is infinite. -/
  | infinite
  /-- The whole number is beyond the range of real numbers. -/
  | tooLarge
  deriving DecidableEq, Repr

/-- The most digits with which a whole number is read or written. -/
def digitLimit : Nat := 4300

/-- Whether a numeral is a whole number with more digits than are written. -/
def Numeral.isTooLong : Numeral → Bool
  | .whole n => decide (Nat.pow 10 digitLimit ≤ n.natAbs)
  | .real _ => false

theorem isTooLong_iff {n : Int} :
    (Numeral.whole n).isTooLong = true ↔ Nat.pow 10 digitLimit ≤ n.natAbs := by
  simp only [Numeral.isTooLong, decide_eq_true_eq]

/-- The fault in words. -/
def Fault.message : Fault → String
  | notWhole text =>
    "invalid literal for int() with base 10: " ++
      String.ofList ((Text.quoted text.toList).take 200)
  | tooLong digits =>
    s!"Exceeds the limit ({digitLimit} digits) for integer string conversion: value has " ++
      s!"{digits} digits; use sys.set_int_max_str_digits() to increase the limit"
  | wrongKind kind =>
    s!"int() argument must be a string, a bytes-like object or a real number, not '{kind}'"
  | notANumber => "cannot convert float NaN to integer"
  | infinite => "cannot convert float infinity to integer"
  | tooLarge => "int too large to convert to float"

/-- A blank around a number: the ASCII ones from tab to carriage return, the space, and the blanks
beyond ASCII. -/
def isNumericBlank (c : Char) : Bool :=
  if c.toNat < 127 then c == ' ' || (9 ≤ c.toNat && c.toNat ≤ 13) else Text.isBlank c

/-- The character with a digit of another script replaced by its ASCII form. -/
def toAsciiDigit (c : Char) : Char :=
  if c.toNat < 127 then c
  else match Text.digitValue? c with
    | some d => Char.ofNat ('0'.toNat + d)
    | none => c

/-- The text of a number without the blanks around it and in ASCII digits. -/
def numericText (cs : List Char) : List Char :=
  (Text.dropRightWhile isNumericBlank (cs.dropWhile isNumericBlank)).map toAsciiDigit

/-- Takes a sign off the front. -/
def signed (cs : List Char) : Bool × List Char :=
  match cs with
  | '-' :: rest => (true, rest)
  | '+' :: rest => (false, rest)
  | _ => (false, cs)

/-- Whether low lines stand only between two characters that are not low lines themselves. -/
def lowLinesBetween (cs : List Char) : Bool :=
  let parts := cs.foldr (fun c (s : Bool × Bool) =>
    -- the first flag: the text that follows is acceptable; the second: it starts with a low line
    if c == '_' then (s.1 && !s.2, true) else (s.1, false)) (true, true)
  parts.1 && !parts.2

/-- The value of a run of decimal digits with low lines among them. -/
def valueOf (cs : List Char) : Nat :=
  cs.foldl (fun n c => if c == '_' then n else 10 * n + (c.toNat - '0'.toNat)) 0

/-- Whether the character is an ASCII digit. -/
def isDigit (c : Char) : Bool :=
  decide ('0' ≤ c ∧ c ≤ '9')

/-- The whole number a text stands for. -/
def wholeOf (text : String) : Except Fault Int :=
  let (negative, body) := signed (numericText text.toList)
  let (run, rest) := body.span fun c => isDigit c || c == '_'
  if !lowLinesBetween run then .error (.notWhole text)
  else
    let digits := run.countP isDigit
    if digits > digitLimit then .error (.tooLong digits)
    else if !rest.isEmpty then .error (.notWhole text)
    else .ok (if negative then -(valueOf run : Int) else valueOf run)

/-- A word that stands for infinity. -/
def isInfinityWord (cs : List Char) : Bool :=
  let word := cs.map Char.toLower
  word == "inf".toList || word == "infinity".toList

/-- Reads an unsigned real number without low lines: digits with at most one point among them and at
least one digit, then perhaps an exponent. -/
def decimal? (negative : Bool) (cs : List Char) : Option Float :=
  let (whole, rest) := cs.span isDigit
  let (fraction, rest) := match rest with
    | '.' :: rest => rest.span isDigit
    | _ => ([], rest)
  if whole.isEmpty && fraction.isEmpty then none
  else
    let digits := valueOf (whole ++ fraction)
    let places : Int := fraction.length
    match rest with
    | [] => some (nearestDecimal negative digits (-places))
    | e :: rest =>
      if e == 'e' || e == 'E' then
        let (down, power) := signed rest
        if power.isEmpty || !power.all isDigit then none
        else
          let size : Int := valueOf power
          some (nearestDecimal negative digits ((if down then -size else size) - places))
      else none

/-- Takes out low lines that stand between two digits; `none` when one stands elsewhere. -/
def withoutLowLines? (cs : List Char) : Option (List Char) :=
  if !cs.contains '_' then some cs
  else
    let neighbours := List.zip ('_' :: cs) (List.zip cs (cs.drop 1 ++ ['_']))
    let ok := neighbours.all fun (before, c, after) =>
      c != '_' || (isDigit before && isDigit after)
    if ok then some (cs.filter (· != '_')) else none

/-- The real number a text stands for, `none` when it stands for none. -/
def real? (text : String) : Option Float := do
  let body ← withoutLowLines? (numericText text.toList)
  let (negative, body) := signed body
  if isInfinityWord body then some (infinity negative)
  else if body.map Char.toLower == "nan".toList then some (0.0 / 0.0)
  else decimal? negative body

end Docwright.Number
