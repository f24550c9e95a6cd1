import Docwright.Number.Reading
import Docwright.Yaml.Stamp

/-!
# Tags

A tag says of which kind a value is. A text that stands plainly and has no tag gets the one whose
form it has (`Tag.ofPlain`): a truth value, a real number, a whole number, a time stamp, nothing, or
else a text. Real numbers have a point; whole numbers may be in base 2, 8, 10, 16 or, with colons,
in base 60.
-/

namespace Docwright.Yaml

/-- The kind of a value. -/
inductive Tag
  | null
  | bool
  | whole
  | real
  | binary
  | stamp
  | text
  | sequence
  | mapping
  /-- A set, written as a mapping. -/
  | set
  /-- Pairs, written as a sequence of mappings of one pair each. -/
  | pairs
  /-- The key that takes in the pairs of other mappings. -/
  | merge
  /-- The key whose value stands for the whole mapping. -/
  | value
  /-- A tag that names no kind. -/
  | other
  deriving DecidableEq, Repr

namespace Tag

/-- What the handle of two marks is short for. -/
def family : String := "tag:yaml.org,2002:"

/-- The names of the kinds. -/
def names : List (String × Tag) := [
  ("null", null), ("bool", bool), ("int", whole), ("float", real), ("binary", binary),
  ("timestamp", stamp), ("str", text), ("seq", sequence), ("map", mapping), ("set", set),
  ("omap", pairs), ("pairs", pairs), ("merge", merge), ("value", value)]

/-- The kind that a tag written in full names. -/
def ofFull (s : String) : Tag :=
  ((names.find? fun (name, _) => family ++ name == s).map (·.2)).getD other

/-- The words for truth values. -/
def truthWords : List (String × Bool) := [
  ("yes", true), ("no", false), ("true", true), ("false", false), ("on", true), ("off", false)]

/-- The spellings of a word: in small letters, with a capital, in capitals. -/
def spellings (word : String) : List String :=
  [word, word.capitalize, word.map Char.toUpper]

/-- A digit or a low line. -/
def isDigitOrLine (c : Char) : Bool :=
  c.isDigit || c == '_'

/-- Whether the text begins with a digit and goes on in digits and low lines. -/
def isRun (cs : List Char) : Bool :=
  match cs with
  | [] => false
  | c :: rest => c.isDigit && rest.all isDigitOrLine

/-- Whether the text is a place of a number in base 60 behind the first. -/
def isSixtieth (cs : List Char) : Bool :=
  match cs with
  | [c] => c.isDigit
  | [c, d] => decide ('0' ≤ c ∧ c ≤ '5') && d.isDigit
  | _ => false

/-- Whether the parts between the colons are a number in base 60 of at least two places. -/
def isBaseSixty (parts : List (List Char)) : Bool :=
  match parts with
  | first :: second :: rest => isRun first && (second :: rest).all isSixtieth
  | _ => false

/-- Whether the text is nothing or an exponent with its sign. -/
def isExponent (cs : List Char) : Bool :=
  match cs with
  | [] => true
  | e :: sign :: rest =>
    (e == 'e' || e == 'E') && (sign == '+' || sign == '-') && !rest.isEmpty && rest.all Char.isDigit
  | _ => false

/-- Whether the text has the form of a real number. -/
def isReal (cs : List Char) : Bool :=
  let (body, isSigned) := match cs with
    | '+' :: rest => (rest, true)
    | '-' :: rest => (rest, true)
    | _ => (cs, false)
  let (front, rest) := body.span (· != '.')
  match rest with
  | [] => false
  | _ :: rest =>
    let exponent := rest.dropWhile isDigitOrLine
    if front.isEmpty then
      (spellings "inf").contains (String.ofList rest) ||
        (!isSigned && (["nan", "NaN", "NAN"].contains (String.ofList rest) ||
          (isRun (rest.takeWhile isDigitOrLine) && isExponent exponent)))
    else
      (isRun front && isExponent exponent) ||
        (isBaseSixty (Text.splitOn ':' front) && exponent.isEmpty)

/-- Whether the text has the form of a whole number. -/
def isWhole (cs : List Char) : Bool :=
  let body := match cs with
    | '+' :: rest => rest
    | '-' :: rest => rest
    | _ => cs
  match body with
  | ['0'] => true
  | '0' :: 'b' :: rest => !rest.isEmpty && rest.all fun c => c == '0' || c == '1' || c == '_'
  | '0' :: 'x' :: rest =>
    !rest.isEmpty && rest.all fun c => (Text.hexDigit? c).isSome || c == '_'
  | '0' :: rest => rest.all fun c => decide ('0' ≤ c ∧ c ≤ '7') || c == '_'
  | _ => isRun body || isBaseSixty (Text.splitOn ':' body)

/-- The kind of a plain text without a tag. -/
def ofPlain (s : String) : Tag :=
  let cs := s.toList
  if s.isEmpty || s == "~" || (spellings "null").contains s then null
  else if truthWords.any fun (word, _) => (spellings word).contains s then bool
  else if isReal cs then real
  else if isWhole cs then whole
  else if s == "<<" then merge
  else if s == "=" then value
  else if Stamp.isPlain cs then stamp
  else text

end Tag

end Docwright.Yaml
