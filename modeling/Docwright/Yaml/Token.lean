import Docwright.Text.Lines
import Docwright.Text.Quoted

/-!
# The marks and words of a settings file

Settings are written in YAML, version 1.1. This module holds the words that such a text is made of,
the faults of reading one, and the classes of characters on which the format rests. A line ends in a
line feed, a line separator or a paragraph separator; `unified` brings the other spellings of a line
end to a line feed, and all that follows works on unified text.
-/

namespace Docwright.Yaml

/-- A mark or a word of the format. -/
inductive Token
  /-- A directive that names the version of the format. -/
  | version (major : Nat)
  /-- A directive that makes `handle` short for `expansion`. -/
  | shorthand (handle expansion : String)
  /-- Any other directive. -/
  | directive
  | documentStart
  | documentEnd
  /-- A sequence, or a mapping, that is laid out by its indentation begins. -/
  | blockSequence
  | blockMapping
  /-- The innermost collection that is laid out by its indentation ends. -/
  | blockEnd
  /-- The brackets around sequences and mappings that are written in line. -/
  | openSequence
  | closeSequence
  | openMapping
  | closeMapping
  /-- The mark of an item of a sequence that is laid out by its indentation. -/
  | item
  | comma
  /-- The marks of the key and of the value of a pair. -/
  | key
  | value
  | alias (name : String)
  | anchor (name : String)
  /-- A tag; one without a handle is written out in full. -/
  | tag (handle : Option String) (suffix : String)
  /-- A text; `plain` when it stands without quotes or layout of its own. -/
  | scalar (text : String) (plain : Bool)
  deriving DecidableEq, Repr

/-- What is wrong with a day or a time of day. -/
inductive StampFault
  | year (n : Nat)
  | month
  | day
  | hour
  | minute
  | second
  /-- The offset from universal time, in minutes, reaches a whole day. -/
  | offset (minutes : Int)
  deriving DecidableEq, Repr

/-- Why a text has no value. -/
inductive Fault
  /-- The text departs from the format, or asks for a value that there is none of. -/
  | malformed
  /-- An escape names no character. -/
  | noCharacter (code : Nat)
  /-- A whole number does not have the digits of its base. -/
  | badDigits (base : Nat) (text : String)
  /-- A whole number is too long. -/
  | tooLong (digits : Nat)
  /-- A number is empty. -/
  | noDigits
  /-- A text that is tagged as a real number is none. -/
  | notReal (text : String)
  /-- A real number in base 60 has a place beyond the range of real numbers. -/
  | tooLarge
  /-- A text that is tagged as a truth value is none. -/
  | notTruth (text : String)
  /-- A text that is tagged as a time stamp is none. -/
  | notStamp
  /-- A time stamp names no day or no time of day. -/
  | badStamp (fault : StampFault)
  /-- Reading failed in a way of its own. -/
  | other (message : String)
  deriving DecidableEq, Repr

/-- What is wrong with a day or a time of day, in words. -/
def StampFault.message : StampFault → String
  | year n => s!"year {n} is out of range"
  | month => "month must be in 1..12"
  | day => "day is out of range for month"
  | hour => "hour must be in 0..23"
  | minute => "minute must be in 0..59"
  | second => "second must be in 0..59"
  | offset minutes =>
    let days := minutes.fdiv 1440
    let seconds := minutes.fmod 1440 * 60
    let shown := if seconds == 0 then s!"days={days}" else s!"days={days}, seconds={seconds}"
    "offset must be a timedelta strictly between -timedelta(hours=24) and timedelta(hours=24), " ++
      s!"not datetime.timedelta({shown})."

/-- The fault in words. -/
def Fault.message : Fault → String
  | malformed => "the text departs from the format"
  | noCharacter code =>
    if code < Nat.pow 2 31 then "chr() arg not in range(0x110000)"
    else "Python int too large to convert to C int"
  | badDigits base text =>
    s!"invalid literal for int() with base {base}: " ++
      String.ofList ((Text.quoted text.toList).take 200)
  | tooLong digits =>
    "Exceeds the limit (4300 digits) for integer string conversion: " ++
      s!"value has {digits} digits; use sys.set_int_max_str_digits() to increase the limit"
  | noDigits => "string index out of range"
  | notReal text => s!"could not convert string to float: {Text.quote text}"
  | tooLarge => "int too large to convert to float"
  | notTruth text => Text.quote text
  | notStamp => "'NoneType' object has no attribute 'groupdict'"
  | badStamp fault => fault.message
  | other message => message

/-- The character that may stand in front of a text to show how it is encoded. -/
def byteOrderMark : Char := '\uFEFF'

/-- The characters that a settings file may hold. -/
def isAllowed (c : Char) : Bool :=
  let n := c.toNat
  c == '\t' || c == '\n' || c == '\r' || (0x20 ≤ n && n ≤ 0x7E) || n == 0x85 ||
    (0xA0 ≤ n && n ≤ 0xFFFD) || 0x10000 ≤ n

/-- The text with every line end of one character, and the usual ones as line feeds. -/
def unified (cs : List Char) : List Char :=
  (Text.unifyNewlines cs).map fun c => if c.toNat == 0x85 then '\n' else c

/-- A character that ends a line. -/
def isBreak (c : Char) : Bool :=
  c == '\n' || c.toNat == 0x2028 || c.toNat == 0x2029

/-- A space or a tab. -/
def isBlank (c : Char) : Bool :=
  c == ' ' || c == '\t'

/-- A bracket around a collection that is written in line. -/
def isBracket (c : Char) : Bool :=
  c == '[' || c == ']' || c == '{' || c == '}'

/-- Whether nothing, or a line end, follows. -/
def atLineEnd : List Char → Bool
  | [] => true
  | c :: _ => isBreak c

/-- Whether nothing, a blank or a line end follows. -/
def atWordEnd : List Char → Bool
  | [] => true
  | c :: _ => isBlank c || isBreak c

/-- Whether nothing, a space or a line end follows. -/
def atSpace : List Char → Bool
  | [] => true
  | c :: _ => c == ' ' || isBreak c

/-- Whether the line that begins here is a document marker. -/
def atMarker : List Char → Bool
  | '-' :: '-' :: '-' :: rest => atWordEnd rest
  | '.' :: '.' :: '.' :: rest => atWordEnd rest
  | _ => false

/-- A letter of a name: of a directive, a handle, an anchor or an alias. -/
def isNameChar (c : Char) : Bool :=
  c.isAlphanum || c == '-' || c == '_'

/-- The text behind spaces and a comment, at the end of the line; `none` when something else stands
there. -/
def restOfLine? (cs : List Char) : Option (List Char) :=
  let rest := cs.dropWhile (· == ' ')
  let rest := match rest with
    | '#' :: _ => rest.dropWhile (!isBreak ·)
    | _ => rest
  if atLineEnd rest then some (rest.drop 1) else none

end Docwright.Yaml
