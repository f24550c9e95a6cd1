import Docwright.Json.Basic
import Docwright.Text.Digit

/-!
# Writing structured data

Two forms: `compact` on one line, with a space after each comma and colon, and `indented`, with two
more spaces for each level and empty arrays and objects closed at once. Both are plain ASCII: every
other character of a text is written as an escape, one beyond the basic plane as two.
-/

namespace Docwright.Json

/-- A `\u` escape. -/
def unitEscape (n : Nat) : List Char :=
  '\\' :: 'u' :: Text.hexDigits 4 n

/-- One character of a text value. -/
def showChar (c : Char) : List Char :=
  match c with
  | '"' => ['\\', '"']
  | '\\' => ['\\', '\\']
  | '\n' => ['\\', 'n']
  | '\r' => ['\\', 'r']
  | '\t' => ['\\', 't']
  | '\x08' => ['\\', 'b']
  | '\x0C' => ['\\', 'f']
  | _ =>
    let n := c.toNat
    if 0x20 ≤ n ∧ n < 0x7F then [c]
    else if n < 0x10000 then unitEscape n
    else
      unitEscape (0xD800 + (n - 0x10000) / 0x400) ++ unitEscape (0xDC00 + (n - 0x10000) % 0x400)

/-- A text value with its quotes. -/
def showText (s : String) : List Char :=
  '"' :: s.toList.flatMap showChar ++ ['"']

/-- A number. Those that are not finite are words. -/
def showNumber : Number.Numeral → List Char
  | .whole n => (toString n).toList
  | .real x =>
    match Number.Shape.ofFloat x with
    | .nan => "NaN".toList
    | .infinite negative => if negative then "-Infinity".toList else "Infinity".toList
    | .finite .. => (Number.text x).toList

mutual

/-- The value on one line. -/
def compact : Json → List Char
  | .null => "null".toList
  | .bool b => (if b then "true" else "false").toList
  | .number n => showNumber n
  | .text s => showText s
  | .array items => '[' :: compactItems true items
  | .object fields => '\x7b' :: compactFields true fields

/-- The rest of an array on one line; `first` tells that no item stands in front. -/
def compactItems (first : Bool) : List Json → List Char
  | [] => [']']
  | item :: rest =>
    (if first then [] else [',', ' ']) ++ compact item ++ compactItems false rest

/-- The rest of an object on one line; `first` tells that no field stands in front. -/
def compactFields (first : Bool) : List (String × Json) → List Char
  | [] => ['\x7d']
  | (name, value) :: rest =>
    (if first then [] else [',', ' ']) ++ showText name ++ [':', ' '] ++ compact value
      ++ compactFields false rest

end

/-- A line feed and the indent of a level. -/
def newLine (level : Nat) : List Char :=
  '\n' :: List.replicate (2 * level) ' '

mutual

/-- The value over several lines, when it starts on a line of the given level. -/
def indentedAt (level : Nat) : Json → List Char
  | .null => "null".toList
  | .bool b => (if b then "true" else "false").toList
  | .number n => showNumber n
  | .text s => showText s
  | .array [] => ['[', ']']
  | .array (item :: rest) =>
    '[' :: newLine (level + 1) ++ indentedAt (level + 1) item ++ indentedItems level rest
  | .object [] => ['\x7b', '\x7d']
  | .object ((name, value) :: rest) =>
    '\x7b' :: newLine (level + 1) ++ showText name ++ [':', ' '] ++ indentedAt (level + 1) value
      ++ indentedFields level rest

/-- The items after the first of an array that was opened at the given level. -/
def indentedItems (level : Nat) : List Json → List Char
  | [] => newLine level ++ [']']
  | item :: rest =>
    ',' :: newLine (level + 1) ++ indentedAt (level + 1) item ++ indentedItems level rest

/-- The fields after the first of an object that was opened at the given level. -/
def indentedFields (level : Nat) : List (String × Json) → List Char
  | [] => newLine level ++ ['\x7d']
  | (name, value) :: rest =>
    ',' :: newLine (level + 1) ++ showText name ++ [':', ' '] ++ indentedAt (level + 1) value
      ++ indentedFields level rest

end

/-- The value over several lines. -/
def indented (j : Json) : String :=
  String.ofList (indentedAt 0 j)

/-- Fields in the order of their names. -/
def sortFields {α : Type} (fields : List (String × α)) : List (String × α) :=
  fields.mergeSort fun a b => decide (a.1 ≤ b.1)

mutual

/-- The value with the fields of every object in the order of their names. -/
def sorted : Json → Json
  | .array items => .array (sortedItems items)
  | .object fields => .object (sortFields (sortedFields fields))
  | j => j

/-- The items, each with its fields in order. -/
def sortedItems : List Json → List Json
  | [] => []
  | item :: rest => sorted item :: sortedItems rest

/-- The fields, each value with its own fields in order. -/
def sortedFields : List (String × Json) → List (String × Json)
  | [] => []
  | (name, value) :: rest => (name, sorted value) :: sortedFields rest

end

end Docwright.Json
