import Docwright.Text.CodeSet

/-!
# Blanks

Which characters are white space, and the operations that depend on nothing else: taking blanks off
the ends of a text, and cutting a text into words at its runs of blanks. All of them work on the
list of characters of a text.
-/

namespace Docwright.Text

/-- White space: the controls from tab to carriage return and from the file separator on, the
space, the next-line control, and the spaces and line separators of Unicode. -/
def blankChars : CodeSet := ⟨[
  0x09, 0x0E, 0x1C, 0x21, 0x85, 0x86, 0xA0, 0xA1, 0x1680, 0x1681, 0x2000, 0x200B,
  0x2028, 0x202A, 0x202F, 0x2030, 0x205F, 0x2060, 0x3000, 0x3001]⟩

/-- Whether the character is white space. -/
def isBlank (c : Char) : Bool :=
  blankChars.mem c

/-- The text without the characters at its end that satisfy `p`. -/
def dropRightWhile (p : Char → Bool) (cs : List Char) : List Char :=
  (cs.reverse.dropWhile p).reverse

/-- The text without blanks at its start. -/
def stripLeft (cs : List Char) : List Char :=
  cs.dropWhile isBlank

/-- The text without blanks at its end. -/
def stripRight (cs : List Char) : List Char :=
  dropRightWhile isBlank cs

/-- The text without blanks at either end. -/
def strip (cs : List Char) : List Char :=
  stripRight (stripLeft cs)

/-- The maximal runs of characters that do not satisfy `p`. -/
def fieldsBy (p : Char → Bool) (cs : List Char) : List (List Char) :=
  let go := cs.foldr (fun c (s : List Char × List (List Char)) =>
    if p c then ([], if s.1.isEmpty then s.2 else s.1 :: s.2) else (c :: s.1, s.2)) ([], [])
  if go.1.isEmpty then go.2 else go.1 :: go.2

/-- The words of a text: its maximal runs of characters that are not blank. -/
def words (cs : List Char) : List (List Char) :=
  fieldsBy isBlank cs

/-- The list joined into one text with `sep` between neighbours. -/
def joinWith (sep : List Char) (parts : List (List Char)) : List Char :=
  List.intercalate sep parts

/-- Applies a function on lists of characters to a string. -/
def onChars (f : List Char → List Char) (s : String) : String :=
  String.ofList (f s.toList)

/-- Whether `part` occurs in the text as a contiguous piece; the empty piece always does. -/
def occursIn (part : List Char) : List Char → Bool
  | [] => part.isEmpty
  | c :: rest => part.isPrefixOf (c :: rest) || occursIn part rest

end Docwright.Text
