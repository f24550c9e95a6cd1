import Docwright.Text.Case
import Docwright.Text.Lines
import Docwright.Text.WordChar

/-!
# Slugs

A slug is a text made of word characters and single inner dashes; pages, folders and their ids are
named by slugs. `slug` makes one of any text: the text is put in lower case, everything that is
neither a word character nor a dash becomes a dash, runs of dashes become one, and dashes at the
ends are dropped. `titleOf` turns a slug back into words for a heading.
-/

namespace Docwright.Page

/-- A character that a slug keeps. -/
def isSlugChar (c : Char) : Bool :=
  Text.isWordChar c || c == '-'

/-- Each run of dashes as one dash. -/
def squeezeDashes (cs : List Char) : List Char :=
  Text.foldrNext (fun c next rest => if c == '-' && next == some '-' then rest else c :: rest) [] cs

/-- The text without dashes at either end. -/
def trimDashes (cs : List Char) : List Char :=
  Text.dropRightWhile (· == '-') (cs.dropWhile (· == '-'))

/-- The text with a dash for everything that a slug does not keep. -/
def dashed (cs : List Char) : List Char :=
  cs.map fun c => if isSlugChar c then c else '-'

/-- The slug of a text. -/
def slug (cs : List Char) : List Char :=
  trimDashes (squeezeDashes (dashed (Text.lower cs)))

/-- The slug of a string. -/
def slugOf (s : String) : String :=
  Text.onChars slug s

/-- A character between the words of a slug or a path. -/
def isWordGap (c : Char) : Bool :=
  c == '-' || c == '_' || c == '/' || Text.isBlank c

/-- The words of a slug, each with its first letter in upper case, as a title. -/
def titleOf (s : String) : String :=
  String.ofList <|
    Text.joinWith [' '] ((Text.fieldsBy isWordGap s.toList).map Text.capitalize)

end Docwright.Page
