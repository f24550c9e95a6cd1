import Docwright.Text.Printable
import Docwright.Text.Digit

/-!
# Quoted text

How a message shows a text so that its ends and its unprintable characters can be seen: between
apostrophes, or between quotation marks when it holds an apostrophe and no quotation mark, with
escapes for the backslash, the quote in use, tab, line feed, carriage return and every character
without a glyph.
-/

namespace Docwright.Text

/-- The quote that stands around the text. -/
def quoteFor (cs : List Char) : Char :=
  if cs.contains '\'' && !cs.contains '"' then '"' else '\''

/-- How one character is shown between the given quotes. -/
def showChar (quote : Char) (c : Char) : List Char :=
  if c == '\\' || c == quote then ['\\', c]
  else if c == '\n' then ['\\', 'n']
  else if c == '\r' then ['\\', 'r']
  else if c == '\t' then ['\\', 't']
  else if isPrintable c then [c]
  else
    let n := c.toNat
    if n < 0x100 then '\\' :: 'x' :: hexDigits 2 n
    else if n < 0x10000 then '\\' :: 'u' :: hexDigits 4 n
    else '\\' :: 'U' :: hexDigits 8 n

/-- The text in quotes. -/
def quoted (cs : List Char) : List Char :=
  let quote := quoteFor cs
  quote :: cs.flatMap (showChar quote) ++ [quote]

/-- The string in quotes. -/
def quote (s : String) : String :=
  String.ofList (quoted s.toList)

end Docwright.Text
