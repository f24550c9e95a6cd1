import Docwright.Crash
import Docwright.Page.Slug

/-!
# Front matter

A page starts with a block between two lines of three dashes that gives its id, its title and its
place in the sidebar. `render` writes the block, unless the place has more digits than are written;
`split` takes the block off any text and reads its fields.

A value stands in quotation marks, and what would end or break the value early has a backslash in
front; reading drops one pair of quotes around a value and then every backslash that has a character
behind it.
-/

namespace Docwright.Page.FrontMatter

/-- The line that opens and closes the block. -/
def delimiter : List Char := ['-', '-', '-']

/-- The characters that are written with a backslash in front. -/
def escaped : List Char := ['\\', '"', ':', '\x7b', '\x7d', '[', ']', '|']

/-- A text with its backslashes and signs escaped. -/
def escape (cs : List Char) : List Char :=
  cs.flatMap fun c => if escaped.contains c then ['\\', c] else [c]

/-- A text as a value of the block: escaped and on one line. -/
def value (cs : List Char) : List Char :=
  Text.oneLine (escape cs)

/-- The text of the block for a page with the given id, title and place. -/
def blockText (id title : String) (position : Int) : List Char :=
  delimiter ++ ['\n'] ++
    "id: \"".toList ++ slug id.toList ++ ['"', '\n'] ++
    "title: \"".toList ++ value title.toList ++ ['"', '\n'] ++
    "sidebar_position: ".toList ++ (toString position).toList ++ ['\n'] ++
    delimiter ++ ['\n']

/-- Writes the block. Whole numbers with more than 4300 digits are not written. -/
def render (id title : String) (position : Int) : Except Crash (List Char) :=
  if (Number.Numeral.whole position).isTooLong then .error .tooLongToWrite
  else .ok (blockText id title position)

/-- The fields of a block, by name, in the order in which the names first come up. -/
abbrev Fields := List (String × String)

/-- Drops every backslash that has a character other than a line feed behind it. -/
def unescape : List Char → List Char
  | [] => []
  | [c] => [c]
  | c :: d :: rest =>
    if c == '\\' && d != '\n' then d :: unescape rest else c :: unescape (d :: rest)

/-- A value without the quotes around it. -/
def unquote (cs : List Char) : List Char :=
  match cs with
  | q :: rest =>
    if !rest.isEmpty && (q == '"' || q == '\'') && rest.getLast? == some q then rest.dropLast
    else cs
  | [] => []

/-- The name and the value on a line of the block. -/
def field? (line : List Char) : Option (String × String) :=
  match line.span (· != ':') with
  | (name, _ :: raw) =>
    let name := Text.strip name
    if name.isEmpty then none
    else some (String.ofList name, String.ofList (unescape (unquote (Text.strip raw))))
  | (_, []) => none

/-- Sets a field, in its old place when it is there. -/
def setField (fields : Fields) (name value : String) : Fields :=
  match fields with
  | [] => [(name, value)]
  | (n, v) :: rest => if n == name then (n, value) :: rest else (n, v) :: setField rest name value

/-- The fields on the lines of the block. -/
def fieldsOf (lines : List (List Char)) : Fields :=
  (lines.filterMap field?).foldl (fun fields (name, value) => setField fields name value) []

/-- Whether a line closes the block. -/
def closes (line : List Char) : Bool :=
  Text.strip line == delimiter

/-- Splits a text into the fields of its block and what follows; a text without a whole block at its
start has no fields and stays as it is. -/
def split (cs : List Char) : Fields × List Char :=
  let normal := Text.pairsToNewline cs
  match Text.splitOn '\n' normal with
  | first :: rest =>
    if first == delimiter && !rest.isEmpty then
      match rest.span (fun line => !closes line) with
      | (block, _ :: body) => (fieldsOf block, Text.joinWith ['\n'] body)
      | (_, []) => ([], cs)
    else ([], cs)
  | [] => ([], cs)

end Docwright.Page.FrontMatter
