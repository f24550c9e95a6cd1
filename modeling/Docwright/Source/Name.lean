import Docwright.Text.Lines
import Docwright.Text.Case

/-!
# Names in a repository

Files of a repository are named by texts with slashes between folders. The functions here take such
a text apart by its characters alone, without a tree of files behind it.
-/

namespace Docwright.Source

/-- The part of a name after its last slash. -/
def baseName (cs : List Char) : List Char :=
  (cs.reverse.takeWhile (· != '/')).reverse

/-- The part of a name before its last slash, without slashes at its end unless it has nothing
else. -/
def folderName (cs : List Char) : List Char :=
  let head := (cs.reverse.dropWhile (· != '/')).reverse
  if head.all (· == '/') then head else Text.dropRightWhile (· == '/') head

/-- Splits a name before the last dot of its last part; dots at the start of that part do not
count. -/
def splitExtension (cs : List Char) : List Char × List Char :=
  let base := baseName cs
  let extension := (base.reverse.takeWhile (· != '.')).reverse
  let stem := base.take (base.length - extension.length - 1)
  if base.contains '.' && stem.any (· != '.') then
    (cs.take (cs.length - extension.length - 1), '.' :: extension)
  else (cs, [])

/-- The lower-case extension of the last part of a name, with its dot; empty when there is no
dot. -/
def extensionOf (cs : List Char) : List Char :=
  let base := baseName cs
  if base.contains '.' then
    '.' :: Text.lower (base.reverse.takeWhile (· != '.')).reverse
  else []

/-- The name with slashes where it has backslashes. -/
def withSlashes (cs : List Char) : List Char :=
  cs.map fun c => if c == '\\' then '/' else c

end Docwright.Source
