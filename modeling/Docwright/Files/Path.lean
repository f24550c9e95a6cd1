import Docwright.Text.Lines

/-!
# Paths

A path is a list of names, absolute or relative. Reading a path drops empty names and single dots,
so that equal places written with more or fewer slashes are one path; two dots are kept, because
what they mean depends on the links on the way. The empty path is written as a dot.

The name of a file splits into a stem and a suffix at its last dot, provided that something stands
on both sides of it.
-/

namespace Docwright.Files

/-- A path in a tree of files. -/
structure Path where
  /-- Whether the path starts at the root of the tree. -/
  absolute : Bool
  /-- The names on the way, outermost first. -/
  parts : List String
  deriving DecidableEq, Repr

namespace Path

/-- Reads a path. -/
def ofString (s : String) : Path :=
  let names := (Text.splitOn '/' s.toList).filter fun part => !(part.isEmpty || part == ['.'])
  ⟨s.startsWith "/", names.map String.ofList⟩

/-- The path as text. -/
def text (p : Path) : String :=
  if p.absolute then "/" ++ "/".intercalate p.parts
  else if p.parts.isEmpty then "."
  else "/".intercalate p.parts

/-- The path that leads on from `p`; an absolute one starts afresh. -/
def join (p q : Path) : Path :=
  if q.absolute then q else ⟨p.absolute, p.parts ++ q.parts⟩

/-- The place with the given name in the folder `p`. -/
def child (p : Path) (name : String) : Path :=
  ⟨p.absolute, p.parts ++ [name]⟩

/-- The folder in which the path ends. -/
def parent (p : Path) : Path :=
  ⟨p.absolute, p.parts.dropLast⟩

/-- The last name of the path, empty when there is none. -/
def name (p : Path) : String :=
  p.parts.getLast?.getD ""

end Path

/-- Splits a name into stem and suffix at its last dot. A dot at either end of the name splits
nothing. -/
def splitName (name : List Char) : List Char × List Char :=
  let back := name.reverse
  let suffix := (back.takeWhile (· != '.')).reverse
  match back.dropWhile (· != '.') with
  | '.' :: stem =>
    if stem.isEmpty || suffix.isEmpty then (name, []) else (stem.reverse, '.' :: suffix)
  | _ => (name, [])

/-- The name without its suffix. -/
def stemOf (name : String) : String :=
  String.ofList (splitName name.toList).1

/-- The suffix of a name with its dot, empty when there is none. -/
def suffixOf (name : String) : String :=
  String.ofList (splitName name.toList).2

end Docwright.Files
