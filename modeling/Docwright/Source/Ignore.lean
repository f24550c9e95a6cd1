import Docwright.Text.Lines
import Docwright.Text.Wildcard

/-!
# Ignore rules

A rule names files or folders that are left out, by a wildcard pattern. A slash at its end restricts
it to folders; a slash anywhere else ties it to the whole path instead of to single names. A rule
that is negated takes back what rules before it ignored: a path is ignored exactly when the last
rule that matches it is not negated.
-/

namespace Docwright.Source

/-- A rule about which paths are ignored. -/
structure IgnoreRule where
  /-- The pattern without the slashes at its ends. -/
  pattern : String
  /-- The rule speaks of folders only. -/
  directoryOnly : Bool
  /-- The pattern was written with a slash in front. -/
  anchored : Bool
  /-- The rule takes back what earlier rules ignored. -/
  negate : Bool
  /-- The pattern has a slash inside. -/
  hasSlash : Bool
  deriving DecidableEq, Repr

namespace IgnoreRule

/-- Whether a wildcard pattern accepts a text. -/
def fits (pattern : String) (cs : List Char) : Bool :=
  (Text.Pattern.ofChars pattern.toList).accepts cs

/-- Whether the rule speaks of a path, given from the root of the repository. -/
def covers (r : IgnoreRule) (path : String) (isFolder : Bool) : Bool :=
  if r.pattern.isEmpty || (r.directoryOnly && !isFolder) then false
  else if r.anchored || r.hasSlash then
    fits r.pattern path.toList ||
      (r.directoryOnly && (r.pattern.toList ++ ['/']).isPrefixOf path.toList)
  else (Text.splitOn '/' path.toList).any (fits r.pattern)

/-- The rule a pattern stands for; a blank pattern stands for none. -/
def ofPattern? (pattern : List Char) (negate : Bool) : Option IgnoreRule :=
  let body := Text.strip pattern
  if body.isEmpty then none
  else
    let directoryOnly := body.getLast? == some '/'
    let body := if directoryOnly then body.dropLast else body
    let anchored := body.head? == some '/'
    let body := if anchored then body.drop 1 else body
    some ⟨String.ofList body, directoryOnly, anchored, negate, body.contains '/'⟩

/-- The rule on a line of an ignore file. Blank lines and lines that start with a number sign hold
none, an exclamation mark in front negates. -/
def ofLine? (line : List Char) : Option IgnoreRule :=
  match Text.strip line with
  | [] => none
  | '#' :: _ => none
  | '!' :: rest => ofPattern? rest true
  | body => ofPattern? body false

/-- The rules in the text of an ignore file. -/
def ofText (cs : List Char) : List IgnoreRule :=
  (Text.lines cs).filterMap ofLine?

end IgnoreRule

/-- Whether the rules, taken in order, ignore a path: the last that covers it decides. -/
def isIgnored (rules : List IgnoreRule) (path : String) (isFolder : Bool) : Bool :=
  rules.foldl (fun ignored r => if r.covers path isFolder then !r.negate else ignored) false

end Docwright.Source
