import Docwright.Text.Blank

/-!
# Lines

There are three ways to cut a text into lines, and the difference between them shows in the output:

* `lines` breaks at every line boundary of Unicode, a carriage return with its line feed counting
  as one, and does not see an empty line after a final break;
* `splitOn '\n'` breaks at line feeds only and always has one part more than there are line feeds;
* `unifyNewlines` turns carriage returns, alone or with their line feed, into line feeds first.

All are folds from the right that look one character ahead (`foldrNext`), so that a text of any
length can be cut.
-/

namespace Docwright.Text

/-- A fold from the right in which each step also sees the character that follows. -/
def foldrNext {β : Type} (f : Char → Option Char → β → β) (start : β) (cs : List Char) : β :=
  (cs.foldr (fun c (s : Option Char × β) => (some c, f c s.1 s.2)) (none, start)).2

private theorem foldrNext_fst {β : Type} (f : Char → Option Char → β → β) (start : β)
    (cs : List Char) :
    (cs.foldr (fun c (s : Option Char × β) => (some c, f c s.1 s.2)) (none, start)).1
      = cs.head? := by
  cases cs <;> rfl

@[simp] theorem foldrNext_nil {β : Type} (f : Char → Option Char → β → β) (start : β) :
    foldrNext f start [] = start := rfl

@[simp] theorem foldrNext_cons {β : Type} (f : Char → Option Char → β → β) (start : β)
    (c : Char) (cs : List Char) :
    foldrNext f start (c :: cs) = f c cs.head? (foldrNext f start cs) := by
  simp [foldrNext, foldrNext_fst]

/-- Puts a character in front of the first of the parts; where there is none it becomes one. -/
def consFirst (c : Char) : List (List Char) → List (List Char)
  | [] => [[c]]
  | part :: parts => (c :: part) :: parts

/-- A character that ends a line. -/
def isLineBreak (c : Char) : Bool :=
  let n := c.toNat
  (10 ≤ n && n ≤ 13) || (0x1C ≤ n && n ≤ 0x1E) || n == 0x85 || n == 0x2028 || n == 0x2029

/-- The lines of a text, without their breaks. -/
def lines (cs : List Char) : List (List Char) :=
  foldrNext (fun c next rest =>
    if c == '\r' && next == some '\n' then rest
    else if isLineBreak c then [] :: rest
    else consFirst c rest) [] cs

/-- The parts of a text between the occurrences of `sep`; a text without any is its only part. -/
def splitOn (sep : Char) (cs : List Char) : List (List Char) :=
  cs.foldr (fun c parts => if c == sep then [] :: parts else consFirst c parts) [[]]

/-- The text with each carriage return and line feed pair as one line feed. -/
def pairsToNewline (cs : List Char) : List Char :=
  foldrNext (fun c next rest => if c == '\r' && next == some '\n' then rest else c :: rest) [] cs

/-- The text with every carriage return, alone or before a line feed, as a line feed. -/
def unifyNewlines (cs : List Char) : List Char :=
  (pairsToNewline cs).map fun c => if c == '\r' then '\n' else c

/-- The lines of a text joined by single spaces. -/
def oneLine (cs : List Char) : List Char :=
  joinWith [' '] (lines cs)

end Docwright.Text
