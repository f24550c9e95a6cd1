import Docwright.Page.FrontMatter

/-!
# Linting pages

Text from the service is brought into one form before it is written: line feeds between lines, no
front matter of its own, no blanks at the ends of lines, single blank lines between paragraphs, a
blank line before every heading, and every fenced code block closed. Inside a fenced block blank
lines are kept as they are.

`Lint.step` takes one line; what it remembers is the fence that is open, whether the line before was
blank, and the lines so far, latest first.
-/

namespace Docwright.Page.Lint

/-- The fence on a line: the number of its ticks and what stands behind them. -/
def fence? (line : List Char) : Option (Nat × List Char) :=
  let body := Text.stripLeft line
  let ticks := (body.takeWhile (· == '`')).length
  if 3 ≤ ticks then some (ticks, body.drop ticks) else none

/-- What the linter remembers between two lines. -/
structure State where
  /-- The lines so far, latest first. -/
  found : List (List Char)
  /-- The number of ticks of the fence that is open. -/
  openFence : Option Nat
  /-- Whether the line before was a blank line outside a fenced block. -/
  afterBlank : Bool

/-- Before the first line. -/
def State.start : State := ⟨[], none, false⟩

/-- Whether the lines so far end with an empty one, or there are none. -/
def State.atBreak (s : State) : Bool :=
  match s.found with
  | [] => true
  | line :: _ => line.isEmpty

/-- Takes a line outside a fenced block that is no fence. -/
def State.prose (s : State) (line : List Char) : State :=
  if line.isEmpty then
    if s.afterBlank || s.found.isEmpty then s
    else { s with found := [] :: s.found, afterBlank := true }
  else
    let found := if line.head? == some '#' && !s.atBreak then [] :: s.found else s.found
    { s with found := line :: found, afterBlank := false }

/-- Takes a line. -/
def State.step (s : State) (raw : List Char) : State :=
  let line := Text.stripRight raw
  match s.openFence, fence? line with
  | none, some (ticks, _) => ⟨line :: s.found, some ticks, false⟩
  | none, none => s.prose line
  | some opened, some (ticks, info) =>
    if opened ≤ ticks && (Text.strip info).isEmpty then ⟨line :: s.found, none, false⟩
    else ⟨line :: s.found, some opened, false⟩
  | some opened, none => ⟨line :: s.found, some opened, false⟩

/-- The lines, latest first, once a fence that is still open has been closed. Blank lines before the
closing fence are dropped. -/
def State.closed (s : State) : List (List Char) :=
  match s.openFence with
  | none => s.found
  | some ticks => List.replicate ticks '`' :: s.found.dropWhile List.isEmpty

/-- All lines, in order, without empty ones at the end. -/
def State.finish (s : State) : List (List Char) :=
  (s.closed.dropWhile List.isEmpty).reverse

/-- What the linter works on: the text with line feeds only, without line feeds at its start, and
without front matter. -/
def bodyOf (cs : List Char) : List Char :=
  (FrontMatter.split ((Text.unifyNewlines cs).dropWhile (· == '\n'))).2

/-- The lines of the linted text. -/
def linesOf (body : List Char) : List (List Char) :=
  ((Text.splitOn '\n' body).foldl State.step State.start).finish

/-- The linted text. -/
def lint (cs : List Char) : List Char :=
  Text.joinWith ['\n'] (linesOf (bodyOf cs)) ++ ['\n']

end Docwright.Page.Lint
