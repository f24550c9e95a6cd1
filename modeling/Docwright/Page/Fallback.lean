import Docwright.Page.Unit

/-!
# Pages without the service

When the service cannot deliver, the page is made from the symbols that are known anyway: a heading,
a note on the reason, the symbols of each file as nested bullets, and for a single file the start of
its source in a fenced block that no run of ticks in the source can close.
-/

namespace Docwright.Page.Fallback

/-- How many characters of the source are shown. -/
def excerptLength : Nat := 1000

/-- How many characters a reason may have. -/
def reasonLength : Nat := 200

/-- A reason on one line, cut when it is too long, without dots at its end. -/
def reasonText (reason : String) : List Char :=
  let cleaned := Text.joinWith [' '] (Text.words reason.toList)
  let cut :=
    if reasonLength < cleaned.length then
      Text.stripRight (cleaned.take (reasonLength - 3)) ++ ['.', '.', '.']
    else cleaned
  Text.dropRightWhile (· == '.') cut

/-- The lines of a symbol, in words. -/
def spanText (s : Symbol) : String :=
  if s.startLine == s.endLine then s!"line {s.startLine}"
  else s!"lines {s.startLine}-{s.endLine}"

/-- The bullet of a symbol. -/
def bullet (depth : Nat) (s : Symbol) : String :=
  let label := String.ofList (s.label.toList.map fun c => if c == '_' then ' ' else c)
  "".pushn ' ' (2 * depth) ++ s!"- `{s.name}` ({label}, {spanText s})"

mutual

/-- The bullets of a symbol and of what it owns. -/
def bullets (depth : Nat) : Symbol → List String
  | .mk kind name startLine endLine children exported =>
    bullet depth (.mk kind name startLine endLine children exported) ::
      bulletsAll (depth + 1) children

/-- The bullets of the symbols of a list and of what they own. -/
def bulletsAll (depth : Nat) : List Symbol → List String
  | [] => []
  | s :: rest => bullets depth s ++ bulletsAll depth rest

end

/-- The length of the longest run of ticks in a text. -/
def longestTicks (cs : List Char) : Nat :=
  let runs := cs.foldl (fun (s : Nat × Nat) c =>
    -- the longest run so far and the length of the run that ends here
    if c == '`' then (max s.1 (s.2 + 1), s.2 + 1) else (s.1, 0)) (0, 0)
  runs.1

/-- A fence that no run of ticks in the text can close. -/
def fenceFor (cs : List Char) : String :=
  "".pushn '`' (max 3 (longestTicks cs + 1))

/-- The section of a file: its path and the bullets of its symbols. -/
def fileLines (o : Outline) : List String :=
  ["", s!"## `{o.path}`", ""] ++ bulletsAll 0 o.symbols

/-- The section with the start of the source. -/
def excerptLines (path content : String) : List String :=
  let source := content.toList
  let excerpt := Text.stripRight (source.take excerptLength)
  let fence := fenceFor excerpt
  ["", "## Source Excerpt", "", fence ++ Source.fenceWord (Source.languageName path),
    String.ofList excerpt] ++
    (if excerptLength < source.length then ["..."] else []) ++ [fence]

/-- The lines before the sections of the files. -/
def headLines (u : PageUnit) (reason : Option String) : List String :=
  let noun := if u.kind == .group then "feature" else "file"
  let note := (reason.map reasonText).getD []
  [s!"# {u.label}", "", "## Overview", "",
    s!"This {noun} could not be documented automatically. The outline below lists the " ++
      "declarations found in the source; refer to the code for details."] ++
    (if note.isEmpty then [] else ["", s!"_Generation note: {String.ofList note}._"])

/-- All lines of the page. -/
def pageLines (u : PageUnit) (reason : Option String) : List String :=
  headLines u reason ++ u.outlines.flatMap fileLines ++
    match u.kind, u.files with
    | .file, path :: _ => excerptLines path u.content
    | _, _ => []

/-- The page. -/
def page (u : PageUnit) (reason : Option String) : String :=
  let body := Text.joinWith ['\n'] ((pageLines u reason).map String.toList)
  String.ofList (Text.strip body ++ ['\n'])

end Docwright.Page.Fallback
