import Docwright.Log
import Docwright.Source.File

/-!
# Screening

Not every file of a repository is worth documenting. A file is left out when a folder on its way or
its own name marks it as made by a tool, when it is too large, when it looks like binary data, or
when its text looks minified. `verdict` says which of these is met first.
-/

namespace Docwright.Source

/-- Folders whose files are made by tools or belong to others. -/
def excludedFolders : List String :=
  ["node_modules", ".git", "dist", "build", "target", "out", "bin", "obj", ".next", "coverage",
    "vendor"]

/-- Endings of the names of files that tools make. -/
def artifactEndings : List String := [".min.js", ".map", ".bundle.js"]

/-- The most bytes a file may have. -/
def maxBytes : Nat := 1000000

/-- The most characters a line of written text may have. -/
def maxLine : Nat := 500

/-- Whether the name alone rules a file out. -/
def isExcluded (path : String) : Bool :=
  let parts := Text.splitOn '/' (withSlashes path.toList)
  parts.dropLast.any (fun part => excludedFolders.contains (String.ofList part)) ||
    artifactEndings.any (·.toList.isSuffixOf (Text.lower (parts.getLast?.getD [])))

/-- A control byte other than tab, line feed and carriage return. -/
def isControlByte (b : UInt8) : Bool :=
  b < 32 && !(b == 9 || b == 10 || b == 13)

/-- Whether bytes look like binary data: there is a zero byte, or more than one byte in ten is a
control. -/
def looksBinary (bytes : List UInt8) : Bool :=
  bytes.contains 0 || decide (bytes.length < 10 * bytes.countP isControlByte)

/-- Whether a text looks minified: it has a line that is too long, or fewer than one character in
ten is a blank. -/
def looksMinified (cs : List Char) : Bool :=
  !cs.isEmpty &&
    ((Text.lines cs).any (fun line => decide (maxLine < line.length)) ||
      decide (10 * cs.countP Text.isBlank < cs.length))

/-- What screening finds. -/
inductive Verdict
  /-- The file is worth documenting. -/
  | keep
  /-- The name rules the file out. -/
  | excluded
  /-- The file has too many bytes. -/
  | tooLarge
  /-- The bytes look like binary data. -/
  | binary
  /-- The text looks minified. -/
  | minified
  deriving DecidableEq, Repr

/-- What screening finds first. -/
def verdict (f : SourceFile) : Verdict :=
  if isExcluded f.path then .excluded
  else if maxBytes < f.content.length then .tooLarge
  else if looksBinary f.content then .binary
  else if looksMinified (Text.Utf8.decodeLossy f.content) then .minified
  else .keep

/-- The reason that is reported for a file that is left out; nothing is said about excluded
names. -/
def Verdict.report? : Verdict → Option String
  | keep => none
  | excluded => none
  | tooLarge => some s!"larger than {maxBytes} bytes"
  | binary => some "binary content"
  | minified => some "minified content"

/-- The record that is written about a file that is left out. -/
def verdictLog (f : SourceFile) : Log :=
  match (verdict f).report? with
  | some reason => [⟨.debug, "scanner", s!"Skipping {f.path}: {reason}"⟩]
  | none => []

/-- Whether a file is worth documenting. -/
def isDocumentable (f : SourceFile) : Bool :=
  verdict f == .keep

/-- The files that are worth documenting, in order. -/
def documentable (files : List SourceFile) : List SourceFile :=
  files.filter isDocumentable

/-- The records about the files that are left out. -/
def screeningLog (files : List SourceFile) : Log :=
  files.flatMap verdictLog

end Docwright.Source
