import Docwright.Command.Execute
import Std.Time.DateTime.Timestamp

/-!
# The program

`main` reads the files that a command line can reach, carries the command out with
`Command.execute` and hands on what comes of it: the console, the changed files and the status.

From here no service can be reached or offered and no grammar is at hand: every source file is taken
to have an empty tree, in which nothing is declared.
-/

namespace Docwright.Program

/-- The file, folder or link of the system at a place, and what stands below it. What cannot be read
is left out; a link is taken to lead straight to where it ends. -/
partial def load? (place : IO.FS.DirEntry) : IO (Option Files.Entry) := do
  try
    match (← place.path.symlinkMetadata).type with
    | .dir =>
      let mut members := #[]
      for member in ← place.path.readDir do
        if let some e ← load? member then
          members := members.push (member.fileName, e)
      return some (.folder members.toList)
    | .file => return some (.file (← IO.FS.readBinFile place.path).toList)
    | .symlink => return some (.link (← IO.FS.realPath place.path).toString)
    | .other => return none
  catch _ => return none

/-- Adds what stands at an absolute path of the system, and a link to it when the path leads over
one. -/
def addFrom (d : Files.Disk) (path : Files.Path) : IO Files.Disk := do
  try
    let actual := Files.Path.ofString (← IO.FS.realPath path.text).toString
    match ← load? ⟨"/", actual.text⟩ with
    | none => return d
    | some e =>
      let tree := d.tree.put actual.parts e
      return { d with
        tree := if actual == path then tree else tree.put path.parts (.link actual.text) }
  catch _ => return d

/-- The disk with the working folder and all that the words of a command line may name. -/
def disk (words : List String) : IO Files.Disk := do
  let here := Files.Path.ofString (← IO.currentDir).toString
  let mut d : Files.Disk := { tree := .emptyFolder, here := here.parts }
  for text in "." :: words.flatMap (·.splitOn "=") do
    d ← addFrom d (Sink.absolute d (.ofString text))
  return d

/-- Makes and writes the folders and files that have changed. -/
partial def save (path : String) (before : Option Files.Entry) : Files.Entry → IO Unit
  | .folder members => do
    unless before.any (·.isFolder) do
      IO.FS.createDirAll path
    for (name, e) in members do
      save s!"{path}/{name}" ((before.bind (·.members?)).bind (·.lookup name)) e
  | .file bytes => do
    let kept := match before with
      | some (.file old) => old == bytes
      | _ => false
    unless kept do
      IO.FS.writeBinFile path bytes.toByteArray
  | .link _ => pure ()

/-- The values of the names in the environment that describe an endpoint. -/
def environment : IO Service.Environment := do
  let names := Service.Environment.modelNames ++ Service.Environment.addressNames ++
    Service.Environment.keyNames
  names.filterMapM fun name => do
    return (← IO.getEnv name).map fun value => (name, value)

/-- The seconds from the beginning of 1970 to the beginning of 2024. -/
def secondsBefore2024 : Nat := 1704067200

/-- The status with which the program ends, and its last words. -/
def lastWords : Command.Ending → UInt32 × String
  | .status code words => (code.toUInt32, words)
  | .crash c => (1, c.message ++ "\n")
  | .rejected r => (1, r.message ++ "\n")

end Docwright.Program

open Docwright Docwright.Program in
/-- Carries out the command line. -/
def main (words : List String) : IO UInt32 := do
  let milliseconds := (← Std.Time.Timestamp.now).toMillisecondsSinceUnixEpoch.val.toNat
  let clock : Moment := ⟨milliseconds / 1000 - secondsBefore2024⟩
  let before ← disk words
  let (outcome, shown, after) := Command.execute {
      environment := ← environment
      trees := fun _ _ => default
      responses := fun _ _ => .broken (.unreachable "no network")
      time := clock.logStamp (milliseconds % 1000) }
    words { disk := before, clock }
  save "" (some before.tree) after.disk.tree
  let (code, words) := lastWords outcome.ending
  IO.print outcome.stdout
  IO.eprint (shown ++ words)
  return code
