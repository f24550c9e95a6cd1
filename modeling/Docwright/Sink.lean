import Docwright.Files.Disk
import Docwright.Log

/-!
# Where records go

A `Sink` takes the records that matter enough: it shows them on the console and, if it has a file,
adds them there. The file is opened, and made if it is missing, together with the sink.
-/

namespace Docwright

/-- Where records go. -/
structure Sink where
  /-- The level from which on records are taken. -/
  level : Level := .info
  /-- The file that the records are added to. -/
  file : Option Files.Path := none

namespace Sink

/-- The absolute path of a path. Double dots take the name before them away, whatever links there
are. -/
def absolute (d : Files.Disk) (p : Files.Path) : Files.Path :=
  let start := if p.absolute then [] else d.here
  ⟨true, p.parts.foldl (fun done name => if name == ".." then done.dropLast else done ++ [name])
    start⟩

/-- Adds bytes to the end of a file, which is made if it is missing. -/
def appendTo (d : Files.Disk) (p : Files.Path) (bytes : List UInt8) :
    Except Files.FileError Files.Disk :=
  match d.entry p with
  | .ok (.file content) => d.write p (content ++ bytes)
  | _ => d.write p bytes

/-- Opens a sink. The folder of its file is made if it is missing. -/
def openAt (verbose : Bool) (file : Option Files.Path) (d : Files.Disk) :
    Except Files.FileError (Sink × Files.Disk) := do
  let level := if verbose then Level.debug else .info
  match file with
  | none => return ({ level }, d)
  | some p =>
    let (made, d) := d.makeFolders p.parent
    made
    let p := absolute d p
    return ({ level, file := some p }, ← appendTo d p [])

/-- How many places the records go to. -/
def places (s : Sink) : Nat :=
  if s.file.isSome then 2 else 1

/-- The records that are taken. -/
def taken (s : Sink) (log : Log) : Log :=
  log.filter (·.reaches s.level)

/-- What the records make on the console. -/
def console (s : Sink) (log : Log) : String :=
  String.join ((s.taken log).map Record.consoleLine)

/-- Adds the records to the file, as written at the given time. -/
def write (s : Sink) (time : String) (log : Log) (d : Files.Disk) : Files.Disk :=
  match s.file with
  | none => d
  | some p =>
    let lines := String.join ((s.taken log).map (Record.fileLine time))
    match appendTo d p (Text.Utf8.ofString lines) with
    | .ok d => d
    | .error _ => d

end Sink

end Docwright
