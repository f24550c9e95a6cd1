import Docwright.Files.Entry
import Docwright.Files.Path
import Docwright.Text.Quoted
import Docwright.Text.Utf8

/-!
# The disk

A disk is a tree of files with a working folder. Every operation first finds the place that a path
names (`Disk.locate`), following links and the two dots of a parent, and then looks at or changes
the entry there. What can go wrong is a `Trouble` with its system code; an operation that fails
reports the path it was given.

A disk may refuse changes: `refuses` names the trouble that writing at a place meets. A refused
change leaves the disk as it was.
-/

namespace Docwright.Files

/-- Why the system refuses an operation: its code and its words. -/
structure Trouble where
  /-- The number the system gives the trouble. -/
  code : Nat
  /-- The trouble in words. -/
  words : String
  deriving DecidableEq, Repr

namespace Trouble

/-- There is nothing at the place. -/
def missing : Trouble := ⟨2, "No such file or directory"⟩
/-- There is something at the place already. -/
def taken : Trouble := ⟨17, "File exists"⟩
/-- Something on the way is not a folder. -/
def notFolder : Trouble := ⟨20, "Not a directory"⟩
/-- There is a folder at the place. -/
def isFolder : Trouble := ⟨21, "Is a directory"⟩
/-- A name on the way, or the whole path, is too long. -/
def nameTooLong : Trouble := ⟨36, "File name too long"⟩
/-- Too many links lead on from one another. -/
def tooManyLinks : Trouble := ⟨40, "Too many levels of symbolic links"⟩

/-- The troubles that have names of their own, by code. -/
def classNames : List (Nat × String) := [
  (1, "PermissionError"), (2, "FileNotFoundError"), (3, "ProcessLookupError"),
  (4, "InterruptedError"), (10, "ChildProcessError"), (11, "BlockingIOError"),
  (13, "PermissionError"), (17, "FileExistsError"), (20, "NotADirectoryError"),
  (21, "IsADirectoryError"), (32, "BrokenPipeError"), (103, "ConnectionAbortedError"),
  (104, "ConnectionResetError"), (108, "BrokenPipeError"), (110, "TimeoutError"),
  (111, "ConnectionRefusedError"), (114, "BlockingIOError"), (115, "BlockingIOError")]

/-- The name by which messages call a trouble. -/
def className (t : Trouble) : String :=
  (classNames.lookup t.code).getD "OSError"

end Trouble

/-- A failed operation: what went wrong and the path it was asked for. -/
structure FileError where
  trouble : Trouble
  path : String
  deriving DecidableEq, Repr

/-- The failure in words. -/
def FileError.message (e : FileError) : String :=
  s!"[Errno {e.trouble.code}] {e.trouble.words}: {Text.quote e.path}"

/-- A tree of files with a working folder. -/
structure Disk where
  /-- The root folder. -/
  tree : Entry
  /-- The names that lead from the root to the working folder. -/
  here : List String
  /-- The trouble that a change at a place meets, if any. -/
  refuses : List String → Option Trouble := fun _ => none

namespace Disk

/-- The most links that are followed on one way. -/
def linkLimit : Nat := 40

/-- The most bytes a name may have. -/
def nameLimit : Nat := 255

/-- The most bytes a path may have. -/
def pathLimit : Nat := 4095

/-- The names from which a path sets out, when relative paths set out from `relative`. -/
def startOf (relative : List String) (p : Path) : List String :=
  if p.absolute then [] else relative

/-- Goes on from the folder `done` along `todo`. The answer is the place reached: its folder is
there, itself it may be missing. A link at the very end is followed only when `follow` is set, and
at most `budget` links are followed in all. -/
def walk (tree : Entry) (follow : Bool) (budget : Nat) (done todo : List String) :
    Except Trouble (List String) :=
  match todo with
  | [] => .ok done
  | name :: rest =>
    if name == ".." then walk tree follow budget done.dropLast rest
    else if nameLimit < name.utf8ByteSize then .error .nameTooLong
    else
      let place := done ++ [name]
      match tree.get? place with
      | none => if rest.isEmpty then .ok place else .error .missing
      | some (.folder _) => walk tree follow budget place rest
      | some (.file _) => if rest.isEmpty then .ok place else .error .notFolder
      | some (.link target) =>
        if rest.isEmpty && !follow then .ok place
        else
          match budget with
          | 0 => .error .tooManyLinks
          | budget + 1 =>
            let target := Path.ofString target
            walk tree follow budget (startOf done target) (target.parts ++ rest)
termination_by (budget, todo.length)

/-- The place that a path names. -/
def locate (d : Disk) (follow : Bool) (p : Path) : Except Trouble (List String) :=
  if pathLimit < p.text.utf8ByteSize then .error .nameTooLong
  else walk d.tree follow linkLimit (startOf d.here p) p.parts

/-- The entry at the place that a path names, all links followed; a trouble when there is none. -/
def entry (d : Disk) (p : Path) : Except Trouble Entry :=
  match d.locate true p with
  | .error trouble => .error trouble
  | .ok place =>
    match d.tree.get? place with
    | some e => .ok e
    | none => .error .missing

/-- Whether a trouble only says that nothing can be found at a path. -/
def meansAbsent (t : Trouble) : Bool :=
  t == .missing || t == .notFolder || t == .tooManyLinks

/-- The entry at a path, if there is one. Troubles that say more than that are failures. -/
def find? (d : Disk) (p : Path) : Except FileError (Option Entry) :=
  match d.entry p with
  | .ok e => .ok (some e)
  | .error t => if meansAbsent t then .ok none else .error ⟨t, p.text⟩

/-- The bytes of the file at a path. -/
def read (d : Disk) (p : Path) : Except FileError (List UInt8) :=
  match d.entry p with
  | .ok (.file bytes) => .ok bytes
  | .ok _ => .error ⟨.isFolder, p.text⟩
  | .error t => .error ⟨t, p.text⟩

/-- The members of the folder at a path. -/
def members (d : Disk) (p : Path) : Except FileError (List (String × Entry)) :=
  match d.entry p with
  | .ok (.folder members) => .ok members
  | .ok _ => .error ⟨.notFolder, p.text⟩
  | .error t => .error ⟨t, p.text⟩

/-- Writes a file, whether there was one or not. -/
def write (d : Disk) (p : Path) (bytes : List UInt8) : Except FileError Disk :=
  match d.locate true p with
  | .error t => .error ⟨t, p.text⟩
  | .ok place =>
    match d.tree.get? place with
    | some (.folder _) => .error ⟨.isFolder, p.text⟩
    | _ =>
      match d.refuses place with
      | some t => .error ⟨t, p.text⟩
      | none => .ok { d with tree := d.tree.put place (.file bytes) }

/-- Makes the folder at a path, whose own folder must be there. -/
def makeFolder (d : Disk) (p : Path) : Except FileError Disk :=
  match d.locate false p with
  | .error t => .error ⟨t, p.text⟩
  | .ok place =>
    match d.tree.get? place with
    | some _ => .error ⟨.taken, p.text⟩
    | none =>
      match d.refuses place with
      | some t => .error ⟨t, p.text⟩
      | none => .ok { d with tree := d.tree.put place .emptyFolder }

/-- Whether there is a folder at a path. -/
def isFolder (d : Disk) (p : Path) : Bool :=
  match d.entry p with
  | .ok e => e.isFolder
  | .error _ => false

/-- Whether there is a file at a path. -/
def isFile (d : Disk) (p : Path) : Bool :=
  match d.entry p with
  | .ok e => e.isFile
  | .error _ => false

/-- Makes the folder at a path, whose own folder must be there; one that is there already will
do. -/
def ensureFolder (d : Disk) (p : Path) : Except FileError Unit × Disk :=
  match d.makeFolder p with
  | .ok d => (.ok (), d)
  | .error e => (if d.isFolder p then .ok () else .error e, d)

/-- Makes the folder that `shown`, the reverse of a list of names, leads to, and all folders on the
way; a folder that is there already will do. What was made before a failure stays. -/
def makeFoldersTo (d : Disk) (absolute : Bool) : List String → Except FileError Unit × Disk
  | [] => d.ensureFolder ⟨absolute, []⟩
  | name :: rest =>
    let p : Path := ⟨absolute, (name :: rest).reverse⟩
    match d.makeFolder p with
    | .ok d => (.ok (), d)
    | .error e =>
      if e.trouble == .missing then
        match makeFoldersTo d absolute rest with
        | (.error e, d) => (.error e, d)
        | (.ok (), d) => d.ensureFolder p
      else (if d.isFolder p then .ok () else .error e, d)

/-- Makes the folder at a path and all folders on the way; one that is there already will do. -/
def makeFolders (d : Disk) (p : Path) : Except FileError Unit × Disk :=
  d.makeFoldersTo p.absolute p.parts.reverse

/-- Goes along `todo` as far as links lead and takes the rest of the names as they stand. -/
def resolveFrom (tree : Entry) (budget : Nat) (done todo : List String) : List String :=
  match todo with
  | [] => done
  | name :: rest =>
    if name == ".." then resolveFrom tree budget done.dropLast rest
    else
      let place := done ++ [name]
      match tree.get? place with
      | some (.link target) =>
        match budget with
        | 0 => place ++ rest
        | budget + 1 =>
          let target := Path.ofString target
          resolveFrom tree budget (startOf done target) (target.parts ++ rest)
      | _ => resolveFrom tree budget place rest
termination_by (budget, todo.length)

/-- The absolute path without links and parents that names the same place. -/
def resolve (d : Disk) (p : Path) : Path :=
  ⟨true, resolveFrom d.tree linkLimit (startOf d.here p) p.parts⟩

/-- Why a file cannot be read as text. -/
inductive TextFault
  /-- The file cannot be read. -/
  | file (e : FileError)
  /-- The bytes are not well formed. -/
  | undecodable (fault : Text.Utf8.Fault)
  deriving DecidableEq, Repr

/-- The text of the file at a path, every line ending as a line feed. -/
def readText (d : Disk) (p : Path) : Except TextFault (List Char) :=
  match d.read p with
  | .error e => .error (.file e)
  | .ok bytes =>
    match Text.Utf8.decode? bytes with
    | .error fault => .error (.undecodable fault)
    | .ok cs => .ok (Text.unifyNewlines cs)

mutual

/-- What stands below an entry that the names `trail` lead to from the working folder: the bytes of
each file, and each folder by a path with a slash at its end. Links count as what they lead to, but
nothing is listed below them; links that lead nowhere are left out. -/
def contentsBelow (d : Disk) (trail : List String) : Entry → List (String × Option (List UInt8))
  | .folder members => contentsOf d trail members
  | _ => []

/-- What stands at and below the members of a folder. -/
def contentsOf (d : Disk) (trail : List String) :
    List (String × Entry) → List (String × Option (List UInt8))
  | [] => []
  | (name, e) :: rest =>
    let place := trail ++ [name]
    let path := "/".intercalate place
    let here := match e with
      | .file bytes => [(path, some bytes)]
      | .folder members => (path ++ "/", none) :: contentsOf d place members
      | .link _ =>
        match d.entry ⟨false, place⟩ with
        | .ok (.file bytes) => [(path, some bytes)]
        | .ok _ => [(path ++ "/", none)]
        | .error _ => []
    here ++ contentsOf d trail rest

end

/-- What stands below the working folder, in the order of the paths. -/
def contents (d : Disk) : List (String × Option (List UInt8)) :=
  (d.contentsBelow [] ((d.tree.get? d.here).getD .emptyFolder)).mergeSort fun a b =>
    decide (a.1 ≤ b.1)

/-- Writes a text. -/
def writeText (d : Disk) (p : Path) (text : String) : Except FileError Disk :=
  d.write p (Text.Utf8.ofString text)

end Disk

end Docwright.Files
