import Docwright.Crash
import Docwright.Digest
import Docwright.Job
import Docwright.Json.Printer
import Docwright.Page.Unit

/-!
# The cache of pages

Texts that passed review are kept under a key, so that a unit that has not changed is not asked
about again. The key is the digest of the unit's kind, label, files and the start of its content,
each ended by a zero byte.

A cache may have a snapshot on disk. It is read when the cache is opened and written by `persist`
when anything was stored since. A snapshot that cannot be made sense of counts as empty; entries
keep whatever fields the snapshot holds for them.
-/

namespace Docwright

/-- The start of a text: `count` characters, or all but the last `-count` when it is negative. -/
def startOfText (cs : List Char) (count : Int) : List Char :=
  if 0 ≤ count then cs.take count.toNat else cs.take (cs.length - count.natAbs)

/-- The bytes that a key is the digest of. -/
def keyBytes (kind label : String) (files : List String) (content : String) (count : Int) :
    List UInt8 :=
  let part (cs : List Char) : List UInt8 := Text.Utf8.encode cs ++ [0]
  part kind.toList ++ part label.toList ++
    part (Text.joinWith ['\n'] (files.map String.toList)) ++
    part (startOfText content.toList count)

/-- The key of a page: the digest in hexadecimal. -/
def pageKey (kind label : String) (files : List String) (content : String) (count : Int) : String :=
  String.ofList <|
    (Digest.sha256 (keyBytes kind label files content count)).flatMap fun b =>
      Text.hexDigits 2 b.toNat

/-- The key of the page about a unit. -/
def keyOf (u : Page.PageUnit) (count : Int) : String :=
  pageKey u.kind.name u.label u.files u.content count

/-- The fields of an entry of the cache. -/
abbrev CacheEntry := List (String × Json)

/-- The text of an entry. -/
def CacheEntry.body? (e : CacheEntry) : Option String :=
  (e.lookup "body").bind Json.text?

/-- Texts by key, perhaps with a snapshot on disk. -/
structure Cache where
  entries : List (String × CacheEntry) := []
  /-- Where the snapshot is. -/
  path : Option Files.Path := none
  /-- Whether anything was stored since the snapshot was read or written. -/
  dirty : Bool := false
  /-- Whether entries carry the time at which they were stored. -/
  stamped : Bool := true

namespace Cache

/-- The number of entries. -/
def size (c : Cache) : Nat := c.entries.length

/-- Whether there is an entry under the key. -/
def contains (c : Cache) (key : String) : Bool :=
  (c.entries.lookup key).isSome

/-- The text under the key. -/
def get? (c : Cache) (key : String) : Option String :=
  (c.entries.lookup key).bind CacheEntry.body?

/-- Keeps a text under a key, with the time at which it was stored. -/
def store (c : Cache) (key body : String) (moment : Moment) : Cache :=
  let time := if c.stamped then [("updated_at", .text moment.stamp)] else []
  { c with entries := Json.setField c.entries key (("body", .text body) :: time), dirty := true }

/-- Whether a value is the version of snapshots: the number one, however it is written. -/
def isVersion : Json → Bool
  | .number (.whole n) => n == 1
  | .number (.real x) => x == 1.0
  | .bool b => b
  | _ => false

/-- The entries of a snapshot: those that are objects and have a text. -/
def entriesOf (snapshot : Json) : List (String × CacheEntry) :=
  if ((snapshot.field? "version").map isVersion).getD false then
    (((snapshot.field? "entries").bind Json.object?).getD []).filterMap fun (key, value) =>
      value.object?.bind fun fields =>
        if (CacheEntry.body? fields).isSome then some (key, fields) else none
  else []

/-- The record about a snapshot that cannot be read. -/
def unreadableLog (p : Files.Path) (reason : String) : Log :=
  [⟨.warning, "cache", s!"Ignoring unreadable generation cache {p.text}: {reason}"⟩]

/-- Opens a cache with a snapshot at the given place, which need not be there. -/
def openAt (disk : Files.Disk) (p : Files.Path) : Log × Except Crash Cache :=
  let empty : Cache := { path := some p }
  match disk.readText p with
  | .error (.file e) =>
    if e.trouble == .missing then ([], .ok empty) else (unreadableLog p e.message, .ok empty)
  | .error (.undecodable _) => ([], .error .undecodable)
  | .ok cs =>
    match Json.parse cs with
    | .ok snapshot => ([], .ok { empty with entries := entriesOf snapshot })
    | .error fault =>
      match Crash.ofJson? fault with
      | some crash => ([], .error crash)
      | none => (unreadableLog p "not structured data", .ok empty)

/-- The snapshot of a cache. -/
def snapshot (c : Cache) : Json :=
  .object [
    ("version", .whole 1),
    ("entries", .object (c.entries.map fun (key, fields) => (key, .object fields)))]

/-- The text of the snapshot: indented, with all names in order. -/
def snapshotText (c : Cache) : String :=
  Json.indented c.snapshot.sorted

/-- Writes the snapshot if there is a place for it and anything was stored since the last time. The
folder for it may have been made even when writing fails. -/
def persist (c : Cache) (disk : Files.Disk) : Except Files.FileError Cache × Files.Disk :=
  match c.path, c.dirty with
  | some p, true =>
    match disk.makeFolders p.parent with
    | (.error e, disk) => (.error e, disk)
    | (.ok (), disk) =>
      match disk.writeText p c.snapshotText with
      | .error e => (.error e, disk)
      | .ok disk => (.ok { c with dirty := false }, disk)
  | _, _ => (.ok c, disk)

end Cache

end Docwright
