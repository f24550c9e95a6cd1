/-!
# Trees of files

An `Entry` is a file with its bytes, a folder with its members or a link to another place. `get?`
looks up the entry at a list of names without following links, `put` places one there.
-/

namespace Docwright.Files

/-- What stands at a place in a tree of files. -/
inductive Entry
  /-- A file and its bytes. -/
  | file (bytes : List UInt8)
  /-- A folder and its members by name. -/
  | folder (members : List (String × Entry))
  /-- A link to the place that the text names. -/
  | link (target : String)
  deriving Inhabited

/-- The folder without members. -/
def Entry.emptyFolder : Entry := .folder []

/-- Sets the member of the given name: in its old place when there is one, at the end otherwise. -/
def setMember (members : List (String × Entry)) (name : String) (entry : Entry) :
    List (String × Entry) :=
  match members with
  | [] => [(name, entry)]
  | (n, e) :: rest =>
    if n == name then (n, entry) :: rest else (n, e) :: setMember rest name entry

namespace Entry

/-- The members of a folder. -/
def members? : Entry → Option (List (String × Entry))
  | folder members => some members
  | _ => none

/-- Whether the entry is a folder. -/
def isFolder : Entry → Bool
  | folder _ => true
  | _ => false

/-- Whether the entry is a file. -/
def isFile : Entry → Bool
  | file _ => true
  | _ => false

/-- The entry that the names lead to. Links on the way are not followed. -/
def get? : Entry → List String → Option Entry
  | e, [] => some e
  | folder members, name :: rest => (members.lookup name).bind (get? · rest)
  | _, _ :: _ => none

/-- Places an entry where the names lead. Folders that are missing on the way are made; where
something else than a folder is in the way the tree stays as it is. -/
def put (tree : Entry) (place : List String) (new : Entry) : Entry :=
  match place, tree with
  | [], _ => new
  | name :: rest, folder members =>
    folder (setMember members name (((members.lookup name).getD emptyFolder).put rest new))
  | _ :: _, tree => tree

end Entry

end Docwright.Files
