import Docwright.Config
import Docwright.Source.Ignore

/-!
# Surveying a repository

`Survey.collect` finds the source files below a folder. The files of a folder come before those of
the folders in it, both in the order of their names; folders that tools make and whatever an ignore
rule covers are passed over, and so are folders that are only linked to. Of the files that are
found, those are kept that can be read and are worth documenting.

The rules come from the file `.gitignore`, from the given patterns and from the settings of the
repository, in this order.
-/

namespace Docwright.Source.Survey

/-- Why there are no files. -/
inductive Fault
  /-- There is nothing at the path. -/
  | missing (path : String)
  /-- There is something else than a folder at the path. -/
  | noFolder (path : String)
  /-- Something unexpected happened. -/
  | crashed (crash : Crash)

/-- The fault in words. -/
def Fault.message : Fault → String
  | missing path => s!"Repository path not found: {path}"
  | noFolder path => s!"Repository path is not a directory: {path}"
  | crashed crash => crash.message

/-! ### Rules -/

/-- The rules of the ignore file of a folder. -/
def ignoreFileRules (d : Files.Disk) (root : Files.Path) : Except Crash (List IgnoreRule) :=
  let file := root.child ".gitignore"
  match d.find? file with
  | .error e => .error (.file e)
  | .ok none => .ok []
  | .ok (some _) =>
    match d.readText file with
    | .ok cs => .ok (IgnoreRule.ofText cs)
    | .error (.file e) => .error (.file e)
    | .error (.undecodable _) => .error .undecodable

/-- The patterns that the settings of a folder leave out. Settings that are not accepted leave
nothing out, and a warning is written. -/
def settingsPatterns (read : Config.SettingsReader) (d : Files.Disk) (root : Files.Path) :
    Log × Except Crash (List String) :=
  let file := root.child Config.fileName
  match d.find? file with
  | .error e => ([], .error (.file e))
  | .ok none => ([], .ok [])
  | .ok (some _) =>
    match Config.loadBy read d file with
    | .ok c => ([], .ok c.excluded)
    | .error (.crashed crash) => ([], .error crash)
    | .error (.rejected r) =>
      ([⟨.warning, "scanner", s!"Ignoring exclude_paths from {file.text}: {r.message}"⟩], .ok [])

/-- The rules for a folder. -/
def rules (read : Config.SettingsReader) (d : Files.Disk) (patterns : List String)
    (root : Files.Path) : Log × Except Crash (List IgnoreRule) :=
  match ignoreFileRules d root with
  | .error crash => ([], .error crash)
  | .ok own =>
    let (log, more) := settingsPatterns read d root
    let ofPatterns (ps : List String) :=
      ps.filterMap fun p => IgnoreRule.ofPattern? p.toList false
    (log, more.map fun more => own ++ ofPatterns (patterns ++ more))

/-! ### Walking -/

/-- What a member of a folder brings in. -/
inductive Found
  /-- A file. -/
  | file
  /-- The files in a folder, by their paths. -/
  | folder (paths : List String)

/-- The paths of what the members of a folder bring in: its files by name, then the files in its
folders by the names of these. -/
def ordered (trail : List String) (found : List (String × Found)) : List String :=
  let found := Json.sortFields found
  let files := found.filterMap fun (name, what) =>
    match what with
    | .file => some ("/".intercalate (trail ++ [name]))
    | .folder _ => none
  let below := found.flatMap fun (_, what) =>
    match what with
    | .file => []
    | .folder paths => paths
  files ++ below

mutual

/-- The paths of the files below an entry that the names `trail` lead to. -/
def pathsBelow (d : Files.Disk) (root : Files.Path) (rules : List IgnoreRule)
    (trail : List String) : Files.Entry → List String
  | .folder members => ordered trail (foundAmong d root rules trail members)
  | _ => []

/-- What the members of a folder bring in, each under its name. -/
def foundAmong (d : Files.Disk) (root : Files.Path) (rules : List IgnoreRule)
    (trail : List String) : List (String × Files.Entry) → List (String × Found)
  | [] => []
  | (name, e) :: rest =>
    let place := trail ++ [name]
    let path := "/".intercalate place
    let others := foundAmong d root rules trail rest
    match e with
    | .folder members =>
      if excludedFolders.contains name || isIgnored rules path true then others
      else (name, .folder (ordered place (foundAmong d root rules place members))) :: others
    | .file _ => if isIgnored rules path false then others else (name, .file) :: others
    | .link _ =>
      if d.isFolder ⟨root.absolute, root.parts ++ place⟩ || isIgnored rules path false then others
      else (name, .file) :: others

end

/-! ### Reading -/

/-- The file at a path below `root`, if it is kept, and the records about it. -/
def readFile (d : Files.Disk) (root : Files.Path) (path : String) : Log × Option SourceFile :=
  match d.read (root.join (.ofString path)) with
  | .error e => ([⟨.warning, "scanner", s!"Unable to read {path}: {e.message}"⟩], none)
  | .ok content =>
    let f : SourceFile := ⟨path, content⟩
    if maxBytes < content.length then ([], none)
    else (verdictLog f, if isDocumentable f then some f else none)

/-- The source files below a folder, which messages call `shown`, with a reader for the text of the
settings file. A tilde at the start of the path stands for itself. -/
def collectBy (read : Config.SettingsReader) (d : Files.Disk) (patterns : List String)
    (root : Files.Path) (shown : String) : Log × Except Fault (List SourceFile) :=
  let root := d.resolve root
  match d.find? root with
  | .error e => ([], .error (.crashed (.file e)))
  | .ok none => ([], .error (.missing shown))
  | .ok (some e) =>
    if !e.isFolder then ([], .error (.noFolder shown))
    else
      match rules read d patterns root with
      | (log, .error crash) => (log, .error (.crashed crash))
      | (log, .ok rules) =>
        let read := (pathsBelow d root rules [] e).map (readFile d root)
        let files := read.filterMap (·.2)
        let last : Record :=
          ⟨.info, "scanner", s!"Collected {files.length} source files from {root.text}"⟩
        (log ++ read.flatMap (·.1) ++ [last], .ok files)

/-- The source files below a folder. -/
def collect (d : Files.Disk) (patterns : List String) (root : Files.Path) (shown : String) :
    Log × Except Fault (List SourceFile) :=
  collectBy Yaml.Value.ofText d patterns root shown

end Docwright.Source.Survey
