import Docwright.Crash
import Docwright.Job
import Docwright.Page.Document
import Docwright.Page.Lint
import Docwright.Site.Navigation

/-!
# Writing the site

`materialize` writes documents below a folder: each page into the folder of its category under a
name of its own, an index page for every category that lacks one, an overview, and sidebars made
from what stands on disk in the end. A page that cannot be written is reported and left out;
everything else is written all the same.

Folders and pages are named by slugs. No page takes the name of a landing page, and within a folder
a name that is taken gets a number.
-/

namespace Docwright.Site

open Docwright.Page

/-- The id of the overview page. -/
def overviewId : String := "overview"

/-- The slug of a category that has none of its own. -/
def otherSlug : String := "other"

/-- What writing the site works on. -/
structure Workshop where
  disk : Files.Disk
  ledger : Ledger

/-- A page that has been written: the document, the slug of its category and its id. -/
structure Written where
  document : Document
  slug : String
  pageId : String

/-- The id of a page before it is told apart from others: a slug that names no landing page. -/
def fileId (id : String) : String :=
  let slug := slugOf id
  let slug := if slug.isEmpty then "document" else slug
  if landingStems.contains slug then slug ++ "-doc" else slug

/-- The ids that a page may get, in order: its own, then with the numbers from two on. -/
def candidate (id : String) (n : Nat) : String :=
  if n == 0 then id else s!"{id}-{n + 1}"

/-- The first candidate that is not taken. There are more candidates than ids that are taken. -/
def freeId (id : String) (taken : List String) : String :=
  (((List.range (taken.length + 1)).map (candidate id)).find? (!taken.contains ·)).getD id

/-- The name of a document's category. -/
def categoryName (category : String) : String :=
  if category.isEmpty then "Other" else category

/-- The slug of a category. -/
def categorySlug (category : String) : String :=
  let slug := slugOf (categoryName category)
  if slug.isEmpty then otherSlug else slug

/-- The text of a page. -/
def pageText (pageId : String) (d : Document) : String :=
  String.ofList <|
    FrontMatter.blockText pageId d.title d.position ++ ['\n'] ++ Lint.lint d.body.toList

/-- The name of the file of a page. -/
def pageFileName (pageId : String) : String :=
  pageId ++ ".md"

/-- Writes a page into the folder at a path, which is made when it is missing. -/
def writePage (disk : Files.Disk) (folder : Files.Path) (pageId : String) (d : Document) :
    Except Files.FileError Unit × Files.Disk :=
  match disk.makeFolders folder with
  | (.error e, disk) => (.error e, disk)
  | (.ok (), disk) =>
    match disk.writeText (folder.child (pageFileName pageId)) (pageText pageId d) with
    | .error e => (.error e, disk)
    | .ok disk => (.ok (), disk)

/-- What is said about a file that cannot be written. -/
def writeFailure (p : Files.Path) (e : Files.FileError) : String :=
  s!"Unable to write {p.text}: {e.message}"

/-- The record about a file that cannot be written. -/
def writeFailureLog (p : Files.Path) (e : Files.FileError) : Log :=
  [⟨.warning, "materializer", writeFailure p e⟩]

/-- Writes a text; a failure is recorded and has no other consequence. -/
def writeOrReport (w : Workshop) (p : Files.Path) (text : String) : Workshop :=
  match w.disk.writeText p text with
  | .ok disk => { w with disk }
  | .error e => { w with ledger := w.ledger.record (writeFailureLog p e) }

/-- What has been done with the documents so far. -/
structure Shelf where
  workshop : Workshop
  /-- The pages that were written, in order. -/
  written : List Written := []
  /-- The slugs of categories with a written page, each with the name that came with it first. -/
  titles : List (String × String) := []
  /-- The page ids that are taken, by category slug. -/
  taken : List (String × List String) := []

/-- Writes one document into the site at `root`. -/
def Shelf.add (root : Files.Path) (job : Option String) (s : Shelf) (d : Document) : Shelf :=
  let slug := categorySlug d.category
  let takenHere := (s.taken.lookup slug).getD []
  let pageId := freeId (fileId d.id) takenHere
  let s := { s with taken := Json.setField s.taken slug (takenHere ++ [pageId]) }
  let folder := root.child slug
  match writePage s.workshop.disk folder pageId d with
  | (.error e, disk) =>
    let p := folder.child (pageFileName pageId)
    let ledger := (s.workshop.ledger.record (writeFailureLog p e)).note job
      s!"Failed to write {d.title}: {writeFailure p e}"
    { s with workshop := ⟨disk, ledger⟩ }
  | (.ok (), disk) =>
    { s with
      workshop := ⟨disk, s.workshop.ledger.note job s!"Wrote {slug}/{pageFileName pageId}"⟩
      written := s.written ++ [⟨d, slug, pageId⟩]
      titles :=
        if (s.titles.lookup slug).isSome then s.titles
        else s.titles ++ [(slug, categoryName d.category)] }

/-- The text of the index page of a category. -/
def indexText (slug category : String) : String :=
  String.ofList (FrontMatter.blockText s!"{slug}-index" category 1) ++
    s!"\n# {category}\n\nThis section contains documentation related to {category}.\n"

/-- Writes the index page of a category unless there is something in its place. It fails only when
that place cannot be looked at. -/
def ensureIndex (root : Files.Path) (w : Workshop) (category : String × String) :
    Except Files.FileError Workshop :=
  let p := (root.child category.1).child "index.md"
  match w.disk.find? p with
  | .ok (some _) => .ok w
  | .ok none => .ok (writeOrReport w p (indexText category.1 category.2))
  | .error e => .error e

/-- Writes the index pages of categories, up to the first whose place cannot be looked at. -/
def ensureIndexes (root : Files.Path) (w : Workshop) :
    List (String × String) → Except Files.FileError Unit × Workshop
  | [] => (.ok (), w)
  | category :: rest =>
    match ensureIndex root w category with
    | .ok w => ensureIndexes root w rest
    | .error e => (.error e, w)

/-- The line of a page on the overview. -/
def overviewEntry (w : Written) : String :=
  let shown := ", ".intercalate ((w.document.sources.take 5).map fun path => s!"`{path}`")
  let more :=
    if 5 < w.document.sources.length then s!" and {w.document.sources.length - 5} more" else ""
  let entry := s!"- [{w.document.title}](./{w.slug}/{pageFileName w.pageId})"
  if w.document.sources.isEmpty then entry else s!"{entry} ({shown}{more})"

/-- Whether a page stands before another on the overview: by category, then by place, then by
id. -/
def comesBefore (a b : Written) : Bool :=
  if a.slug != b.slug then decide (a.slug < b.slug)
  else if a.document.position != b.document.position then
    decide (a.document.position < b.document.position)
  else decide (a.pageId ≤ b.pageId)

/-- The lines of pages that are in order, with a heading wherever the category changes. `current` is
the category of the page before. -/
def overviewLines (titles : List (String × String)) (current : Option String) :
    List Written → List String
  | [] => []
  | w :: rest =>
    let title := (titles.lookup w.slug).getD ""
    let heading := if some w.slug == current then [] else ["", s!"## {title}", ""]
    heading ++ overviewEntry w :: overviewLines titles (some w.slug) rest

/-- The text of the overview page. -/
def overviewText (title : String) (written : List Written) (titles : List (String × String)) :
    String :=
  let summary :=
    if written.isEmpty then "No documentation was generated for this repository."
    else "Documentation generated for each feature of this repository."
  let lines := [s!"# {title}", "", summary] ++
    overviewLines titles none (written.mergeSort comesBefore)
  let body := Text.joinWith ['\n'] (lines.map String.toList)
  String.ofList (FrontMatter.blockText overviewId title 1 ++ ['\n'] ++ Lint.lint body)

/-- The crash of asking for a sidebar in a style that is none. -/
def unknownStyle (style : String) : Crash :=
  .badValue s!"Unknown sidebar style: {style}"

/-- Writes the sidebar of a folder of the site. -/
def writeSidebar (root : Files.Path) (style : SidebarStyle) (fileName : String) (w : Workshop)
    (folder : Listing) : Workshop :=
  writeOrReport w ((root.child folder.name).child fileName)
    (sidebarText style (navigation folder folder.name none))

/-- Writes the sidebars of the site at `root` from what stands there, and makes the navigation. -/
def writeSidebars (root : Files.Path) (style title : String) (w : Workshop) :
    Except Crash NavNode × Workshop :=
  let (log, listing) := readListing w.disk root
  let w := { w with ledger := w.ledger.record log }
  match listing with
  | .error e => (.error (.file e), w)
  | .ok listing =>
    let nav := navigation listing "" (some title)
    match SidebarStyle.ofName? style with
    | none => (.error (unknownStyle style), w)
    | some form =>
      let fileName := SidebarStyle.fileName style
      let w := writeOrReport w (root.child fileName) (sidebarText form nav)
      (.ok nav, listing.folders.foldl (writeSidebar root form fileName) w)

/-- Writes the index pages and the overview of the site at `root`. -/
def writeLandings (root : Files.Path) (title : String) (s : Shelf) :
    Except Files.FileError Unit × Workshop :=
  match ensureIndexes root s.workshop s.titles with
  | (.error e, w) => (.error e, w)
  | (.ok (), w) =>
    (.ok (), writeOrReport w (root.child (pageFileName overviewId))
      (overviewText title s.written s.titles))

/-- Writes the documents below `root` and makes the navigation of the site. -/
def materialize (style : String) (documents : List Document) (root : Files.Path)
    (job : Option String) (title : String) (w : Workshop) : Except Crash NavNode × Workshop :=
  match w.disk.makeFolders root with
  | (.error e, disk) => (.error (.file e), { w with disk })
  | (.ok (), disk) =>
    let shelf := documents.foldl (Shelf.add root job) { workshop := { w with disk } }
    match writeLandings root title shelf with
    | (.error e, w) => (.error (.file e), w)
    | (.ok (), w) => writeSidebars root style title w

end Docwright.Site
