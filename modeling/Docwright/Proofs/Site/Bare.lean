import Docwright.Proofs.Site.Listing
import Docwright.Proofs.Site.PageId

/-!
# The bare run

`Bare.run` is what `materialize` does to the tree below the destination, without the disk around it
and without jobs, clock and log. It is made of the same steps, each a write that happens where the
ground grants it. `materialize_eq_bare` says that the two agree: same navigation or failure, same
tree, and the log tells of every page that could not be written.

All that is proved about the site is proved about the bare run, a function of the tree and of the
pages alone.
-/

namespace Docwright.Site

open Files

/-- The names of the file of a page below the destination. -/
def Written.names (p : Written) : List String :=
  [p.slug, pageFileName p.pageId]

/-- What is written to the file of a page. -/
def Written.bytes (p : Written) : List UInt8 :=
  Text.Utf8.ofString (pageText p.pageId p.document)

/-- The slugs of pages, each with the name of the category of its first page. -/
def titlesOf (pages : List Written) : List (String × String) :=
  pages.foldl (fun titles p ↦
    if (titles.lookup p.slug).isSome then titles
    else titles ++ [(p.slug, categoryName p.document.category)]) []

theorem titlesOf_append (pages : List Written) (p : Written) :
    titlesOf (pages ++ [p])
      = if ((titlesOf pages).lookup p.slug).isSome then titlesOf pages
        else titlesOf pages ++ [(p.slug, categoryName p.document.category)] := by
  rw [titlesOf, List.foldl_append, ← titlesOf]
  rfl

namespace Bare

variable (g : Ground)

/-- Whether a page can be written. -/
def shelves (site : Entry) (p : Written) : Bool :=
  g.opens site p.slug && g.grants (g.make site p.slug) p.names

/-- The tree after a page. Its folder is made even when it cannot be written itself. -/
def shelve (site : Entry) (p : Written) : Entry :=
  if g.opens site p.slug then g.write (g.make site p.slug) p.names p.bytes else site

/-- The tree and the pages that were written, after one more page. -/
def shelveNext (s : Entry × List Written) (p : Written) : Entry × List Written :=
  (shelve g s.1 p, if shelves g s.1 p then s.2 ++ [p] else s.2)

/-- The tree after all pages, and those that were written. -/
def shelveAll (site : Entry) (pages : List Written) : Entry × List Written :=
  pages.foldl (shelveNext g) (site, [])

/-- The names of the index page of a category. -/
def indexNames (slug : String) : List String := [slug, "index.md"]

/-- The tree after the index page of a category. -/
def index (site : Entry) (category : String × String) : Except FileError Entry :=
  if g.fits (indexNames category.1) then
    .ok (if (site.get? (indexNames category.1)).isSome then site
      else g.write site (indexNames category.1)
        (Text.Utf8.ofString (indexText category.1 category.2)))
  else .error ⟨.nameTooLong, (g.path.along (indexNames category.1)).text⟩

/-- The tree after the index pages of categories, up to the first whose place cannot be looked
at. -/
def indexes (site : Entry) : List (String × String) → Except FileError Unit × Entry
  | [] => (.ok (), site)
  | category :: rest =>
    match index g site category with
    | .ok site => indexes site rest
    | .error e => (.error e, site)

/-- The tree after the overview. -/
def overview (title : String) (written : List Written) (site : Entry) : Entry :=
  g.write site [pageFileName overviewId]
    (Text.Utf8.ofString (overviewText title written (titlesOf written)))

/-- The tree after files with the given names and bytes. -/
def writeAll (site : Entry) (files : List (List String × List UInt8)) : Entry :=
  files.foldl (fun site file ↦ g.write site file.1 file.2) site

/-- The sidebars of the site and of its folders, each with its names. -/
def sidebarTexts (form : SidebarStyle) (fileName : String) (nav : NavNode) (listing : Listing) :
    List (List String × String) :=
  ([fileName], sidebarText form nav) :: listing.folders.map fun folder ↦
    ([folder.name, fileName], sidebarText form (navigation folder folder.name none))

/-- Texts as bytes. -/
def filesOf (texts : List (List String × String)) : List (List String × List UInt8) :=
  texts.map fun text ↦ (text.1, Text.Utf8.ofString text.2)

/-- The bytes of the sidebars. -/
def sidebarFiles (form : SidebarStyle) (fileName : String) (nav : NavNode) (listing : Listing) :
    List (List String × List UInt8) :=
  filesOf (sidebarTexts form fileName nav listing)

/-- The navigation and the tree after all sidebars. -/
def sidebars (style title : String) (site : Entry) : Except Crash NavNode × Entry :=
  let listing := listingOf g.path.name site
  let nav := navigation listing "" (some title)
  match SidebarStyle.ofName? style with
  | none => (.error (unknownStyle style), site)
  | some form =>
    (.ok nav, writeAll g site (sidebarFiles form (SidebarStyle.fileName style) nav listing))

/-- The tree after the index pages and the overview. -/
def landings (title : String) (written : List Written) (site : Entry) :
    Except FileError Unit × Entry :=
  match indexes g site (titlesOf written) with
  | (.error e, site) => (.error e, site)
  | (.ok (), site) => (.ok (), overview g title written site)

/-- The navigation and the tree after all that comes after the pages. -/
def finish (style title : String) (written : List Written) (site : Entry) :
    Except Crash NavNode × Entry :=
  match landings g title written site with
  | (.error e, site) => (.error (.file e), site)
  | (.ok (), site) => sidebars g style title site

/-- What becomes of the tree below the destination, and the navigation. -/
def run (style title : String) (pages : List Written) (site : Entry) :
    Except Crash NavNode × Entry :=
  let (site, written) := shelveAll g site pages
  finish g style title written site

/-! ### What is denied -/

/-- The names, if a file may not be written there. -/
def deniedAt (site : Entry) (ns : List String) : List (List String) :=
  if g.grants site ns then [] else [ns]

/-- The names of the pages that cannot be written. -/
def deniedPages (site : Entry) (pages : List Written) : List (List String) :=
  (pages.filter fun p ↦ !shelves g site p).map Written.names

/-- The names of the index pages that are missing and cannot be written. -/
def deniedIndexes (site : Entry) : List (String × String) → List (List String)
  | [] => []
  | category :: rest =>
    match index g site category with
    | .ok site' =>
      (if (site.get? (indexNames category.1)).isSome then []
        else deniedAt g site (indexNames category.1)) ++ deniedIndexes site' rest
    | .error _ => []

/-- The names of the files that cannot be written, of files that are written one after the other. -/
def deniedFiles (site : Entry) : List (List String × List UInt8) → List (List String)
  | [] => []
  | file :: rest => deniedAt g site file.1 ++ deniedFiles (g.write site file.1 file.2) rest

/-- The names of the landing pages that cannot be written. -/
def deniedLandings (written : List Written) (site : Entry) : List (List String) :=
  deniedIndexes g site (titlesOf written) ++
    match indexes g site (titlesOf written) with
    | (.error _, _) => []
    | (.ok (), site) => deniedAt g site [pageFileName overviewId]

/-- The names of the sidebars that cannot be written. -/
def deniedSidebars (style title : String) (site : Entry) : List (List String) :=
  let listing := listingOf g.path.name site
  match SidebarStyle.ofName? style with
  | none => []
  | some form => deniedFiles g site (sidebarFiles form (SidebarStyle.fileName style)
      (navigation listing "" (some title)) listing)

/-- **The names of all files that the bare run cannot write.** -/
def denied (style title : String) (pages : List Written) (site : Entry) : List (List String) :=
  let (shelf, written) := shelveAll g site pages
  deniedPages g site pages ++ (deniedLandings g written shelf ++
    match landings g title written shelf with
    | (.error _, _) => []
    | (.ok (), site) => deniedSidebars g style title site)

end Bare

end Docwright.Site
