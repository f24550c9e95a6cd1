import Docwright.Files.Disk
import Docwright.Json.Printer
import Docwright.Log
import Docwright.Page.FrontMatter

/-!
# Navigation

The sidebar of a site is a tree of pages and categories that is made from the folder of the site
alone. A `Listing` is what the sidebar needs to know of a folder: the stem of each page with the id
and the title of its front matter, and the listings of the folders inside. `Listing.node` makes the
category of a listing: landing pages first, then the other pages by stem, then the folders by name,
where folders without any page are left out.
-/

namespace Docwright.Site

/-- A page as the sidebar sees it. -/
structure PageFile where
  /-- The name of the file without its suffix. -/
  stem : String
  /-- The id of its front matter. -/
  id : Option String := none
  /-- The title of its front matter. -/
  title : Option String := none
  deriving DecidableEq, Repr

/-- What the sidebar needs to know of a folder. -/
inductive Listing
  | mk (name : String) (files : List PageFile) (folders : List Listing)
  deriving Inhabited

namespace Listing

/-- The name of the folder. -/
def name : Listing → String
  | mk name _ _ => name

/-- The pages in the folder. -/
def files : Listing → List PageFile
  | mk _ files _ => files

/-- The folders in the folder. -/
def folders : Listing → List Listing
  | mk _ _ folders => folders

end Listing

/-- A node of the sidebar. -/
inductive NavNode
  /-- A page. -/
  | doc (id label : String)
  /-- A category with its items. -/
  | category (label : String) (items : List NavNode)
  deriving Inhabited

namespace NavNode

/-- The items of a category. -/
def items : NavNode → List NavNode
  | doc .. => []
  | category _ items => items

/-- The label of a node. -/
def label : NavNode → String
  | doc _ label => label
  | category label _ => label

mutual

/-- The node as structured data. -/
def toJson : NavNode → Json
  | doc id label => .object [("type", .text "doc"), ("id", .text id), ("label", .text label)]
  | category label items =>
    .object [
      ("type", .text "category"), ("label", .text label), ("items", .array (toJsonAll items))]

/-- The nodes of a list as structured data. -/
def toJsonAll : List NavNode → List Json
  | [] => []
  | n :: rest => toJson n :: toJsonAll rest

end

end NavNode

/-- The stems of the pages that come first, in order. -/
def landingStems : List String := ["index", "overview"]

/-- The label of those pages. -/
def landingLabel : String := "Overview"

/-- The path of a page or folder inside the folder that `base` leads to. -/
def under (base name : String) : String :=
  if base.isEmpty then name else base ++ "/" ++ name

/-- A text that is set to something, or else another. -/
def orElse (s : Option String) (other : String) : String :=
  match s with
  | some s => if s.isEmpty then other else s
  | none => other

namespace PageFile

/-- The id of a page inside the folder that `base` leads to. -/
def nodeId (base : String) (f : PageFile) : String :=
  under base (orElse f.id f.stem)

/-- The node of a landing page. -/
def landingNode (base : String) (f : PageFile) : NavNode :=
  .doc (f.nodeId base) landingLabel

/-- The node of any other page. -/
def node (base : String) (f : PageFile) : NavNode :=
  .doc (f.nodeId base) (orElse f.title (Page.titleOf f.stem))

end PageFile

/-- The nodes of the pages in a folder: landing pages in their order, the others by stem. -/
def pageNodes (base : String) (files : List PageFile) : List NavNode :=
  landingStems.flatMap (fun stem =>
    (files.filter (·.stem == stem)).map (PageFile.landingNode base)) ++
  ((files.filter fun f => !landingStems.contains f.stem).mergeSort
    fun f g => decide (f.stem ≤ g.stem)).map (PageFile.node base)

/-- The label of a category: the title of its index page or else the title made of its name. -/
def categoryLabel (name : String) (files : List PageFile) : String :=
  match files.findSome? fun f =>
      if f.stem == "index" then f.title.filter (!·.isEmpty) else none with
  | some title => title
  | none => Page.titleOf name

mutual

/-- The category of a folder, whose pages have the given path in front of their ids. -/
def Listing.node (base : String) : Listing → NavNode
  | .mk name files folders =>
    .category (categoryLabel name files) (pageNodes base files ++
      (((Listing.nodesOf base folders).mergeSort fun a b => decide (a.1 ≤ b.1)).map (·.2)).filter
        fun n => !n.items.isEmpty)

/-- The categories of folders inside the folder that `base` leads to, with their names. -/
def Listing.nodesOf (base : String) : List Listing → List (String × NavNode)
  | [] => []
  | l :: rest =>
    (l.name, Listing.node (under base l.name) l) :: Listing.nodesOf base rest

end

/-- The category of a folder under a label of its own, where one is given. -/
def navigation (l : Listing) (base : String) (label : Option String) : NavNode :=
  let n := l.node base
  .category (orElse label n.label) n.items

/-- The forms in which a sidebar can be written. -/
inductive SidebarStyle
  | json
  | script
  deriving DecidableEq, Repr

namespace SidebarStyle

/-- The style with the given name. -/
def ofName? (s : String) : Option SidebarStyle :=
  if s == "json" then some json else if s == "js" then some script else none

/-- The name of the file of a sidebar whose style has the given name. -/
def fileName (style : String) : String :=
  if style == "js" then "sidebar.js" else "sidebar.json"

end SidebarStyle

/-- The text of the sidebar of a category. -/
def sidebarText (style : SidebarStyle) (n : NavNode) : String :=
  let items := Json.indented (.array (NavNode.toJsonAll n.items))
  match style with
  | .script => s!"module.exports = {items};\n"
  | .json => items ++ "\n"

/-- The page that a file holds: its stem and what its front matter says. A file that is not text has
no front matter, and a record says so. -/
def pageFile (shown : Files.Path) (bytes : List UInt8) : Log × PageFile :=
  let stem := Files.stemOf shown.name
  match Text.Utf8.decode? bytes with
  | .error fault =>
    ([⟨.warning, "navigation",
      s!"Ignoring front matter of unreadable page {shown.text}: {fault.message}"⟩], { stem })
  | .ok cs =>
    let fields := (Page.FrontMatter.split (Text.unifyNewlines cs)).1
    ([], {
      stem
      id := (fields.lookup "id").filter (!·.isEmpty)
      title := (fields.lookup "title").filter (!·.isEmpty) })

/-- What has been listed of a folder so far. -/
structure Listed where
  log : Log := []
  files : List PageFile := []
  folders : List Listing := []

/-- Adds what was listed of the rest of a folder. -/
def Listed.append (a b : Listed) : Listed :=
  ⟨a.log ++ b.log, a.files ++ b.files, a.folders ++ b.folders⟩

/-- What a file adds to the listing of its folder: a page when it has the suffix of pages. -/
def listFile (shown : Files.Path) (bytes : List UInt8) : Listed :=
  if Files.suffixOf shown.name == ".md" then
    let (log, f) := pageFile shown bytes
    { log, files := [f] }
  else {}

/-- Lists the members of the folder that is shown as `shown` and stands at `place`. Links are
followed, at most `budget` of them into one another. -/
def listMembers (disk : Files.Disk) (budget : Nat) (shown : Files.Path) :
    List (String × Files.Entry) → Listed
  | [] => {}
  | (name, .file bytes) :: rest =>
    (listFile (shown.child name) bytes).append (listMembers disk budget shown rest)
  | (name, .folder members) :: rest =>
    let inner := listMembers disk budget (shown.child name) members
    Listed.append ⟨inner.log, [], [.mk name inner.files inner.folders]⟩
      (listMembers disk budget shown rest)
  | (name, .link _) :: rest =>
    let here : Listed :=
      match budget, disk.entry (shown.child name) with
      | budget + 1, .ok (.folder members) =>
        let inner := listMembers disk budget (shown.child name) members
        ⟨inner.log, [], [.mk name inner.files inner.folders]⟩
      | _, .ok (.file bytes) => listFile (shown.child name) bytes
      | _, _ => {}
    here.append (listMembers disk budget shown rest)
termination_by members => (budget, sizeOf members)

/-- The listing of the folder at a path. -/
def readListing (disk : Files.Disk) (p : Files.Path) : Log × Except Files.FileError Listing :=
  match disk.members p with
  | .error e => ([], .error e)
  | .ok members =>
    let found := listMembers disk Files.Disk.linkLimit p members
    (found.log, .ok (.mk p.name found.files found.folders))

end Docwright.Site
