import Docwright.Page.Unit

/-!
# Documents

A document is a page that is ready to be written: its id, title and place in the sidebar, its text,
the files it covers and the category it stands under. Where the text came from is kept for the log.
-/

namespace Docwright.Page

/-- Where the text of a page came from. -/
inductive Origin
  /-- The service, asked with the full prompt. -/
  | service
  /-- The service, asked with the simplified prompt. -/
  | simplified
  /-- The symbols of the unit. -/
  | outline
  /-- The cache. -/
  | cache
  deriving DecidableEq, Repr

/-- The name of an origin. -/
def Origin.name : Origin → String
  | service => "service"
  | simplified => "simplified"
  | outline => "template"
  | cache => "cache"

/-- A page that is ready to be written. -/
structure Document where
  id : String
  title : String
  /-- The place in the sidebar. -/
  position : Int
  body : String
  /-- The files that the page covers. -/
  sources : List String
  category : String := "Other"
  origin : Origin := .service
  deriving DecidableEq, Repr

/-- The document about a unit. -/
def PageUnit.document (u : PageUnit) (body : String) (position : Int) (origin : Origin) :
    Document where
  id := u.pageId
  title := u.label
  position := position
  body := body
  sources := u.files
  category := u.category
  origin := origin

end Docwright.Page
