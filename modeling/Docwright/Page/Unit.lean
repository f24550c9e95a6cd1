import Docwright.Json.Printer
import Docwright.Page.Slug
import Docwright.Source.Language
import Docwright.Outline.Symbol

/-!
# Units

A unit is what one page is written about: a feature with its outlined files, or a single file. Its
content is what the service gets to see: the outlines as indented structured data for a feature, the
source text for a file.
-/

namespace Docwright.Page

/-- What a unit is made of. -/
inductive UnitKind
  /-- The files of a feature. -/
  | group
  /-- A single file. -/
  | file
  /-- Something for which there are no prompts of its own. -/
  | other (name : String)
  deriving DecidableEq, Repr

namespace UnitKind

/-- The name of a kind. -/
def name : UnitKind → String
  | group => "group"
  | file => "file"
  | other name => name

/-- The kind with the given name. -/
def ofName (s : String) : UnitKind :=
  if s == "group" then group else if s == "file" then file else other s

end UnitKind

/-- What one page is written about. -/
structure PageUnit where
  kind : UnitKind
  /-- The title of the page. -/
  label : String
  /-- The category under which the page stands. -/
  category : String
  /-- The files that the page covers. -/
  files : List String
  /-- What the service gets to see. -/
  content : String
  /-- The outlines of the files. -/
  outlines : List Outline := []

namespace PageUnit

/-- The unit of a feature. -/
def ofGroup (feature : String) (outlines : List Outline) : PageUnit where
  kind := .group
  label := feature
  category := feature
  files := outlines.map Outline.path
  content := Json.indented (.array (outlines.map Outline.toJson))
  outlines := outlines

/-- The unit of a single file with its source text. -/
def ofFile (outline : Outline) (source category : String) : PageUnit where
  kind := .file
  label := Text.onChars Source.baseName outline.path
  category := category
  files := [outline.path]
  content := source
  outlines := [outline]

/-- The id of the page: the slug of the path of a single file without its extension, otherwise the
slug of the label. -/
def pageId (u : PageUnit) : String :=
  match u.kind, u.files with
  | .file, path :: _ => Text.onChars (fun cs => slug (Source.splitExtension cs).1) path
  | _, _ => slugOf u.label

end PageUnit

end Docwright.Page
