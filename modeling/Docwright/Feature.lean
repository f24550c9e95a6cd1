import Docwright.Log
import Docwright.Outline.Symbol
import Docwright.Source.Name

/-!
# Features

Outlined files are grouped into features by keywords. A file belongs to the first feature of a table
with a keyword that occurs in the folder of the file; failing that in its name, failing that in the
names of its symbols written one after the other; failing all of them it belongs to `Other`.
Keywords are compared with lower-case text.

Groups stand in the order of the table, each once even when the table repeats its feature, and empty
groups are left out.
-/

namespace Docwright.Feature

/-- Features and their keywords, in order of precedence. -/
abbrev Table := List (String × List String)

/-- The feature of files that belong to none of a table. -/
def other : String := "Other"

/-- The features that files are grouped into unless a table is given. -/
def standardTable : Table := [
  ("Authentication", ["auth", "login", "register", "password", "user", "jwt", "token"]),
  ("API", ["api", "endpoint", "route", "controller", "handler", "router", "server"]),
  ("Database",
    ["db", "database", "model", "schema", "query", "repository", "orm", "sql", "migration"]),
  ("UI Components",
    ["component", "view", "page", "template", "ui", "frontend", "react", "jsx", "tsx"]),
  ("Styling", ["style", "css", "scss", "styled", "theme"]),
  ("Utilities", ["util", "helper", "common", "shared", "tools"]),
  ("Testing", ["test", "spec", "mock", "benchmark"]),
  ("Configuration", ["config", "setting", "env", "flags"]),
  ("Security", ["security", "permission", "role", "encrypt", "crypto"]),
  ("Logging", ["log", "logger", "trace", "debug"]),
  ("Middleware", ["middleware", "interceptor", "filter"]),
  ("CLI", ["cmd", "cli", "command", "flag"]),
  ("HTTP", ["http", "client", "request", "response"]),
  ("JSON", ["json", "marshal", "unmarshal"]),
  ("Validation", ["validate", "validator", "validation"]),
  ("Error Handling", ["error", "err", "exception"]),
  ("State Management", ["store", "state", "redux", "context", "provider"]),
  ("Hooks", ["hook", "use"])]

/-- The first feature of the table with a keyword in the text; an empty text has none. -/
def inText? (table : Table) (cs : List Char) : Option String :=
  if cs.isEmpty then none
  else (table.find? fun (_, keywords) => keywords.any fun k => Text.occursIn k.toList cs).map (·.1)

/-- The texts of a file in which keywords are looked for, in order. -/
def haystacks (o : Outline) : List (List Char) :=
  let path := Text.lower (Source.withSlashes o.path.toList)
  [Source.folderName path, Source.baseName path,
    Text.lower ((o.symbolNames.map String.toList).flatten)]

/-- The feature of a file. -/
def of (table : Table) (o : Outline) : String :=
  ((haystacks o).findSome? (inText? table)).getD other

/-- The features of a table without repetitions, and `Other`, which stands last unless the table has
it. -/
def names (table : Table) : List String :=
  (table.map (·.1) ++ [other]).eraseDups

/-- The groups that files fall into: features in order, each with its files in order. -/
def groups (table : Table) (files : List Outline) : List (String × List Outline) :=
  ((names table).map fun name => (name, files.filter fun o => of table o == name)).filter
    fun (_, members) => !members.isEmpty

/-- The records that are written while files are grouped. -/
def groupingLog (table : Table) (files : List Outline) : Log :=
  files.map fun o => ⟨.debug, "classifier", s!"Classified {o.path} as {of table o}"⟩

end Docwright.Feature
