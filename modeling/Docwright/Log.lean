/-!
# Log records

What the parts of the program report while they work. A record names the component that wrote it;
the root logger has no component. Records are kept in the order in which they were written, and the
level that is asked for is applied only when they are shown.
-/

namespace Docwright

/-- How much a record matters. -/
inductive Level
  | debug
  | info
  | warning
  | error
  | critical
  deriving DecidableEq, Repr

namespace Level

/-- The rank of a level: a greater number matters more. -/
def rank : Level → Nat
  | debug => 10
  | info => 20
  | warning => 30
  | error => 40
  | critical => 50

/-- The name of a level. -/
def name : Level → String
  | debug => "DEBUG"
  | info => "INFO"
  | warning => "WARNING"
  | error => "ERROR"
  | critical => "CRITICAL"

/-- The level with the given name. -/
def ofName? (s : String) : Option Level :=
  [debug, info, warning, error, critical].find? (·.name == s)

end Level

/-- One report of a component. -/
structure Record where
  level : Level
  /-- The component that wrote the record; empty for the root logger. -/
  component : String
  message : String
  deriving DecidableEq, Repr

/-- The records of a run, in order. -/
abbrev Log := List Record

namespace Record

/-- The name of the root logger. -/
def rootName : String := "docforge"

/-- The full name of the logger that wrote the record. -/
def loggerName (r : Record) : String :=
  if r.component.isEmpty then rootName else rootName ++ "." ++ r.component

/-- The record as a line on the console. -/
def consoleLine (r : Record) : String :=
  s!"[{rootName}] {r.level.name} {r.message}\n"

/-- The record as a line of a log file, written at the given time. The root logger stands under its
own name. -/
def fileLine (time : String) (r : Record) : String :=
  let component := if r.component.isEmpty then rootName else r.component
  s!"{time} {r.level.name} {component}: {r.message}\n"

/-- Whether the record matters at least as much as `level`. -/
def reaches (level : Level) (r : Record) : Bool :=
  decide (level.rank ≤ r.level.rank)

end Record

end Docwright
