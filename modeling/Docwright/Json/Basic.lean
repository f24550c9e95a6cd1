import Docwright.Number.Basic

/-!
# Structured data

The value that a message, a snapshot or a sidebar is written from and read into. An object keeps its
fields in the order in which their names first came up, and a name stands at most once: a later
value takes the place of the earlier one.
-/

namespace Docwright

/-- Structured data. -/
inductive Json
  | null
  | bool (b : Bool)
  | number (n : Number.Numeral)
  | text (s : String)
  | array (items : List Json)
  | object (fields : List (String × Json))
  deriving Inhabited

namespace Json

/-- Sets the value of a name: in its old place when it is there, at the end when it is new. -/
def setField {α : Type} (fields : List (String × α)) (name : String) (value : α) :
    List (String × α) :=
  match fields with
  | [] => [(name, value)]
  | (n, v) :: rest => if n == name then (n, value) :: rest else (n, v) :: setField rest name value

/-- The value of a field of an object. -/
def field? (name : String) : Json → Option Json
  | object fields => fields.lookup name
  | _ => none

/-- A whole number. -/
def whole (n : Int) : Json := number (.whole n)

/-- The text of a text value. -/
def text? : Json → Option String
  | text s => some s
  | _ => none

/-- The items of an array. -/
def array? : Json → Option (List Json)
  | array items => some items
  | _ => none

/-- The fields of an object. -/
def object? : Json → Option (List (String × Json))
  | object fields => some fields
  | _ => none

end Json

end Docwright
