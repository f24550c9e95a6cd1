import Docwright.Json.Basic
import Docwright.Number.Reading

/-!
# Whole numbers in structured data

Where a whole number is asked for, other values are taken at their worth: a real number without its
fraction, a text by what it spells, true and false as one and zero.
-/

namespace Docwright.Json

/-- The whole number that a value is worth. -/
def toWhole : Json → Except Number.Fault Int
  | .null => .error (.wrongKind "NoneType")
  | .bool b => .ok (if b then 1 else 0)
  | .number (.whole n) => .ok n
  | .number (.real x) =>
    match Number.truncate? x with
    | some n => .ok n
    | none => .error (if x == x then .infinite else .notANumber)
  | .text s => Number.wholeOf s
  | .array _ => .error (.wrongKind "list")
  | .object _ => .error (.wrongKind "dict")

end Docwright.Json
