import Docwright.Text.Blank

/-!
# Reviewing what the service wrote

A text from the service is only used when it has the shape of a page: a page about a feature must be
longer than a given number of characters, a page about a file must also show a code block and an
example. `review` collects everything that is wrong.
-/

namespace Docwright.Page

/-- Something that is wrong with a text. -/
structure Issue where
  /-- The name of the check that found it. -/
  check : String
  /-- What is wrong, in words. -/
  detail : String
  deriving DecidableEq, Repr

/-- A check of a text. -/
inductive Check
  /-- The text has more than so many characters. -/
  | summary (minimum : Int)
  /-- The text has more than so many characters, a code block and an example. -/
  | document (minimum : Int)
  deriving DecidableEq, Repr

namespace Check

/-- What a feature page must exceed unless something else is set. -/
def standardSummary : Int := 50

/-- What a file page must exceed unless something else is set. -/
def standardDocument : Int := 100

/-- The name of a check. -/
def name : Check → String
  | summary _ => "summary_length"
  | document _ => "document_shape"

/-- The number of characters that a text must exceed. -/
def minimum : Check → Int
  | summary n => n
  | document n => n

/-- What is wrong with the length of a text, blanks at its ends not counted. -/
def lengthIssues (c : Check) (cs : List Char) : List Issue :=
  let length := (Text.strip cs).length
  if (length : Int) > c.minimum then []
  else [⟨c.name, s!"{length} characters, expected more than {c.minimum}"⟩]

/-- Everything that a check finds wrong. -/
def issues (c : Check) (cs : List Char) : List Issue :=
  c.lengthIssues cs ++
    match c with
    | summary _ => []
    | document _ =>
      (if Text.occursIn ['`', '`', '`'] cs then [] else [⟨c.name, "no fenced code block"⟩]) ++
      (if Text.occursIn "Example".toList cs then [] else [⟨c.name, "no Example section"⟩])

end Check

/-- Everything that the checks find wrong, in order. -/
def review (checks : List Check) (text : String) : List Issue :=
  checks.flatMap (·.issues text.toList)

/-- What is said about a text that is rejected. -/
def rejection (subject : String) (found : List Issue) : String :=
  s!"Generated text for {subject} rejected: " ++ "; ".intercalate (found.map Issue.detail)

end Docwright.Page
