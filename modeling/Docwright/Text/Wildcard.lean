/-!
# Wildcard patterns

A pattern is a text in which `*` stands for any run of characters, `?` for any one character, and a
bracketed class for one character of the class; a class that starts with `!` stands for one
character outside it. `Pattern.ofChars` reads a pattern into its parts and never fails: a bracket
without its partner stands for itself. `Pattern.accepts` compares a whole text.

Inside a class `a-c` is a span of code points and a span whose ends are in the wrong order holds
nothing. A class whose leading spans are all empty is judged from its first part that counts, so
that a `!` there negates as it would at the start.
-/

namespace Docwright.Text

/-- A part of a class: a span of code points, its ends included. -/
structure Span where
  /-- The least character of the span. -/
  low : Char
  /-- The greatest character of the span. -/
  high : Char
  deriving DecidableEq, Repr

/-- Whether the span holds the character. -/
def Span.mem (s : Span) (c : Char) : Bool :=
  decide (s.low ≤ c ∧ c ≤ s.high)

/-- A part of a pattern. -/
inductive PatternPart
  /-- Any run of characters, the empty one included. -/
  | run
  /-- One character of any kind. -/
  | any
  /-- One character of the spans, or outside all of them when `negated`. -/
  | oneOf (negated : Bool) (spans : List Span)
  deriving DecidableEq, Repr

/-- A wildcard pattern: its parts in order. -/
abbrev Pattern := List PatternPart

namespace Pattern

/-- The spans written in the inside of a class: `a-c` is one span unless the dash is the last
character, every other character is a span of its own. -/
def spans : List Char → List Span
  | a :: '-' :: b :: rest => ⟨a, b⟩ :: spans rest
  | a :: rest => ⟨a, a⟩ :: spans rest
  | [] => []

/-- The class whose inside, after an opening `!`, holds the given spans. -/
def classOf (negated : Bool) (found : List Span) : PatternPart :=
  let kept := found.filter fun s => s.low ≤ s.high
  match negated, kept with
  | false, ⟨'!', '!'⟩ :: rest => .oneOf true rest
  | false, ⟨'!', high⟩ :: rest => .oneOf true (⟨'-', '-'⟩ :: ⟨high, high⟩ :: rest)
  | _, _ => .oneOf negated kept

/-- The inside of a class that starts here and the text after its closing bracket. A closing bracket
at the very start belongs to the inside. -/
def classInside? (cs : List Char) : Option (List Char × List Char) :=
  let (opening, rest) := match cs with
    | ']' :: rest => ([']'], rest)
    | _ => ([], cs)
  match rest.span (· != ']') with
  | (inside, _ :: after) => some (opening ++ inside, after)
  | (_, []) => none

/-- Reads the class that starts after an opening bracket. -/
def class? (cs : List Char) : Option (PatternPart × List Char) :=
  match cs with
  | '!' :: rest =>
    (classInside? rest).map fun (inside, after) => (classOf true (spans inside), after)
  | _ => (classInside? cs).map fun (inside, after) => (classOf false (spans inside), after)

/-- Reads the parts of a pattern, at most `fuel` of them. -/
def read : Nat → List Char → Pattern
  | 0, _ => []
  | _ + 1, [] => []
  | fuel + 1, c :: rest =>
    if c == '*' then .run :: read fuel rest
    else if c == '?' then .any :: read fuel rest
    else if c == '[' then
      match class? rest with
      | some (part, after) => part :: read fuel after
      | none => .oneOf false [⟨c, c⟩] :: read fuel rest
    else .oneOf false [⟨c, c⟩] :: read fuel rest

/-- The pattern a text stands for. Each part takes at least one character, so the length of the text
bounds their number. -/
def ofChars (cs : List Char) : Pattern :=
  read cs.length cs

/-- Whether a part other than a run takes the character. -/
def takes : PatternPart → Char → Bool
  | .run, _ => false
  | .any, _ => true
  | .oneOf negated found, c => found.any (·.mem c) != negated

/-- For each suffix of the text, the longest first, whether the pattern accepts it. -/
def acceptedSuffixes (cs : List Char) : Pattern → List Bool
  | [] => cs.map (fun _ => false) ++ [true]
  | .run :: rest =>
    (acceptedSuffixes cs rest).foldr (fun b after => (b || after.headD false) :: after) []
  | part :: rest =>
    (List.zipWith (fun c b => takes part c && b) cs (acceptedSuffixes cs rest).tail) ++ [false]

/-- Whether the pattern accepts the whole text. -/
def accepts (p : Pattern) (cs : List Char) : Bool :=
  (acceptedSuffixes cs p).headD false

end Pattern

end Docwright.Text
