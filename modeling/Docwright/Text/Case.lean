import Docwright.Text.CaseTable

/-!
# Case maps

`lower` and `upper` map a text as Unicode's full case mappings do. Two things go beyond a table of
partners: a capital I with a dot becomes two characters, and a capital sigma becomes a final sigma
where it ends a word, which is judged by the nearest cased characters on both sides with the
ignorable ones skipped.
-/

namespace Docwright.Text

/-- Where the run takes a code point that belongs to it. -/
def CaseRun.target? (r : CaseRun) (n : Nat) : Option Nat :=
  if r.first ≤ n ∧ n ≤ r.last ∧ (n - r.first) % r.step = 0 then some (Int.toNat (n + r.shift))
  else none

/-- The partner of a character in a table of runs, or the character itself. -/
def partner (runs : List CaseRun) (c : Char) : Char :=
  match runs.findSome? (·.target? c.toNat) with
  | some n => Char.ofNat n
  | none => c

/-- The lower-case form of one character, without regard to its context. -/
def lowerChar (c : Char) : List Char :=
  if c.toNat < 128 then [c.toLower]
  else if c.toNat == 0x130 then ['i', Char.ofNat 0x307]
  else [partner lowerRuns c]

/-- The upper-case form of one character. -/
def upperChar (c : Char) : List Char :=
  if c.toNat < 128 then [c.toUpper]
  else match longUppers.find? (·.1 == c.toNat) with
    | some (_, form) => form.map Char.ofNat
    | none => [partner upperRuns c]

/-- Whether the first character that is not skipped is a cased one. -/
def startsCased (cs : List Char) : Bool :=
  match cs.dropWhile caseIgnorableChars.mem with
  | c :: _ => casedChars.mem c
  | [] => false

/-- The lower-case form of what follows a text whose last unskipped character is cased or not. -/
def lowerFrom (afterCased : Bool) : List Char → List Char
  | [] => []
  | c :: rest =>
    let here :=
      if c == 'Σ' then [if afterCased && !startsCased rest then 'ς' else 'σ'] else lowerChar c
    let cased := if caseIgnorableChars.mem c then afterCased else casedChars.mem c
    here ++ lowerFrom cased rest

/-- The text in lower case. -/
def lower (cs : List Char) : List Char :=
  lowerFrom false cs

/-- The text in upper case. -/
def upper (cs : List Char) : List Char :=
  cs.flatMap upperChar

/-- The text with its first character in upper case. -/
def capitalize : List Char → List Char
  | [] => []
  | c :: rest => upperChar c ++ rest

end Docwright.Text
