import Docwright.Yaml.Token

/-!
# Texts of a settings file

A text is written plainly, between apostrophes, between quotation marks or as an indented block.
Each reader here starts behind the mark that opens the text and gives the text together with the
rest of the input.

In the first three ways a single line end within the text stands for a space, and of several in a
row the first is dropped (`folded`). The loops are bounded by the number of characters that are
left, since each round takes at least one.
-/

namespace Docwright.Yaml

/-- What a line end followed by further ones amounts to within a text. -/
def folded (first : Char) (others : List Char) : List Char :=
  if first != '\n' then first :: others
  else if others.isEmpty then [' ']
  else others

/-! ### Plain texts -/

/-- A mark that ends a text that is written in line. -/
def endsInLine (c : Char) : Bool :=
  c == ',' || isBracket c

/-- The characters up to the end of a word of a plain text. In line, brackets and commas end a word
as well. -/
def plainWord (inLine : Bool) : List Char → List Char × List Char
  | [] => ([], [])
  | c :: rest =>
    let ends :=
      isBlank c || isBreak c ||
        (c == ':' && (atWordEnd rest || (inLine && endsInLine (rest.headD ' ')))) ||
        (inLine && (c == '?' || endsInLine c))
    if ends then ([], c :: rest)
    else
      let (word, rest) := plainWord inLine rest
      (c :: word, rest)

/-- The spaces and line ends in front of the next line with text: the line ends, the column of the
text and the rest. Where a document marker begins a line there is no next line, and only the rest is
given. -/
def nextLine (breaks : List Char) (column : Nat) :
    List Char → Option (List Char × Nat) × List Char
  | [] => (some (breaks, column), [])
  | c :: rest =>
    if c == ' ' then nextLine breaks (column + 1) rest
    else if isBreak c then
      if atMarker rest then (none, rest) else nextLine (breaks ++ [c]) 0 rest
    else (some (breaks, column), c :: rest)

/-- The gap behind a word of a plain text. -/
structure Gap where
  /-- What the gap amounts to when the text goes on. -/
  filler : List Char
  /-- The column of the next line, when there is a line end in the gap. -/
  column : Option Nat
  rest : List Char

/-- Reads the gap behind a word of a plain text. -/
def gapAfterWord (cs : List Char) : Gap :=
  let (spaces, rest) := cs.span (· == ' ')
  match rest with
  | [] => ⟨spaces, none, []⟩
  | c :: after =>
    if isBreak c then
      if atMarker after then ⟨[], some 0, after⟩
      else
        match nextLine [] 0 after with
        | (none, rest) => ⟨[], some 0, rest⟩
        | (some (breaks, column), rest) => ⟨folded c breaks, some column, rest⟩
    else ⟨spaces, none, rest⟩

/-- A text that has been read. -/
structure PlainText where
  text : List Char
  /-- Whether the gap behind the last word holds a line end. -/
  lineEnded : Bool
  rest : List Char

/-- Reads a plain text whose further lines must not begin left of `indent`. -/
def plainText (inLine : Bool) (indent : Int) (fuel : Nat) (found : List Char) (lineEnded : Bool)
    (cs : List Char) : PlainText :=
  match fuel with
  | 0 => ⟨found, lineEnded, cs⟩
  | fuel + 1 =>
    let (word, rest) := plainWord inLine cs
    if word.isEmpty then ⟨[], lineEnded, cs⟩
    else
      let gap := gapAfterWord rest
      let outdented := match gap.column with
        | some column => !inLine && decide ((column : Int) < indent)
        | none => false
      if gap.filler.isEmpty || gap.rest.head? == some '#' || outdented then
        ⟨found ++ word, gap.column.isSome, gap.rest⟩
      else
        let after := plainText inLine indent fuel [] gap.column.isSome gap.rest
        if after.text.isEmpty then ⟨found ++ word, after.lineEnded, after.rest⟩
        else { after with text := found ++ word ++ gap.filler ++ after.text }

/-! ### Quoted texts -/

/-- The line ends from the start of a line up to the next text, and the rest; `none` where a
document marker begins a line. -/
def breaksInQuotes? (lineStart : Bool) : List Char → Option (List Char × List Char)
  | [] => some ([], [])
  | c :: rest =>
    if lineStart && atMarker (c :: rest) then none
    else if isBlank c then breaksInQuotes? false rest
    else if isBreak c then
      (breaksInQuotes? true rest).map fun (breaks, rest) => (c :: breaks, rest)
    else some ([], c :: rest)

/-- The character that an escape of one letter stands for. -/
def escapeOf? (c : Char) : Option Char :=
  [('0', 0x00), ('a', 0x07), ('b', 0x08), ('t', 0x09), ('\t', 0x09), ('n', 0x0A), ('v', 0x0B),
    ('f', 0x0C), ('r', 0x0D), ('e', 0x1B), (' ', 0x20), ('"', 0x22), ('\\', 0x5C), ('/', 0x2F),
    ('N', 0x85), ('_', 0xA0), ('L', 0x2028), ('P', 0x2029)].lookup c |>.map Char.ofNat

/-- How many hexadecimal digits follow the letter of an escape. -/
def escapeWidth? (c : Char) : Option Nat :=
  [('x', 2), ('u', 4), ('U', 8)].lookup c

/-- The number that exactly `width` hexadecimal digits stand for, and the rest. -/
def hexNumber? (width : Nat) (cs : List Char) : Option (Nat × List Char) := do
  let digits ← (cs.take width).mapM Text.hexDigit?
  if digits.length == width then
    return (digits.foldl (fun n d => n * 16 + d) 0, cs.drop width)
  else none

/-- The character of a code; half a character has no form. -/
def charOf (code : Nat) : Except Fault Char :=
  if code > 0x10FFFF then .error (.noCharacter code)
  else if 0xD800 ≤ code ∧ code < 0xE000 then .ok '\uFFFD'
  else .ok (Char.ofNat code)

/-- What a backslash and what follows it stand for, and the rest. -/
def escape (cs : List Char) : Except Fault (List Char × List Char) :=
  match cs with
  | [] => .error .malformed
  | c :: rest =>
    if isBreak c then
      match breaksInQuotes? true rest with
      | some found => .ok found
      | none => .error .malformed
    else
      match escapeOf? c, escapeWidth? c with
      | some e, _ => .ok ([e], rest)
      | none, some width =>
        match hexNumber? width rest with
        | none => .error .malformed
        | some (code, rest) => (charOf code).map fun c => ([c], rest)
      | none, none => .error .malformed

/-- The blanks and line ends that begin here, as they count in a quoted text, and the rest. -/
def gapInQuotes (cs : List Char) : Except Fault (List Char × List Char) :=
  let (blanks, rest) := cs.span isBlank
  match rest with
  | [] => .error .malformed
  | c :: after =>
    if isBreak c then
      match breaksInQuotes? true after with
      | none => .error .malformed
      | some (breaks, rest) => .ok (folded c breaks, rest)
    else .ok (blanks, rest)

/-- Reads a quoted text behind its opening quote; `found` is what has been read, latest first. -/
def quotedText (quote : Char) (fuel : Nat) (found : List Char) (cs : List Char) :
    Except Fault (List Char × List Char) :=
  match fuel, cs with
  | 0, _ => .error .malformed
  | _, [] => .error .malformed
  | fuel + 1, c :: rest =>
    if c == quote then
      if c == '\'' && rest.head? == some '\'' then
        quotedText quote fuel ('\'' :: found) (rest.drop 1)
      else .ok (found.reverse, rest)
    else if c == '\\' && quote == '"' then
      match escape rest with
      | .error fault => .error fault
      | .ok (chars, rest) => quotedText quote fuel (chars.reverse ++ found) rest
    else if isBlank c || isBreak c then
      match gapInQuotes (c :: rest) with
      | .error fault => .error fault
      | .ok (chars, rest) => quotedText quote fuel (chars.reverse ++ found) rest
    else quotedText quote fuel (c :: found) rest

/-! ### Block texts -/

/-- What happens to the line ends at the end of a block text. -/
inductive Chomp
  /-- The last one of the text is kept, the empty lines behind it are not. -/
  | clip
  /-- None is kept. -/
  | strip
  /-- All are kept. -/
  | keep
  deriving DecidableEq, Repr

/-- The sign for the line ends at the end of a block text. -/
def chompOf? (c : Char) : Option Chomp :=
  if c == '+' then some .keep else if c == '-' then some .strip else none

/-- The indentation that a digit asks for; zero cannot be asked for. -/
def indentOf? (c : Char) : Option Nat :=
  if '1' ≤ c ∧ c ≤ '9' then some (c.toNat - '0'.toNat) else none

/-- The sign and the digit in the header of a block text, in either order. -/
def blockHeader (cs : List Char) : Chomp × Option Nat × List Char :=
  let sign (cs : List Char) : Option Chomp × List Char :=
    match cs.head?.bind chompOf? with
    | some chomp => (some chomp, cs.drop 1)
    | none => (none, cs)
  let digit (cs : List Char) : Option Nat × List Char :=
    match cs.head?.bind indentOf? with
    | some n => (some n, cs.drop 1)
    | none => (none, cs)
  match sign cs with
  | (some chomp, rest) =>
    let (indent, rest) := digit rest
    (chomp, indent, rest)
  | (none, _) =>
    match digit cs with
    | (some n, rest) =>
      let (chomp, rest) := sign rest
      (chomp.getD .clip, some n, rest)
    | (none, _) => (.clip, none, cs)

/-- The empty lines in front of a block text: their line ends, the widest run of spaces, the spaces
of the last line and the rest. -/
def leadingLines (column widest : Nat) : List Char → List Char × Nat × Nat × List Char
  | [] => ([], widest, column, [])
  | c :: rest =>
    if c == ' ' then leadingLines (column + 1) (max widest (column + 1)) rest
    else if isBreak c then
      let (breaks, more) := leadingLines 0 widest rest
      (c :: breaks, more)
    else ([], widest, column, c :: rest)

/-- The empty lines between lines of a block text, and the indentation of the next one. -/
def linesBetween (indent column : Nat) : List Char → List Char × Nat × List Char
  | [] => ([], column, [])
  | c :: rest =>
    if c == ' ' && column < indent then linesBetween indent (column + 1) rest
    else if isBreak c then
      let (breaks, more) := linesBetween indent 0 rest
      (c :: breaks, more)
    else ([], column, c :: rest)

/-- Reads the lines of a block text; `breaks` are the line ends of the empty lines before this one
and `column` is where this one begins. -/
def blockLines (fold : Bool) (chomp : Chomp) (indent fuel : Nat)
    (found breaks lastBreak : List Char) (column : Nat) (cs : List Char) :
    List Char × List Char :=
  let tail := match chomp with
    | .clip => lastBreak
    | .strip => []
    | .keep => lastBreak ++ breaks
  match fuel with
  | 0 => (found ++ tail, cs)
  | fuel + 1 =>
    if column != indent || cs.isEmpty then (found ++ tail, cs)
    else
      let (line, rest) := cs.span (!isBreak ·)
      let here := breaks ++ line
      let lineEnd := rest.take 1
      let (breaks, column, rest) := linesBetween indent 0 (rest.drop 1)
      let goesOn := column == indent && !rest.isEmpty
      let joined :=
        if !goesOn then []
        else if fold && lineEnd == ['\n'] && !atBlank line && !atBlank rest then
          if breaks.isEmpty then [' '] else []
        else lineEnd
      blockLines fold chomp indent fuel (found ++ here ++ joined) breaks
        (if goesOn then [] else lineEnd) column rest
where
  /-- Whether a blank stands first. -/
  atBlank : List Char → Bool
    | [] => false
    | c :: _ => isBlank c

/-- Reads a block text behind its opening mark, in a collection at column `outer`. -/
def blockText? (fold : Bool) (outer : Int) (cs : List Char) : Option (List Char × List Char) := do
  let (chomp, asked, rest) := blockHeader cs
  if !atSpace rest then none
  else
    let rest ← restOfLine? rest
    let least : Nat := (outer + 1).toNat.max 1
    match asked with
    | some n =>
      let indent := least + n - 1
      let (breaks, column, rest) := linesBetween indent 0 rest
      return blockLines fold chomp indent (rest.length + 1) [] breaks [] column rest
    | none =>
      let (breaks, widest, column, rest) := leadingLines 0 0 rest
      return blockLines fold chomp (least.max widest) (rest.length + 1) [] breaks [] column rest

end Docwright.Yaml
