import Docwright.Yaml.Scalar

/-!
# Cutting a settings file into its marks and words

`Token.ofText` cuts a whole text. Two things make this more than a matter of characters:

* Indentation: a block collection opens when something stands further right than the innermost open
  one and ends when something stands further left. `Lexer.indents` holds the columns of those that
  are open.
* Keys: whether a text is the key of a pair shows only at the colon behind it. Until then it is a
  `Candidate`, one at most for each bracket that is open; at the colon the mark of the key is put in
  front of it. A key stands on one line and has at most 1024 characters, and one at the column of an
  open mapping must be followed by its colon.
-/

namespace Docwright.Yaml

/-- A word that a colon would make a key. -/
structure Candidate where
  /-- How many words were in front of it. -/
  place : Nat
  /-- Whether it can be nothing else than a key. -/
  required : Bool
  index : Nat
  line : Nat
  column : Nat

/-- What has been cut off a text, and where cutting has come to. -/
structure Lexer where
  rest : List Char
  index : Nat := 0
  line : Nat := 0
  column : Nat := 0
  tokens : Array Token := #[]
  /-- The columns of the open block collections, innermost first. -/
  indents : List Nat := []
  /-- The candidate inside each open bracket, innermost first. -/
  inBrackets : List (Option Candidate) := []
  /-- The candidate outside all brackets. -/
  candidate : Option Candidate := none
  /-- Whether the next word can be a key. -/
  keyAllowed : Bool := true

namespace Lexer

/-- How many characters a key may have. -/
def keyLimit : Nat := 1024

/-- Whether a bracket is open. -/
def inLine (l : Lexer) : Bool :=
  !l.inBrackets.isEmpty

/-- The column of the innermost block collection, `-1` outside all of them. -/
def indent (l : Lexer) : Int :=
  match l.indents with
  | [] => -1
  | column :: _ => column

/-- Adds a word. -/
def push (l : Lexer) (t : Token) : Lexer :=
  { l with tokens := l.tokens.push t }

/-- Moves past one character. -/
def pass (l : Lexer) (c : Char) : Lexer :=
  if isBreak c then { l with index := l.index + 1, line := l.line + 1, column := 0 }
  else if c == byteOrderMark then { l with index := l.index + 1 }
  else { l with index := l.index + 1, column := l.column + 1 }

/-- Moves to where `rest` is left of the text. -/
def moveTo (l : Lexer) (rest : List Char) : Lexer :=
  { (l.rest.take (l.rest.length - rest.length)).foldl pass l with rest }

/-- The candidate inside the innermost bracket. -/
def current (l : Lexer) : Option Candidate :=
  match l.inBrackets with
  | [] => l.candidate
  | candidate :: _ => candidate

/-- Sets the candidate inside the innermost bracket. -/
def setCurrent (l : Lexer) (candidate : Option Candidate) : Lexer :=
  match l.inBrackets with
  | [] => { l with candidate }
  | _ :: outer => { l with inBrackets := candidate :: outer }

/-- Gives up the current candidate. -/
def dropCandidate (l : Lexer) : Except Fault Lexer :=
  match l.current with
  | some candidate => if candidate.required then .error .malformed else .ok (l.setCurrent none)
  | none => .ok l

/-- Makes the word that begins here a candidate, where a key is allowed. -/
def offerCandidate (l : Lexer) : Except Fault Lexer := do
  if l.keyAllowed then
    let l ← l.dropCandidate
    return l.setCurrent (some {
      place := l.tokens.size, required := !l.inLine && decide (l.indent = l.column)
      index := l.index, line := l.line, column := l.column })
  else return l

/-- Whether a word is too far back to become a key now. -/
def isStale (l : Lexer) (candidate : Candidate) : Bool :=
  candidate.line != l.line || l.index - candidate.index > keyLimit

/-- Gives up all candidates that are too far back. -/
def dropStale (l : Lexer) : Except Fault Lexer :=
  let stale := (l.candidate :: l.inBrackets).filterMap fun candidate =>
    candidate.filter l.isStale
  if stale.any (·.required) then .error .malformed
  else
    let keep (candidate : Option Candidate) := candidate.filter (!l.isStale ·)
    .ok { l with candidate := keep l.candidate, inBrackets := l.inBrackets.map keep }

/-- Ends the block collections that lie right of the column. -/
def closeBlocks (l : Lexer) (column : Int) : Lexer :=
  if l.inLine then l
  else
    let ended := l.indents.takeWhile fun (indent : Nat) => decide (column < (indent : Int))
    { l with
      indents := l.indents.drop ended.length
      tokens := l.tokens ++ (ended.map fun _ => Token.blockEnd).toArray }

/-- Opens a block collection at the column if that is right of the innermost one; `place` is where
its mark belongs. -/
def openBlock (l : Lexer) (t : Token) (column place : Nat) : Lexer :=
  if l.indent < column then
    { l with
      indents := column :: l.indents
      tokens := l.tokens.extract 0 place ++ #[t] ++ l.tokens.extract place l.tokens.size }
  else l

/-- The rest behind the blanks, comments and line ends that begin here, and whether there is a line
end among them. -/
def skipGap (inComment : Bool) : List Char → Bool × List Char
  | [] => (false, [])
  | c :: rest =>
    if isBreak c then (true, (skipGap false rest).2)
    else if inComment then skipGap true rest
    else if c == ' ' then skipGap false rest
    else if c == '#' then skipGap true rest
    else (false, c :: rest)

/-- Moves to the next word. -/
def toNextWord (l : Lexer) : Lexer :=
  let marked := l.index == 0 && l.rest.head? == some byteOrderMark
  let l := if marked then l.moveTo (l.rest.drop 1) else l
  let (lineEnded, rest) := skipGap false l.rest
  { l.moveTo rest with keyAllowed := l.keyAllowed || (lineEnded && !l.inLine) }

/-! ### The kinds of words -/

/-- Ends the blocks in front of a word that belongs to no document. -/
def outsideDocument (l : Lexer) : Except Fault Lexer := do
  let l ← (l.closeBlocks (-1)).dropCandidate
  return { l with keyAllowed := false }

/-- A tag is a run of these characters and of escapes. -/
def isTagChar (c : Char) : Bool :=
  c.isAlphanum || "-;/?:@&=+$,_.!~*'()[]%".toList.contains c

/-- The bytes of the escapes that begin here, and the rest. -/
def tagEscapes? : List Char → Option (List UInt8 × List Char)
  | '%' :: a :: b :: rest => do
    let a ← Text.hexDigit? a
    let b ← Text.hexDigit? b
    let (bytes, rest) ← tagEscapes? rest
    return ((a * 16 + b).toUInt8 :: bytes, rest)
  | '%' :: _ => none
  | rest => some ([], rest)

/-- Reads the body of a tag. -/
def tagText (fuel : Nat) (found cs : List Char) : Except Fault (String × List Char) :=
  match fuel, cs with
  | fuel + 1, '%' :: _ =>
    match tagEscapes? cs with
    | none => .error .malformed
    | some (bytes, rest) =>
      match String.fromUTF8? ⟨bytes.toArray⟩ with
      | none => .error .malformed
      | some text => tagText fuel (found ++ text.toList) rest
  | fuel + 1, c :: rest =>
    if isTagChar c then tagText fuel (found ++ [c]) rest
    else if found.isEmpty then .error .malformed else .ok (String.ofList found, cs)
  | _, _ => if found.isEmpty then .error .malformed else .ok (String.ofList found, cs)

/-- Reads the handle of a tag: a single mark, or a name between two. -/
def tagHandle (cs : List Char) : Except Fault (String × List Char) :=
  match cs with
  | '!' :: ' ' :: _ => .ok ("!", cs.drop 1)
  | '!' :: rest =>
    let (name, rest) := rest.span isNameChar
    match rest with
    | '!' :: rest => .ok (String.ofList ('!' :: name ++ ['!']), rest)
    | _ => .error .malformed
  | _ => .error .malformed

/-- Reads a tag. -/
def tag (cs : List Char) : Except Fault (Token × List Char) := do
  let (t, rest) ← match cs with
    | '!' :: '<' :: rest => do
      let (suffix, rest) ← tagText (rest.length + 1) [] rest
      match rest with
      | '>' :: rest => pure (Token.tag none suffix, rest)
      | _ => throw .malformed
    | _ =>
      let rest := cs.drop 1
      if atWordEnd rest then pure (Token.tag none "!", rest)
      else
        let word := rest.takeWhile fun c => !(c == ' ' || isBreak c)
        let (handle, rest) ← if word.contains '!' then tagHandle cs else pure ("!", rest)
        let (suffix, rest) ← tagText (rest.length + 1) [] rest
        pure (Token.tag (some handle) suffix, rest)
  if atSpace rest then return (t, rest) else throw .malformed

/-- Reads the name of an anchor or of an alias. -/
def name (cs : List Char) : Except Fault (String × List Char) :=
  let (name, rest) := cs.span isNameChar
  let ends := match rest with
    | [] => true
    | c :: _ =>
      atWordEnd rest || c == ']' || c == '}' || c.toNat == 0x60 || "?:,%@".toList.contains c
  if name.isEmpty || !ends then .error .malformed else .ok (String.ofList name, rest)

/-- The number that a run of digits stands for, and the rest. -/
def versionNumber (cs : List Char) : Except Fault (Nat × List Char) :=
  let (digits, rest) := cs.span Char.isDigit
  if digits.isEmpty then .error .malformed
  else .ok (digits.foldl (fun n c => 10 * n + (c.toNat - '0'.toNat)) 0, rest)

/-- Reads a directive behind its mark. -/
def directive (cs : List Char) : Except Fault (Token × List Char) := do
  let skipSpaces (cs : List Char) := cs.dropWhile (· == ' ')
  let (name, rest) := cs.span isNameChar
  if name.isEmpty || !atSpace rest then throw .malformed
  let (t, rest) ←
    if name == "YAML".toList then do
      let (major, rest) ← versionNumber (skipSpaces rest)
      let '.' :: rest := rest | throw .malformed
      let (_, rest) ← versionNumber rest
      if !atSpace rest then throw .malformed
      pure (Token.version major, rest)
    else if name == "TAG".toList then do
      let (handle, rest) ← tagHandle (skipSpaces rest)
      if rest.head? != some ' ' then throw .malformed
      let rest := skipSpaces rest
      let (expansion, rest) ← tagText (rest.length + 1) [] rest
      if !atSpace rest then throw .malformed
      pure (Token.shorthand handle expansion, rest)
    else pure (Token.directive, rest.dropWhile (!isBreak ·))
  match restOfLine? rest with
  | none => throw .malformed
  | some rest => return (t, rest)

/-- A mark that opens a bracket. -/
def openBracket (l : Lexer) (t : Token) : Except Fault Lexer := do
  let l ← l.offerCandidate
  return { (l.moveTo (l.rest.drop 1)).push t with
    inBrackets := none :: l.inBrackets, keyAllowed := true }

/-- A mark that closes a bracket. -/
def closeBracket (l : Lexer) (t : Token) : Except Fault Lexer := do
  match (← l.dropCandidate).inBrackets with
  | [] => throw .malformed
  | _ :: outer =>
    return { (l.moveTo (l.rest.drop 1)).push t with inBrackets := outer, keyAllowed := false }

/-- A mark that opens a block collection unless it is open already. -/
def blockMark (l : Lexer) (opening t : Token) (keyAllowed : Bool) : Except Fault Lexer := do
  if !l.inLine && !l.keyAllowed then throw .malformed
  let l := if l.inLine then l else l.openBlock opening l.column l.tokens.size
  let l ← { l with keyAllowed }.dropCandidate
  return (l.moveTo (l.rest.drop 1)).push t

/-- The colon of a pair. -/
def colon (l : Lexer) : Except Fault Lexer := do
  match l.current with
  | some candidate =>
    let l := l.setCurrent none
    let place := candidate.place
    let l := { l with
      tokens := l.tokens.extract 0 place ++ #[Token.key] ++ l.tokens.extract place l.tokens.size }
    let l := if l.inLine then l else l.openBlock .blockMapping candidate.column place
    return { (l.moveTo (l.rest.drop 1)).push .value with keyAllowed := false }
  | none => l.blockMark .blockMapping .value (!l.inLine)

/-- A word that can be a key or stand in front of one. -/
def keyWord (l : Lexer) (t : Token) (rest : List Char) : Except Fault Lexer := do
  let l ← l.offerCandidate
  return { (l.moveTo rest).push t with keyAllowed := false }

/-- A quoted text. -/
def quotedWord (l : Lexer) (quote : Char) : Except Fault Lexer := do
  let (text, rest) ← quotedText quote l.rest.length [] (l.rest.drop 1)
  l.keyWord (.scalar (String.ofList text) false) rest

/-- A block text. -/
def blockWord (l : Lexer) (fold : Bool) : Except Fault Lexer := do
  let l ← { l with keyAllowed := true }.dropCandidate
  match blockText? fold l.indent (l.rest.drop 1) with
  | none => throw .malformed
  | some (text, rest) => return (l.moveTo rest).push (.scalar (String.ofList text) false)

/-- A plain text. -/
def plainWord (l : Lexer) : Except Fault Lexer := do
  let found := plainText l.inLine (l.indent + 1) l.rest.length [] false l.rest
  let l ← l.keyWord (.scalar (String.ofList found.text) true) found.rest
  return { l with keyAllowed := found.lineEnded }

/-- Whether a plain text may begin with `c` in front of `rest`. -/
def beginsPlain (l : Lexer) (c : Char) (rest : List Char) : Bool :=
  !(isBlank c || isBreak c || isBracket c || c.toNat == 0x60 ||
      "-?:,#&*!|>'\"%@".toList.contains c) ||
    (!atWordEnd rest && (c == '-' || (!l.inLine && (c == '?' || c == ':'))))

/-- Cuts off the word that begins with `c`. -/
def word (l : Lexer) (c : Char) (rest : List Char) : Except Fault Lexer := do
  let marker := l.column == 0 && atMarker l.rest
  if c == '%' && l.column == 0 then
    let l ← l.outsideDocument
    let (t, rest) ← directive rest
    return (l.moveTo rest).push t
  else if marker then
    let l ← l.outsideDocument
    return (l.moveTo (l.rest.drop 3)).push (if c == '-' then .documentStart else .documentEnd)
  else if c == '[' then l.openBracket .openSequence
  else if c == '{' then l.openBracket .openMapping
  else if c == ']' then l.closeBracket .closeSequence
  else if c == '}' then l.closeBracket .closeMapping
  else if c == ',' then
    let l ← { l with keyAllowed := true }.dropCandidate
    return (l.moveTo rest).push .comma
  else if c == '-' && atWordEnd rest then l.blockMark .blockSequence .item true
  else if c == '?' && (l.inLine || atWordEnd rest) then
    l.blockMark .blockMapping .key (!l.inLine)
  else if c == ':' && (l.inLine || atWordEnd rest) then l.colon
  else if c == '*' then
    let (n, rest) ← name rest
    l.keyWord (.alias n) rest
  else if c == '&' then
    let (n, rest) ← name rest
    l.keyWord (.anchor n) rest
  else if c == '!' then
    let (t, rest) ← tag l.rest
    l.keyWord t rest
  else if c == '|' && !l.inLine then l.blockWord false
  else if c == '>' && !l.inLine then l.blockWord true
  else if c == '\'' || c == '"' then l.quotedWord c
  else if l.beginsPlain c rest then l.plainWord
  else throw .malformed

/-- Cuts off words until nothing is left. -/
def run (fuel : Nat) (l : Lexer) : Except Fault (List Token) := do
  let l ← l.toNextWord.dropStale
  let l := l.closeBlocks l.column
  match fuel, l.rest with
  | fuel + 1, c :: rest => run fuel (← l.word c rest)
  | _, _ =>
    let l ← (l.closeBlocks (-1)).dropCandidate
    return l.tokens.toList

end Lexer

/-- The words of a text. -/
def Token.ofText (cs : List Char) : Except Fault (List Token) :=
  if cs.all isAllowed then
    let rest := unified cs
    Lexer.run (rest.length + 1) { rest }
  else .error .malformed

end Docwright.Yaml
