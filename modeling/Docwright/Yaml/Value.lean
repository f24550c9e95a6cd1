import Docwright.Text.Base64
import Docwright.Text.Case
import Docwright.Yaml.Node

/-!
# Values of a settings file

`Value.ofText` reads a whole text as one value; an empty text has none. The format is left behind
here: no tags, aliases or styles remain, only values.

Values are made from the outside in, one level of nesting after the other, so that of several faults
the one that is nested least is reported, and of those the first (`outermost`). There is no limit to
how deep values are nested.

Settings are loaded by any reader of texts. This is the one that the program has.
-/

namespace Docwright.Yaml

/-- A value of a settings file. -/
inductive Value
  | null
  | bool (b : Bool)
  | number (n : Number.Numeral)
  | text (s : String)
  | bytes (content : List UInt8)
  /-- A day or a point in time, as it is written. -/
  | stamp (written : String)
  | sequence (items : List Value)
  /-- A mapping; of equal keys the last counts. -/
  | mapping (pairs : List (Value × Value))
  | set
  deriving Inhabited

namespace Value

/-- Whether a value can be a key: collections that can be changed cannot. -/
def isKey : Value → Bool
  | sequence _ => false
  | mapping _ => false
  | set => false
  | _ => true

/-- Whether the value is the given text. -/
def isText (name : String) : Value → Bool
  | text s => s == name
  | _ => false

/-- The value of a key of a mapping; nothing for everything that is no mapping. -/
def field (v : Value) (name : String) : Value :=
  match v with
  | mapping pairs => ((pairs.reverse.find? fun (key, _) => key.isText name).map (·.2)).getD null
  | _ => null

end Value

/-! ### Values of texts -/

/-- The fault that a text which is no whole number makes. -/
def wholeFault : Number.Fault → Fault
  | .tooLong digits => .tooLong digits
  | .notWhole text => .badDigits 10 text
  | _ => .malformed

/-- The value of a digit of any base up to 16. -/
def digitOf? (base : Nat) (c : Char) : Option Nat :=
  (Text.hexDigit? c).filter (· < base)

/-- The letter that may stand behind a zero to name the base. -/
def baseLetter (base : Nat) : Char :=
  if base == 2 then 'b' else if base == 8 then 'o' else 'x'

/-- The whole number that a text without low lines stands for in base 2, 8 or 16. -/
def wholeInBase (base : Nat) (text : List Char) : Except Fault Int :=
  let (negative, body) := Number.signed (Number.numericText text)
  let body := match body with
    | '0' :: c :: rest => if c.toLower == baseLetter base then rest else body
    | _ => body
  match body.mapM (digitOf? base) with
  | some (d :: digits) =>
    let size := digits.foldl (fun n d => n * base + d) d
    .ok (if negative then -(size : Int) else size)
  | _ => .error (.badDigits base (String.ofList text))

/-- The text of a number without low lines, taken apart into its sign and the rest. -/
def signedNumber (text : List Char) : Except Fault (Bool × List Char) :=
  match text.filter (· != '_') with
  | [] => .error .noDigits
  | '-' :: rest => .ok (true, rest)
  | '+' :: rest => .ok (false, rest)
  | rest => .ok (false, rest)

/-- The whole number that a tagged text stands for. -/
def wholeValue (text : List Char) : Except Fault Int := do
  let (negative, body) ← signedNumber text
  let read (cs : List Char) := (Number.wholeOf (String.ofList cs)).mapError wholeFault
  let size ← match body with
    | [] => throw .noDigits
    | ['0'] => pure 0
    | '0' :: 'b' :: digits => wholeInBase 2 digits
    | '0' :: 'x' :: digits => wholeInBase 16 digits
    | '0' :: _ => wholeInBase 8 body
    | _ =>
      if body.contains ':' then do
        let places ← (Text.splitOn ':' body).mapM read
        pure (places.foldl (fun n place => n * 60 + place) 0)
      else read body
  return if negative then -size else size

/-- The sum of the places of a real number in base 60, the last one first. -/
def sumBaseSixty (sum : Float) (unit : Nat) : List Float → Except Fault Float
  | [] => .ok sum
  | place :: rest =>
    match Number.ofInt? unit with
    | none => .error .tooLarge
    | some size => sumBaseSixty (sum + place * size) (unit * 60) rest

/-- The real number that a tagged text stands for. -/
def realValue (text : List Char) : Except Fault Float := do
  let (negative, body) ← signedNumber (Text.lower text)
  let read (cs : List Char) : Except Fault Float :=
    match Number.real? (String.ofList cs) with
    | some x => .ok x
    | none => .error (.notReal (String.ofList cs))
  let size ←
    if body == ".inf".toList then pure (Number.infinity false)
    else if body == ".nan".toList then pure (0.0 / 0.0)
    else if body.contains ':' then do
      sumBaseSixty 0.0 1 (← (Text.splitOn ':' body).mapM read).reverse
    else read body
  return if negative then -size else size

/-- The truth value that a tagged text stands for. -/
def truthValue (text : String) : Except Fault Bool :=
  let word := Text.onChars Text.lower text
  match Tag.truthWords.lookup word with
  | some b => .ok b
  | none => .error (.notTruth word)

/-- The value of a text with a tag. -/
def scalarValue (tag : Tag) (text : String) : Except Fault Value :=
  let cs := text.toList
  match tag with
  | .null => .ok .null
  | .bool => (truthValue text).map .bool
  | .whole => (wholeValue cs).map fun n => .number (.whole n)
  | .real => (realValue cs).map fun x => .number (.real x)
  | .binary =>
    if cs.all (·.toNat < 0x80) then
      match Text.Base64.decodeLoosely? cs with
      | some content => .ok (.bytes content)
      | none => .error .malformed
    else .error .malformed
  | .stamp =>
    match Stamp.read? cs with
    | none => .error .notStamp
    | some stamp =>
      match stamp.fault? with
      | some fault => .error (.badStamp fault)
      | none => .ok (.stamp text)
  | .text => .ok (.text text)
  | _ => .error .malformed

/-! ### Values of nodes -/

/-- A value, or a stand-in for it, and the faults of making it with how deep they are nested. -/
structure Made (α : Type) where
  value : α
  faults : List (Nat × Fault) := []

/-- What is made where there is no value. -/
def Made.fault {α : Type} [Inhabited α] (depth : Nat) (fault : Fault) : Made α :=
  ⟨default, [(depth, fault)]⟩

mutual

/-- The text of a node that is tagged as a text: of a mapping, the text behind its value key. -/
def Node.text? : Node → Option String
  | .scalar _ s => some s
  | .mapping _ pairs => valueText? pairs
  | _ => none

/-- The text behind the value key of a mapping. -/
def valueText? : List (Node × Node) → Option String
  | [] => none
  | (key, value) :: rest => if key.tag == .value then value.text? else valueText? rest

end

/-- The value of a node whose tag asks for a text. -/
def textValue (depth : Nat) (tag : Tag) (text : Option String) : Made Value :=
  match text with
  | none => .fault depth .malformed
  | some s =>
    match scalarValue tag s with
    | .ok v => ⟨v, []⟩
    | .error fault => .fault depth fault

mutual

/-- The value of a node that is nested `depth` deep. -/
def Node.made (depth : Nat) : Node → Made Value
  | .scalar tag s =>
    if [Tag.sequence, .mapping, .set, .pairs].contains tag then .fault (depth + 1) .malformed
    else textValue depth tag (some s)
  | .sequence tag items =>
    match tag with
    | .sequence =>
      let items := madeItems (depth + 1) items
      ⟨.sequence items.value, items.faults⟩
    | .pairs =>
      let items := madeEntries (depth + 1) items
      ⟨.sequence items.value, items.faults⟩
    | .mapping => .fault (depth + 1) .malformed
    | .set => .fault (depth + 1) .malformed
    | _ => .fault depth .malformed
  | .mapping tag pairs =>
    match tag with
    | .mapping =>
      let pairs := madePairs (depth + 1) pairs
      ⟨.mapping pairs.value, pairs.faults⟩
    | .set => ⟨.set, (madePairs (depth + 1) pairs).faults⟩
    | .sequence => .fault (depth + 1) .malformed
    | .pairs => .fault (depth + 1) .malformed
    | tag => textValue depth tag (valueText? pairs)
  | .broken => .fault (depth + 1) .malformed

/-- The values of the items of a sequence. -/
def madeItems (depth : Nat) : List Node → Made (List Value)
  | [] => ⟨[], []⟩
  | n :: rest =>
    let first := n.made depth
    let others := madeItems depth rest
    ⟨first.value :: others.value, first.faults ++ others.faults⟩

/-- The values of the pairs of a mapping. The key that stands for the whole mapping is a text like
any other here. -/
def madePairs (depth : Nat) : List (Node × Node) → Made (List (Value × Value))
  | [] => ⟨[], []⟩
  | (k, v) :: rest =>
    let key : Made Value := match k with
      | .scalar .value s => ⟨.text s, []⟩
      | k => k.made depth
    let keyFaults := if key.value.isKey then key.faults else key.faults ++ [(depth, .malformed)]
    let value := v.made depth
    let others := madePairs depth rest
    ⟨(key.value, value.value) :: others.value, keyFaults ++ value.faults ++ others.faults⟩

/-- The values of the pairs that are written as mappings of one pair each. -/
def madeEntries (depth : Nat) : List Node → Made (List Value)
  | [] => ⟨[], []⟩
  | .mapping _ [(k, v)] :: rest =>
    let key := k.made depth
    let value := v.made depth
    let others := madeEntries depth rest
    ⟨.sequence [key.value, value.value] :: others.value,
      key.faults ++ value.faults ++ others.faults⟩
  | _ :: _ => .fault depth .malformed

end

/-- The fault that is nested least, the first of several. -/
def outermost (faults : List (Nat × Fault)) : Option (Nat × Fault) :=
  faults.foldl (fun (found : Option (Nat × Fault)) fault =>
    match found with
    | some f => if fault.1 < f.1 then some fault else some f
    | none => some fault) none

/-- The value of a node. -/
def Node.value (n : Node) : Except Fault Value :=
  let made := n.made 0
  match outermost made.faults with
  | some (_, fault) => .error fault
  | none => .ok made.value

/-- The value that a text stands for. -/
def Value.ofText (cs : List Char) : Except Fault Value := do
  match ← Node.ofTokens (← Token.ofText cs) with
  | some n => n.value
  | none => return .null

end Docwright.Yaml
