import Docwright.Yaml.Lexer
import Docwright.Yaml.Tag

/-!
# Nodes of a settings file

A node is a tagged text, a sequence of nodes or a mapping given by its pairs. `Node.ofTokens` puts
the words of a text together, replaces each alias by the node that its anchor names, and takes the
pairs of merged mappings in; the pairs of a mapping come behind those that it takes in, so that they
count more. An alias inside the collection that it names stands for an empty one.

The functions recurse on a bound on the number of steps. Each step but the last of a collection
takes a word and no more than three lead to one, so that three times the number of words suffices.
-/

namespace Docwright.Yaml

/-- A node of a settings file. -/
inductive Node
  | scalar (tag : Tag) (text : String)
  | sequence (tag : Tag) (items : List Node)
  | mapping (tag : Tag) (pairs : List (Node × Node))
  /-- A mapping that takes in something else than mappings. -/
  | broken
  deriving Inhabited

namespace Node

/-- The node of an empty place. -/
def empty : Node := .scalar .null ""

/-- The tag of a node. -/
def tag : Node → Tag
  | scalar t _ => t
  | sequence t _ => t
  | mapping t _ => t
  | broken => .other

/-- The pairs of a mapping. -/
def pairs? : Node → Option (List (Node × Node))
  | mapping _ pairs => some pairs
  | _ => none

/-- The pairs that a node brings into a mapping that it is merged into. Of the mappings of a
sequence the first counts most. -/
def merged? : Node → Option (List (Node × Node))
  | mapping _ pairs => some pairs
  | sequence _ items => (items.reverse.mapM pairs?).map List.flatten
  | _ => none

/-- The mapping with the given pairs, those that are merged in among them. -/
def ofPairs (tag : Tag) (pairs : List (Node × Node)) : Node :=
  let (merges, own) := pairs.partition fun (key, _) => key.tag == .merge
  match merges.mapM fun (_, value) => value.merged? with
  | some taken => mapping tag (taken.flatten ++ own)
  | none => broken

end Node

/-- What putting words together works on. -/
structure Composer where
  rest : List Token
  /-- The nodes that aliases stand for. -/
  anchors : List (String × Node) := []
  /-- What the handles of tags are short for. -/
  handles : List (String × String) := []

/-- A step of putting words together. -/
abbrev Composing := StateT Composer (Except Fault)

namespace Composer

/-- Which collections may stand at a place. -/
inductive Place
  /-- Those in brackets only. -/
  | inLine
  /-- Those that are laid out by indentation as well. -/
  | block
  /-- Also a sequence that is not indented any further. -/
  | inPair
  deriving DecidableEq

/-- The next word. -/
def peek : Composing (Option Token) := do return (← get).rest.head?

/-- Takes the next word. -/
def advance : Composing Unit := modify fun c => { c with rest := c.rest.drop 1 }

/-- Takes the next word if it is the given one. -/
def take (t : Token) : Composing Bool := do
  if (← peek) == some t then
    advance
    return true
  else return false

/-- Gives a node a name. -/
def bind (anchor : Option String) (n : Node) : Composing Unit :=
  match anchor with
  | some name => modify fun c => { c with anchors := (name, n) :: c.anchors }
  | none => pure ()

/-- The anchor and the tag in front of a node, in either order. A single mark is no tag but asks for
the tag of a plain text. -/
def properties : Composing (Option String × Option String) := do
  let anchor? : Composing (Option String) := do
    match ← peek with
    | some (.anchor name) =>
      advance
      if (← get).anchors.any (·.1 == name) then throw .malformed
      return some name
    | _ => return none
  let tag? : Composing (Option String) := do
    match ← peek with
    | some (.tag none full) =>
      advance
      return some full
    | some (.tag (some handle) suffix) =>
      advance
      match (← get).handles.lookup handle with
      | some expansion => return some (expansion ++ suffix)
      | none => throw .malformed
    | _ => return none
  match ← anchor? with
  | some name => return (some name, ← tag?)
  | none =>
    match ← tag? with
    | some tag => return (← anchor?, some tag)
    | none => return (none, none)

/-- The tag of a collection. -/
def collectionTag (tag : Option String) (standard : Tag) : Tag :=
  match tag with
  | none => standard
  | some full => if full == "!" then standard else .ofFull full

/-- The node of a text. -/
def scalarNode (tag : Option String) (text : String) (plain : Bool) : Node :=
  match tag with
  | none => .scalar (if plain then .ofPlain text else .text) text
  | some full => .scalar (if full == "!" then .ofPlain text else .ofFull full) text

/-- Whether nothing stands between a mark and the next word. -/
def nothingBefore (ends : List Token) : Composing Bool := do
  match ← peek with
  | none => return false
  | some t => return ends.contains t

mutual

/-- Puts a node together. -/
def node (fuel : Nat) (place : Place) : Composing Node := do
  match fuel with
  | 0 => throw .malformed
  | fuel + 1 =>
    match ← peek with
    | some (.alias name) =>
      advance
      match (← get).anchors.lookup name with
      | some n => return n
      | none => throw .malformed
    | _ =>
      let (anchor, tag) ← properties
      let found ← content fuel place anchor tag
      bind anchor found
      return found

/-- Puts together what stands behind the anchor and the tag of a node. -/
def content (fuel : Nat) (place : Place) (anchor tag : Option String) : Composing Node := do
  match fuel with
  | 0 => throw .malformed
  | fuel + 1 =>
    let ofItems := collectionTag tag .sequence
    let ofPairs := collectionTag tag .mapping
    match ← peek, place with
    | some .item, .inPair =>
      bind anchor (.sequence ofItems [])
      return .sequence ofItems (← outdentedItems fuel)
    | some (.scalar text plain), _ =>
      advance
      return scalarNode tag text plain
    | some .openSequence, _ =>
      advance
      bind anchor (.sequence ofItems [])
      return .sequence ofItems (← inLineItems fuel true)
    | some .openMapping, _ =>
      advance
      bind anchor (.mapping ofPairs [])
      return .ofPairs ofPairs (← inLinePairs fuel true)
    | some .blockSequence, .inLine => throw .malformed
    | some .blockSequence, _ =>
      advance
      bind anchor (.sequence ofItems [])
      return .sequence ofItems (← blockItems fuel)
    | some .blockMapping, .inLine => throw .malformed
    | some .blockMapping, _ =>
      advance
      bind anchor (.mapping ofPairs [])
      return .ofPairs ofPairs (← blockPairs fuel)
    | _, _ =>
      if anchor.isNone && tag.isNone then throw .malformed
      return scalarNode tag "" (tag.isNone)

/-- A node, or the empty one where one of the given words follows at once. -/
def nodeUnless (fuel : Nat) (place : Place) (ends : List Token) : Composing Node := do
  match fuel with
  | 0 => throw .malformed
  | fuel + 1 => if ← nothingBefore ends then return .empty else node fuel place

/-- The value of a pair, the empty node where there is none. -/
def pairValue (fuel : Nat) (place : Place) (ends : List Token) : Composing Node := do
  match fuel with
  | 0 => throw .malformed
  | fuel + 1 => if ← take .value then nodeUnless fuel place ends else return .empty

/-- The items of a sequence that is laid out by indentation. -/
def blockItems (fuel : Nat) : Composing (List Node) := do
  match fuel with
  | 0 => throw .malformed
  | fuel + 1 =>
    if ← take .item then
      let first ← nodeUnless fuel .block [.item, .blockEnd]
      return first :: (← blockItems fuel)
    else if ← take .blockEnd then return []
    else throw .malformed

/-- The items of a sequence that is not indented further than the key in front of it. -/
def outdentedItems (fuel : Nat) : Composing (List Node) := do
  match fuel with
  | 0 => throw .malformed
  | fuel + 1 =>
    if ← take .item then
      let first ← nodeUnless fuel .block [.item, .key, .value, .blockEnd]
      return first :: (← outdentedItems fuel)
    else return []

/-- The pairs of a mapping that is laid out by indentation. -/
def blockPairs (fuel : Nat) : Composing (List (Node × Node)) := do
  match fuel with
  | 0 => throw .malformed
  | fuel + 1 =>
    let ends : List Token := [.key, .value, .blockEnd]
    if ← take .key then
      let key ← nodeUnless fuel .inPair ends
      let value ← pairValue fuel .inPair ends
      return (key, value) :: (← blockPairs fuel)
    else if ← take .blockEnd then return []
    else throw .malformed

/-- The items of a sequence in brackets; a pair among them is a mapping of its own. -/
def inLineItems (fuel : Nat) (first : Bool) : Composing (List Node) := do
  match fuel with
  | 0 => throw .malformed
  | fuel + 1 =>
    if ← take .closeSequence then return []
    if !first then
      if !(← take .comma) then throw .malformed
    let ends : List Token := [.comma, .closeSequence]
    if ← take .key then
      let key ← nodeUnless fuel .inLine (.value :: ends)
      let value ← pairValue fuel .inLine ends
      return .ofPairs .mapping [(key, value)] :: (← inLineItems fuel false)
    else if ← take .closeSequence then return []
    else
      let item ← node fuel .inLine
      return item :: (← inLineItems fuel false)

/-- The pairs of a mapping in braces; a node without a colon is a key without a value. -/
def inLinePairs (fuel : Nat) (first : Bool) : Composing (List (Node × Node)) := do
  match fuel with
  | 0 => throw .malformed
  | fuel + 1 =>
    if ← take .closeMapping then return []
    if !first then
      if !(← take .comma) then throw .malformed
    let ends : List Token := [.comma, .closeMapping]
    if ← take .key then
      let key ← nodeUnless fuel .inLine (.value :: ends)
      let value ← pairValue fuel .inLine ends
      return (key, value) :: (← inLinePairs fuel false)
    else if ← take .closeMapping then return []
    else
      let key ← node fuel .inLine
      return (key, .empty) :: (← inLinePairs fuel false)

end

/-- What handles are short for when no directive says so. -/
def standardHandles : List (String × String) := [("!", "!"), ("!!", Tag.family)]

/-- Takes the directives in front of a document. -/
def directives (versioned : Bool) (handles : List (String × String)) (ts : List Token) :
    Except Fault (List (String × String) × List Token) :=
  match ts with
  | .version major :: rest =>
    if versioned || major != 1 then .error .malformed else directives true handles rest
  | .shorthand handle expansion :: rest =>
    if handles.any (·.1 == handle) then .error .malformed
    else directives versioned ((handle, expansion) :: handles) rest
  | .directive :: rest => directives versioned handles rest
  | _ => .ok (handles ++ standardHandles, ts)

/-- Whether no content comes before the end of the document. -/
def endsDocument : List Token → Bool
  | [] => true
  | t :: _ =>
    match t with
    | .documentStart => true
    | .documentEnd => true
    | .version _ => true
    | .shorthand _ _ => true
    | .directive => true
    | _ => false

end Composer

open Composer in
/-- The only document of a text, `none` when there is none. -/
def Node.ofTokens (ts : List Token) : Except Fault (Option Node) := do
  let isDocument (handles : List (String × String)) (ts : List Token) :
      Except Fault (Node × List Token) := do
    let (n, c) ← (node (3 * ts.length + 3) .block).run { rest := ts, handles }
    return (n, c.rest)
  let finish (n : Node) (rest : List Token) : Except Fault (Option Node) :=
    if (rest.dropWhile (· == .documentEnd)).isEmpty then .ok (some n) else .error .malformed
  let starts := match ts with
    | .documentEnd :: _ => false
    | _ => endsDocument ts
  if ts.isEmpty then return none
  else if starts then
    let (handles, ts) ← directives false [] ts
    match ts with
    | .documentStart :: rest =>
      if endsDocument rest then finish .empty rest
      else
        let (n, rest) ← isDocument handles rest
        finish n rest
    | _ => throw .malformed
  else
    let (n, rest) ← isDocument standardHandles ts
    finish n rest

end Docwright.Yaml
