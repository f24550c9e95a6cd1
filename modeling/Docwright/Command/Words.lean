import Docwright.Number.Reading

/-!
# The words of a command line

A command line is read against a `Grammar`: the switches of a command and the operand that it takes.
A switch may be shortened as long as it stays the only one with that beginning, its value may follow
behind an equals sign or as the next word, and single letters may be run together. Letters of such a
run from the first unknown one on are a word that nothing asks for. All words behind a double dash
are operands.

Words are first told apart (`Word.of`), each on its own, and then read from left to right (`read`).
The first problem that is met ends the reading. Words that nothing asks for are collected, so that
they can be reported together.
-/

namespace Docwright.Command

/-- What a switch takes. -/
inductive Takes
  /-- Nothing: the switch is set or not. -/
  | nothing
  /-- Any text. -/
  | text
  /-- One of the given texts. -/
  | choice (allowed : List String)
  /-- A whole number. -/
  | whole
  deriving DecidableEq, Repr

/-- A switch, under all its names. -/
structure Switch where
  names : List String
  takes : Takes := .nothing
  deriving DecidableEq, Repr

/-- The name by which messages call a switch. -/
def Switch.title (s : Switch) : String :=
  "/".intercalate s.names

/-- The operand of a command. -/
inductive Operand
  | none
  /-- A path, which may be left out. -/
  | path
  /-- The name of a command, followed by all words for it. -/
  | command
  deriving DecidableEq, Repr

/-- What a command line may hold. -/
structure Grammar where
  /-- How messages call the program. -/
  program : String
  switches : List Switch
  operand : Operand

/-- What is wrong with a command line. -/
inductive Problem
  /-- A shortened switch could be several. -/
  | ambiguous (word : String) (names : List String)
  /-- A switch has no value. -/
  | valueMissing (title : String)
  /-- A switch that takes no value has one. -/
  | valueIgnored (title value : String)
  /-- A value is none of those that are allowed. -/
  | notAllowed (title value : String) (allowed : List String)
  /-- A value is not a whole number. -/
  | notWhole (title value : String)
  /-- There is no command. -/
  | commandMissing
  /-- Words that nothing asks for. -/
  | unrecognized (words : List String)
  deriving DecidableEq, Repr

/-- The problem in words. -/
def Problem.message : Problem → String
  | ambiguous word names =>
    let shown := ", ".intercalate names
    s!"ambiguous option: {word} could match {shown}"
  | valueMissing title => s!"argument {title}: expected one argument"
  | valueIgnored title value => s!"argument {title}: ignored explicit argument {Text.quote value}"
  | notAllowed title value allowed =>
    let shown := ", ".intercalate (allowed.map Text.quote)
    s!"argument {title}: invalid choice: {Text.quote value} (choose from {shown})"
  | notWhole title value => s!"argument {title}: invalid int value: {Text.quote value}"
  | commandMissing => "the following arguments are required: command"
  | unrecognized words =>
    let shown := " ".intercalate words
    s!"unrecognized arguments: {shown}"

/-! ### Telling words apart -/

/-- What stands behind the name of a switch in the same word. -/
inductive Attached
  /-- A value behind an equals sign. -/
  | value (text : String)
  /-- Letters that are run together with the first one. -/
  | letters (text : String)
  deriving DecidableEq, Repr

/-- A word of a command line. -/
inductive Word
  /-- An operand or a value. -/
  | plain (text : String)
  /-- The double dash. -/
  | dashes
  /-- A switch and what is attached to its name. -/
  | switch (s : Switch) (attached : Option Attached)
  /-- What looks like a switch and is none. -/
  | unknown (text : String)
  deriving DecidableEq, Repr

namespace Grammar

/-- The switches by their names. -/
def named (g : Grammar) : List (String × Switch) :=
  g.switches.flatMap fun s => s.names.map (·, s)

/-- Cuts a word at its first equals sign. -/
def cutAtEquals (cs : List Char) : List Char × Option (List Char) :=
  let (front, rest) := cs.span (· != '=')
  (front, match rest with
    | [] => none
    | _ :: value => some value)

/-- The switches that a shortened word could be. -/
def candidates (g : Grammar) (cs : List Char) : List (Switch × String × Option Attached) :=
  match cs with
  | '-' :: '-' :: _ =>
    let (front, value) := cutAtEquals cs
    (g.named.filter fun (name, _) => front.isPrefixOf name.toList).map fun (name, s) =>
      (s, name, value.map fun value => .value (String.ofList value))
  | _ =>
    g.named.filterMap fun (name, s) =>
      if name.toList == cs.take 2 then some (s, name, some (.letters (String.ofList (cs.drop 2))))
      else if cs.isPrefixOf name.toList then some (s, name, none)
      else none

end Grammar

/-- Whether a word is a negative number. -/
def isNegative (cs : List Char) : Bool :=
  let isDigit (c : Char) : Bool := (Text.digitValue? c).isSome
  match cs with
  | '-' :: rest =>
    let (whole, fraction) := rest.span isDigit
    match fraction with
    | [] => !whole.isEmpty
    | '.' :: digits => !digits.isEmpty && digits.all isDigit
    | _ => false
  | _ => false

/-- Tells what a word in front of a double dash is. -/
def Word.of (g : Grammar) (text : String) : Except Problem Word :=
  match text.toList with
  | '-' :: second :: rest =>
    let cs := '-' :: second :: rest
    let (front, value) := Grammar.cutAtEquals cs
    match g.named.lookup text, value, g.named.lookup (String.ofList front) with
    | some s, _, _ => .ok (.switch s none)
    | none, some value, some s => .ok (.switch s (some (.value (String.ofList value))))
    | _, _, _ =>
      match g.candidates cs with
      | [] => .ok (if isNegative cs || cs.contains ' ' then .plain text else .unknown text)
      | [(s, _, attached)] => .ok (.switch s attached)
      | several => .error (.ambiguous text (several.map fun (_, name, _) => name))
  | _ => .ok (.plain text)

/-- Tells all words apart. -/
def Word.all (g : Grammar) : List String → Except Problem (List Word)
  | [] => .ok []
  | text :: rest =>
    if text == "--" then .ok (.dashes :: rest.map .plain)
    else do return (← Word.of g text) :: (← Word.all g rest)

/-- The word as it was written. -/
def Word.operand? : Word → Option String
  | plain text => some text
  | _ => none

/-! ### Reading words -/

/-- What has been read of a command line. -/
structure Found where
  /-- The switches that are set, with their values. -/
  set : List (Switch × String) := []
  operand : Option String := none
  /-- Words that nothing asks for. -/
  unasked : List String := []

namespace Found

/-- The value of the last switch of the given name that is set. -/
def value? (f : Found) (name : String) : Option String :=
  (f.set.reverse.find? fun (s, _) => s.names.contains name).map (·.2)

/-- Whether a switch is set. -/
def has (f : Found) (name : String) : Bool :=
  (f.value? name).isSome

end Found

/-- How reading a command line ends early. -/
inductive Stop
  /-- Help is asked for. -/
  | help
  /-- There is a problem, met by the given program. -/
  | problem (program : String) (p : Problem)
  deriving DecidableEq, Repr

/-- The switch that asks for help. -/
def helpSwitch : Switch := { names := ["-h", "--help"] }

/-- What is wrong with the value of a switch. -/
def Switch.problem? (s : Switch) (value : String) : Option Problem :=
  match s.takes with
  | .choice allowed =>
    if allowed.contains value then none else some (.notAllowed s.title value allowed)
  | .whole =>
    if (Number.wholeOf value).toOption.isSome then none else some (.notWhole s.title value)
  | _ => none

/-- The switches that letters behind the letter of `s` stand for, that one first, and the word that
the letters make from the first unknown one on. A run may end in an equals sign and a value. -/
def run (g : Grammar) (s : Switch) (letters : List Char) :
    Except Problem (List (Switch × String) × Option String) :=
  if s.takes != .nothing then .ok ([(s, String.ofList letters)], none)
  else
    match letters with
    | [] => .ok ([(s, "")], none)
    | c :: rest =>
      if c == '-' then .error (.valueIgnored s.title (String.ofList letters))
      else
        match g.named.lookup (String.ofList ['-', c]), rest with
        | none, _ => .ok ([(s, "")], some (String.ofList ('-' :: letters)))
        | some next, '=' :: value =>
          if next.takes == .nothing then .error (.valueIgnored next.title (String.ofList value))
          else .ok ([(s, ""), (next, String.ofList value)], none)
        | some next, rest => (run g next rest).map fun (more, unasked) => ((s, "") :: more, unasked)

/-- The switches that a switch with something attached stands for, and a word that nothing asks
for. -/
def Attached.switches (g : Grammar) (s : Switch) :
    Attached → Except Problem (List (Switch × String) × Option String)
  | value text =>
    if s.takes == .nothing then .error (.valueIgnored s.title text) else .ok ([(s, text)], none)
  | letters text => run g s text.toList

/-- Sets switches, one after the other. -/
def setAll (g : Grammar) (f : Found) : List (Switch × String) → Except Stop Found
  | [] => .ok f
  | (s, value) :: rest =>
    if s == helpSwitch then .error .help
    else
      match s.problem? value with
      | some p => .error (.problem g.program p)
      | none => setAll g { f with set := f.set ++ [(s, value)] } rest

/-- Reads words from left to right. A command takes all words from its name on. -/
def readWords (g : Grammar) (words : List String) (f : Found) :
    List Word → Except Stop (Found × Option (List String))
  | [] => .ok (f, none)
  | .unknown text :: rest =>
    readWords g (words.drop 1) { f with unasked := f.unasked ++ [text] } rest
  | .switch s (some attached) :: rest =>
    match attached.switches g s with
    | .error p => .error (.problem g.program p)
    | .ok (switches, unasked) =>
      match setAll g { f with unasked := f.unasked ++ unasked.toList } switches with
      | .error stop => .error stop
      | .ok f => readWords g (words.drop 1) f rest
  | .switch s none :: rest =>
    if s.takes == .nothing then
      match setAll g f [(s, "")] with
      | .error stop => .error stop
      | .ok f => readWords g (words.drop 1) f rest
    else
      match rest with
      | .plain value :: rest =>
        match setAll g f [(s, value)] with
        | .error stop => .error stop
        | .ok f => readWords g (words.drop 2) f rest
      | _ => .error (.problem g.program (.valueMissing s.title))
  | .plain text :: rest =>
    match g.operand, f.operand with
    | .command, _ => .ok (f, some words)
    | .path, none =>
      let f := { f with operand := some text }
      match rest with
      | .dashes :: rest => readWords g (words.drop 2) f rest
      | rest => readWords g (words.drop 1) f rest
    | _, _ => readWords g (words.drop 1) { f with unasked := f.unasked ++ [text] } rest
  | .dashes :: rest =>
    let operands := rest.filterMap Word.operand?
    match g.operand, f.operand, operands with
    | .command, _, _ :: _ => .ok (f, some words)
    | .path, none, text :: others =>
      .ok ({ f with operand := some text, unasked := f.unasked ++ others }, none)
    | .path, none, [] => .ok (f, none)
    | _, _, _ => .ok ({ f with unasked := f.unasked ++ "--" :: operands }, none)

/-- Reads a command line. The second part of the answer is the name of a command with all words for
it, where the grammar asks for one and one is there. -/
def read (g : Grammar) (words : List String) : Except Stop (Found × Option (List String)) :=
  match Word.all g words with
  | .error p => .error (.problem g.program p)
  | .ok told => readWords g words {} told

end Docwright.Command
