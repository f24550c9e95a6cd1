import Docwright.Command.Words
import Docwright.Files.Path

/-!
# Commands

The program has four commands: `generate` writes the documentation of a repository, `outline` and
`classify` print what is known of its symbols and features, and `serve` runs the job service.
`Invocation.ofWords` makes an `Invocation` of the words of a command line.
-/

namespace Docwright.Command

/-- What the program is asked to do. -/
inductive Task
  /-- Write the documentation of the repository at a path. -/
  | generate (path : String) (config out : Option String) (mode : Option String) (cached : Bool)
  /-- Print the symbols of the repository at a path. -/
  | outline (path : String) (config : Option String)
  /-- Print the features of the repository at a path. -/
  | classify (path : String) (config : Option String)
  /-- Run the job service. -/
  | serve (host : String) (port : Int)
  deriving DecidableEq, Repr

/-- A use of the program. -/
structure Invocation where
  task : Task
  verbose : Bool := false
  /-- The file to which records are added. -/
  logFile : Option String := none
  deriving DecidableEq, Repr

/-- The name of the program. -/
def programName : String := "docforge"

/-- The switch that makes the program tell more. -/
def verboseSwitch : Switch := { names := ["-v", "--verbose"] }

/-- The switch for the settings file. -/
def configSwitch : Switch := { names := ["--config"], takes := .text }

/-- The names of the commands. -/
def commandNames : List String := ["generate", "outline", "classify", "serve"]

/-- The words in front of the command. -/
def mainGrammar : Grammar where
  program := programName
  switches := [helpSwitch, verboseSwitch, { names := ["--log-file"], takes := .text }]
  operand := .command

/-- The words behind the name of a command. -/
def grammarOf (command : String) : Grammar where
  program := s!"{programName} {command}"
  switches := [helpSwitch, verboseSwitch] ++
    match command with
    | "generate" => [
        configSwitch, { names := ["--out"], takes := .text },
        { names := ["--mode"], takes := .choice ["group", "file"] }, { names := ["--no-cache"] }]
    | "serve" => [{ names := ["--host"], takes := .text }, { names := ["--port"], takes := .whole }]
    | _ => [configSwitch]
  operand := if command == "serve" then .none else .path

/-- The task that the words behind the name of a command ask for. -/
def taskOf (command : String) (f : Found) : Task :=
  let path := f.operand.getD "."
  let config := f.value? "--config"
  match command with
  | "generate" =>
    .generate path config (f.value? "--out") (f.value? "--mode") (!f.has "--no-cache")
  | "outline" => .outline path config
  | "classify" => .classify path config
  | _ =>
    let port := (f.value? "--port").bind fun text => (Number.wholeOf text).toOption
    .serve ((f.value? "--host").getD "0.0.0.0") (port.getD 8000)

/-- Makes an invocation of the words of a command line. Words that nothing asks for are reported
last of all. -/
def Invocation.ofWords (words : List String) : Except Stop Invocation := do
  let refuse {α : Type} (p : Problem) : Except Stop α := throw (.problem programName p)
  let (front, command) ← read mainGrammar words
  match command with
  | none => refuse .commandMissing
  | some [] => refuse .commandMissing
  | some (name :: rest) =>
    if !commandNames.contains name then refuse (.notAllowed "command" name commandNames)
    else
      let (f, _) ← read (grammarOf name) rest
      let unasked := front.unasked ++ f.unasked
      if !unasked.isEmpty then refuse (.unrecognized unasked)
      else
        return {
          task := taskOf name f, verbose := front.has "--verbose" || f.has "--verbose"
          logFile := front.value? "--log-file" }

end Docwright.Command
