import Docwright.Api.Serve
import Docwright.Command.Invocation
import Docwright.Sink

/-!
# Carrying out commands

`execute` carries out a command line in a `Session`: on its disk, at the time of its clock. What it
does elsewhere stands in the `Outcome`: how the program ends, what it prints, what it sends to the
service and where it would serve. Problems with the settings or with the repository end the program
with status 1 and a message, problems with the command line with status 2.
-/

namespace Docwright.Command

/-- What outlasts a use of the program. -/
structure Session where
  disk : Files.Disk
  clock : Moment
  /-- How many ids have been made up. -/
  madeUp : Nat := 0

/-- What a use of the program is surrounded by. -/
structure Surroundings where
  environment : Service.Environment
  trees : Outline.TreeSource
  /-- What comes back from each request to the service. -/
  responses : Service.Transport
  /-- The time as it is written into log files. -/
  time : String

/-- How the program ends. -/
inductive Ending
  /-- With a status, and last words about a failure. -/
  | status (code : Nat) (words : String)
  /-- With a crash. -/
  | crash (c : Crash)
  /-- Because the settings are not accepted. -/
  | rejected (r : Config.Rejection)

/-- What a use of the program does. -/
structure Outcome where
  ending : Ending
  stdout : String := ""
  /-- The records, up to the end. -/
  log : Log := []
  /-- The requests to the service. -/
  requests : List Service.Request := []
  /-- The waits. -/
  sleeps : List Float := []
  /-- Where the service is offered. -/
  served : Option (String × Int) := none

/-- The program ends well and prints a text. -/
def Outcome.done (log : Log) (stdout : String) : Outcome :=
  { ending := .status 0 "", stdout, log }

/-- The program ends with status 1. -/
def Outcome.failed (log : Log) (words : String) : Outcome :=
  { ending := .status 1 (words ++ "\n"), log }

/-- The program crashes. -/
def Outcome.crashed (log : Log) (c : Crash) : Outcome :=
  { ending := .crash c, log }

/-- The end of the program at a crash of looking at the repository. When a file or folder turns out
not to be there, that is a failure like others. -/
def Outcome.ofCrash (log : Log) (c : Crash) : Outcome :=
  match c with
  | .file e =>
    if e.trouble == .missing || e.trouble == .notFolder then .failed log e.message
    else .crashed log c
  | _ => .crashed log c

/-- The settings and the source files of a repository, or the end of the program. -/
def survey (d : Files.Disk) (path : String) (config : Option String) :
    Except Outcome (Log × Config × List SourceFile) :=
  let repository := Files.Path.ofString path
  match Config.load d ((config.map Files.Path.ofString).getD repository) with
  | .error (.rejected r) => .error (.failed [] s!"Invalid configuration: {r.message}")
  | .error (.crashed c) => .error (.ofCrash [] c)
  | .ok settings =>
    match Source.Survey.collect d settings.excluded repository repository.text with
    | (log, .ok files) => .ok (log, settings, files)
    | (log, .error (.crashed c)) => .error (.ofCrash log c)
    | (log, .error fault) => .error (.failed log fault.message)

/-- The text of structured data on lines of its own. -/
def printed (j : Json) : String :=
  j.indented ++ "\n"

/-- The outlines of source files, given to `show_`. -/
def outlined (s : Surroundings) (log : Log) (files : List SourceFile)
    (show_ : List Outline → Log × Json) : Outcome :=
  match Outline.outline s.trees files with
  | (more, .error fault) => .crashed (log ++ more) (.badSymbol fault)
  | (more, .ok outlines) =>
    let (last, j) := show_ outlines
    .done (log ++ more ++ last) (printed j)

/-- The features of source files as structured data. -/
def showFeatures (outlines : List Outline) : Log × Json :=
  let groups := Feature.groups Feature.standardTable outlines
  (Feature.groupingLog Feature.standardTable outlines,
    .object (groups.map fun (feature, members) =>
      (feature, .array (members.map fun o => .text o.path))))

/-- The place of a path, seen from the working folder where it lies in there. -/
def shownPath (d : Files.Disk) (p : Files.Path) : String :=
  let place := (d.resolve p).parts
  if d.here.isPrefixOf place then Files.Path.text ⟨false, place.drop d.here.length⟩ else p.text

/-- Where the snapshot of the cache stands in a repository. -/
def cacheFile (repository : Files.Path) : Files.Path :=
  (repository.child ".docforge").child "generation_cache.json"

/-- The cache that generating starts with. -/
def startingCache (d : Files.Disk) (repository : Files.Path) (cached : Bool) :
    Log × Except Crash Cache :=
  if cached then Cache.openAt d (cacheFile repository) else ([], .ok {})

/-- What comes of a job that has run. -/
def jobOutcome (w : Works) (id : String) (made : Bool) (destination : Files.Path) :
    Ending × String :=
  let job := w.desk.ledger.job? id
  if made && (job.map (·.status)) == some .completed then
    (.status 0 "", s!"Documentation written to {shownPath w.disk destination}\n")
  else
    let reason := (job.bind (·.log.getLast?)).getD "unknown error"
    (.status 1 (s!"docforge generate failed: {reason}\n" ++
      "Run with --verbose for more details.\n"), "")

/-- Writes the documentation of a repository. -/
def generate (s : Surroundings) (log : Log) (settings : Config) (files : List SourceFile)
    (repository : Files.Path) (out mode : Option String) (cached : Bool) (session : Session) :
    Outcome × Session :=
  let (more, cache) := startingCache session.disk repository cached
  let log := log ++ more
  match cache, settings.setUp s.environment s.trees s.responses none with
  | .error c, _ => (.crashed log c, session)
  | _, .error c => (.crashed log c, session)
  | .ok cache, .ok setup =>
    let endpoint := settings.endpoint.complete s.environment
    let destination := match out with
      | some out => Files.Path.ofString out
      | none => repository.join (.ofString settings.docsFolder)
    let ledger : Ledger := { clock := session.clock, log := log ++ setup.log }
    let w : Works := {
      desk := { ledger, cache, gate := setup.gate }, disk := session.disk
      madeUp := session.madeUp }
    let (id, w) := w.freshId
    let (nav, w) := runJob setup.pipeline id files destination mode w
    let (ending, stdout) := jobOutcome w id nav.isSome destination
    ({ ending, stdout, log := w.desk.ledger.log, sleeps := w.desk.sleeps
       requests := w.desk.asked.filterMap fun q => (endpoint.request q).toOption },
      ⟨w.disk, w.desk.ledger.clock, w.madeUp⟩)

/-- Offers the job service, which must be able to start. -/
def serve (s : Surroundings) (host : String) (port : Int) (session : Session) : Outcome :=
  match Api.start s.environment s.trees s.responses session.disk session.clock with
  | .error (.rejected r) => { ending := .rejected r }
  | .error (.crashed c) => .crashed [] c
  | .ok (_, w) => { Outcome.done w.desk.ledger.log "" with served := some (host, port) }

/-- Carries out a task. -/
def perform (s : Surroundings) (task : Task) (session : Session) : Outcome × Session :=
  match task with
  | .serve host port => (serve s host port session, session)
  | .outline path config =>
    match survey session.disk path config with
    | .error outcome => (outcome, session)
    | .ok (log, _, files) =>
      (outlined s log files fun outlines => ([], .array (outlines.map Outline.toJson)), session)
  | .classify path config =>
    match survey session.disk path config with
    | .error outcome => (outcome, session)
    | .ok (log, _, files) => (outlined s log files showFeatures, session)
  | .generate path config out mode cached =>
    match survey session.disk path config with
    | .error outcome => (outcome, session)
    | .ok (log, settings, files) =>
      generate s log settings files (.ofString path) out mode cached session

/-- Carries out a command line. The second part of the answer is what is shown on the console while
the program works. -/
def execute (s : Surroundings) (words : List String) (session : Session) :
    Outcome × String × Session :=
  match Invocation.ofWords words with
  | .error .help => (.done [] "", "", session)
  | .error (.problem program p) =>
    ({ ending := .status 2 s!"{program}: error: {p.message}" }, "", session)
  | .ok invocation =>
    match Sink.openAt invocation.verbose (invocation.logFile.map Files.Path.ofString)
        session.disk with
    | .error e => (.crashed [] (.file e), "", session)
    | .ok (sink, disk) =>
      let (outcome, session) := perform s invocation.task { session with disk }
      (outcome, sink.console outcome.log,
        { session with disk := sink.write s.time outcome.log session.disk })

end Docwright.Command
