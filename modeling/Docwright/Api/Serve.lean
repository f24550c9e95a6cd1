import Docwright.Api.Submission
import Docwright.Api.Target
import Docwright.Source.Survey

/-!
# The job service

`serve` answers one request. Jobs are submitted to `/jobs` and looked up at `/jobs/` with their id;
`/health` tells that the service is there. A submission that is accepted starts its job afresh, and
the job has run its course by the time the next request is answered. A request that is answered with
a refusal changes no job. `start` makes the service from the settings of the working folder.
-/

namespace Docwright.Api

/-- A request for the service. -/
structure Request where
  method : String
  /-- The path that is asked for. -/
  path : String
  body : List UInt8 := []

/-- What the service answers. -/
inductive Answer
  /-- The service is there. -/
  | health
  /-- A job has been accepted. -/
  | accepted (job : String)
  /-- How far a job has come. -/
  | job (j : Job)
  /-- The request is refused. -/
  | refused (status : Nat) (detail : String)
  /-- The submission is not in order. -/
  | invalid (issues : List Issue)
  /-- The path is meant without the slash at its end. -/
  | redirect
  /-- A page about the service itself. -/
  | page

/-! ### Jobs as they are shown -/

/-- How many minutes a whole job is taken to last. -/
def fullRunMinutes : Int := 5

/-- How many lines of a log are shown. -/
def shownLines : Nat := 50

/-- The time that is left at a progress, in words; nothing at the start and at the end. -/
def remaining? (progress : Int) : Option String :=
  if progress ≤ 0 ∨ 100 ≤ progress then none
  else
    let minutes := ((100 - progress) * fullRunMinutes + 99) / 100
    some (if minutes == 1 then "1 minute" else s!"{minutes} minutes")

/-- The last lines of a log. -/
def lastLines (log : List String) : List String :=
  log.drop (log.length - shownLines)

/-- A job as it is shown. -/
def showJob (j : Job) : Json :=
  let left := if j.status.isTerminal then none else remaining? j.progress
  .object [
    ("jobId", .text j.id), ("status", .text j.status.name), ("progressPercent", .whole j.progress),
    ("currentStep", .text j.step), ("log", .array ((lastLines j.log).map Json.text)),
    ("estimatedTimeRemaining", (left.map Json.text).getD .null)]

/-! ### Answers as they are sent -/

/-- A step on the way to a place, as it is sent. -/
def Step.toJson : Step → Json
  | field name => .text name
  | item index => .whole index

/-- An issue as it is sent: its kind and its place. -/
def Issue.toJson (i : Issue) : Json :=
  .array [.text i.kind.name, .array (i.place.map Step.toJson)]

/-- The status of an answer. -/
def Answer.status : Answer → Nat
  | health => 200
  | accepted _ => 202
  | job _ => 200
  | refused status _ => status
  | invalid _ => 422
  | redirect => 307
  | page => 200

/-- The data of an answer, if it has any. -/
def Answer.body? : Answer → Option Json
  | health => some (.object [("status", .text "ok")])
  | accepted id =>
    some (.object [("jobId", .text id), ("status", .text JobStatus.initializing.name)])
  | job j => some (showJob j)
  | refused _ detail => some (.object [("detail", .text detail)])
  | invalid issues => some (.object [("detail", .array (issues.map Issue.toJson))])
  | redirect => none
  | page => none

/-! ### Routes -/

/-- What a path leads to. -/
inductive Route
  | page
  | health
  | jobs
  | job (id : String)
  deriving DecidableEq, Repr

/-- What a path leads to, if anything. -/
def Route.of? (path : String) : Option Route :=
  match Text.splitOn '/' path.toList with
  | [[], name] =>
    let name := String.ofList name
    if name == "health" then some .health
    else if name == "jobs" then some .jobs
    else if name == "docs" || name == "redoc" then some .page
    else none
  | [[], folder, name] =>
    let folder := String.ofList folder
    let name := String.ofList name
    if folder == "jobs" && !name.isEmpty then some (.job name)
    else if folder == "docs" && name == "oauth2-redirect" then some .page
    else none
  | _ => none

/-- Whether a route takes a method. -/
def Route.allows (r : Route) (method : String) : Bool :=
  match r with
  | page => method == "GET" || method == "HEAD"
  | jobs => method == "POST"
  | _ => method == "GET"

/-- The path with the slashes at its end taken off, or with one put there. -/
def otherForm (path : String) : String :=
  if path.endsWith "/" then Text.onChars (Text.dropRightWhile (· == '/')) path else path ++ "/"

/-- The answer to a path that leads nowhere. -/
def astray (path : String) : Answer :=
  if path != "/" && (Route.of? (otherForm path)).isSome then .redirect
  else .refused 404 "Not Found"

/-! ### Serving -/

/-- The service that the settings of the working folder make, and what it works on. -/
def start (environment : Service.Environment) (trees : Outline.TreeSource)
    (responses : Service.Transport) (disk : Files.Disk) (clock : Moment) :
    Except Config.Fault (Pipeline × Works) := do
  let settings ← Config.load disk ⟨false, []⟩
  let ⟨pipeline, gate, log⟩ ← (settings.setUp environment trees responses none).mapError .crashed
  return (pipeline, { disk, desk := { ledger := { clock, log }, gate } })

/-- The source files of a submission, the records of finding them, or the refusal. -/
def sources (d : Files.Disk) (input : Input) :
    Log × Except Crash (Except Answer (List SourceFile)) :=
  match input with
  | .folder path =>
    let (log, found) := Source.Survey.collect d [] (.ofString path) path
    (log, match found with
      | .ok files => .ok (.ok files)
      | .error (.crashed crash) => .error crash
      | .error fault@(.missing _) => .ok (.error (.refused 404 fault.message))
      | .error fault@(.noFolder _) => .ok (.error (.refused 400 fault.message)))
  | .files files =>
    match files.find? fun f => f.source?.isNone with
    | some f => ([], .ok (.error (.refused 422 s!"{f.path}: invalid base64 content")))
    | none => ([], .ok (.ok (files.filterMap SentFile.source?)))

/-- Accepts a submission and runs its job. -/
def submit (p : Pipeline) (s : Submission) (w : Works) : Except Crash Answer × Works :=
  let (log, found) := sources w.disk s.input
  let w := w.onLedger (·.record log)
  match found with
  | .error crash => (.error crash, w)
  | .ok (.error refusal) => (.ok refusal, w)
  | .ok (.ok files) =>
    let (id, w) := w.idOr s.jobId
    let (_, w) := runJob p id files (.ofString s.outputDir) s.mode (w.onLedger (·.create id))
    (.ok (.accepted id), w)

/-- Answers a request. -/
def serve (p : Pipeline) (r : Request) (w : Works) : Except Crash Answer × Works :=
  match Route.of? r.path with
  | none => (.ok (astray r.path), w)
  | some route =>
    if !route.allows r.method then (.ok (.refused 405 "Method Not Allowed"), w)
    else
      match route with
      | .page => (.ok .page, w)
      | .health => (.ok .health, w)
      | .job id =>
        match w.desk.ledger.job? id with
        | some j => (.ok (.job j), w)
        | none => (.ok (.refused 404 s!"Unknown job: {id}"), w)
      | .jobs =>
        match Submission.ofBytes r.body with
        | none => (.ok (.refused 400 "There was an error parsing the body"), w)
        | some (.error issues) => (.ok (.invalid issues), w)
        | some (.ok s) => submit p s w

end Docwright.Api
