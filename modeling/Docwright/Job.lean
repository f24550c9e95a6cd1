import Docwright.Clock
import Docwright.Json.Whole
import Docwright.Log

/-!
# Jobs

A job is one run of the program, with a status, a progress in percent, a step and a log of lines
that carry the time. The `Ledger` keeps every state that a job has taken, the latest one being what
the job is now, with the clock that stamps their lines and the records of the whole run.

Once a job has completed or failed its status, progress and step are frozen; lines are still added.
Operations on one job leave all others alone.
-/

namespace Docwright

/-- How far a job has come. -/
inductive JobStatus
  | initializing
  | analyzing
  | generating
  | finalizing
  | completed
  | failed
  deriving DecidableEq, Repr

namespace JobStatus

/-- All statuses, in the order in which a job takes them. -/
def all : List JobStatus := [initializing, analyzing, generating, finalizing, completed, failed]

/-- The name of a status. -/
def name : JobStatus → String
  | initializing => "INITIALIZING"
  | analyzing => "ANALYZING"
  | generating => "GENERATING"
  | finalizing => "FINALIZING"
  | completed => "COMPLETED"
  | failed => "FAILED"

/-- The status with the given name. -/
def ofName? (s : String) : Option JobStatus :=
  all.find? (·.name == s)

/-- Whether a job of this status is over. -/
def isTerminal : JobStatus → Bool
  | completed => true
  | failed => true
  | _ => false

end JobStatus

/-- One run of the program. -/
structure Job where
  id : String
  status : JobStatus := .initializing
  /-- The progress in percent, from zero to a hundred. -/
  progress : Int := 0
  step : String := "initializing"
  /-- What has happened, a line for each event. -/
  log : List String := []
  deriving DecidableEq, Repr

namespace Job

/-- Keeps a progress within its bounds. -/
def clamp (n : Int) : Int := max 0 (min 100 n)

/-- Adds a line. -/
def addLine (j : Job) (line : String) : Job :=
  { j with log := j.log ++ [line] }

/-- Takes on a progress and a step where they are given, unless the job is over. -/
def advance (j : Job) (progress : Option Int) (step : Option String) : Job :=
  if j.status.isTerminal then j
  else
    { j with
      progress := (progress.map clamp).getD j.progress
      step := step.getD j.step }

/-- Takes on a status unless the job is over. -/
def setStatus (j : Job) (status : JobStatus) : Job :=
  if j.status.isTerminal then j else { j with status }

end Job

/-- All jobs, the clock and the records of a run. -/
structure Ledger where
  /-- The states that jobs have taken by id, latest first. -/
  history : List (String × Job) := []
  /-- The latest reading of the clock. -/
  clock : Moment
  /-- The records of the run. -/
  log : Log := []

namespace Ledger

/-- The job with the given id, in its latest state. -/
def job? (l : Ledger) (id : String) : Option Job :=
  l.history.lookup id

/-- The job with the given id, or a new one. -/
def jobOrNew (l : Ledger) (id : String) : Job :=
  (l.job? id).getD { id }

/-- Brings the job with the given id into a state. -/
def setJob (l : Ledger) (id : String) (j : Job) : Ledger :=
  { l with history := (id, j) :: l.history }

/-- Adds records. -/
def record (l : Ledger) (log : Log) : Ledger :=
  { l with log := l.log ++ log }

/-- Starts a job afresh, whether there was one with its id or not. -/
def create (l : Ledger) (id : String) : Ledger :=
  l.setJob id { id }

/-- Starts a job unless there is one with its id. -/
def ensure (l : Ledger) (id : String) : Ledger :=
  if (l.job? id).isSome then l else l.create id

/-- Reads the clock. -/
def tick (l : Ledger) : Ledger :=
  { l with clock := l.clock.next }

/-- A message with the time of the clock in front. -/
def stampedLine (l : Ledger) (message : String) : String :=
  s!"[{l.clock.timeOfDay}] {message}"

/-- The record of a line that is added to a job. -/
def lineLog (id message : String) : Log :=
  [⟨.info, "jobs", s!"[job {id}] {message}"⟩]

/-- Adds a stamped line to a job and takes on a progress and a step where they are given. -/
def append (l : Ledger) (id message : String) (progress : Option Int := none)
    (step : Option String := none) : Ledger :=
  let l := l.tick
  let j := ((l.jobOrNew id).addLine (l.stampedLine message)).advance progress step
  (l.setJob id j).record (lineLog id message)

/-- Adds a stamped line with a progress that is still to be read. The line stays even when the
progress turns out not to be a number; the progress of a job that is over is not read. -/
def appendReading (l : Ledger) (id message : String) (progress : Option Json)
    (step : Option String) : Except Number.Fault Ledger × Ledger :=
  let ended := ((l.job? id).map (·.status.isTerminal)).getD false
  match if ended then none else progress.map Json.toWhole with
  | some (.error fault) =>
    let l := l.tick
    (.error fault, l.setJob id ((l.jobOrNew id).addLine (l.stampedLine message)))
  | some (.ok n) => (.ok (l.append id message (some n) step), l.append id message (some n) step)
  | none => (.ok (l.append id message none step), l.append id message none step)

/-- The record about a status that comes after the end of a job. -/
def ignoredLog (id : String) (status present : JobStatus) : Log :=
  [⟨.debug, "jobs", s!"[job {id}] ignoring {status.name} after terminal {present.name}"⟩]

/-- Sets the status of a job. -/
def setStatus (l : Ledger) (id : String) (status : JobStatus) : Ledger :=
  let j := l.jobOrNew id
  let l := l.setJob id (j.setStatus status)
  if j.status.isTerminal then l.record (ignoredLog id status j.status) else l

/-- Adds a line to a job if there is one. -/
def note (l : Ledger) (id : Option String) (message : String) : Ledger :=
  match id with
  | some id => l.append id message
  | none => l

end Ledger

end Docwright
