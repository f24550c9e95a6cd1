import Docwright.Cache
import Docwright.Page.Document
import Docwright.Page.Fallback
import Docwright.Page.Review
import Docwright.Prompt
import Docwright.Service.Endpoint
import Docwright.Service.Retry

/-!
# Generating pages

A unit becomes a document in one of four ways, tried in this order: from the cache, from the service
with the full prompt, from the service with the simplified prompt, and from its symbols. A text of
the service counts only when it passes review; one that does not leads straight to the next way.
Only a refusal for good, or a crash, ends without a document.

The service is a function of the number of calls made so far and the question, so that every
behaviour of it can be stated. The `Desk` is what generating works on.
-/

namespace Docwright

open Service

/-- How pages are generated. -/
structure GenerationSettings where
  /-- Whether pages are made for features or for files. -/
  mode : String := "group"
  /-- The least time between two calls. -/
  cooldown : Float := 1.0
  maxAttempts : Int := 5
  baseDelay : Float := 1.0
  maxDelay : Float := 30.0
  truncateChars : Int := 30000
  fallbackTruncateChars : Int := 45000
  /-- What a file page must exceed. -/
  minLength : Int := 100
  /-- What a feature page must exceed. -/
  summaryMinLength : Int := 50
  /-- How much of the content goes into the key of a page. -/
  cachePrefixChars : Int := 2000
  /-- What makes texts of templates. -/
  engine : Prompt.Engine := .standard

namespace GenerationSettings

/-- How often and how patiently a call is tried. -/
def policy (s : GenerationSettings) : Policy Float :=
  ⟨s.maxAttempts, s.baseDelay, s.maxDelay⟩

/-- How prompts are made. -/
def prompts (s : GenerationSettings) : Prompt.Settings :=
  { truncateChars := s.truncateChars, fallbackTruncateChars := s.fallbackTruncateChars,
    engine := s.engine }

/-- The checks that a text about a unit must pass. -/
def checks (s : GenerationSettings) (u : Page.PageUnit) : List Page.Check :=
  match u.kind with
  | .group => [.summary s.summaryMinLength]
  | _ => [.document s.minLength]

end GenerationSettings

/-- What generating works on. -/
structure Desk where
  ledger : Ledger
  cache : Cache := {}
  gate : Gate Float
  /-- The time at the gate. -/
  now : Float := 0.0
  /-- All waits, at the gate and between attempts, in order. -/
  sleeps : List Float := []
  /-- The questions that were put to the service, in order. -/
  asked : List Question := []

namespace Desk

/-- Adds records. -/
def record (d : Desk) (log : Log) : Desk :=
  { d with ledger := d.ledger.record log }

/-- Adds a line to a job if there is one. -/
def note (d : Desk) (job : Option String) (message : String) : Desk :=
  { d with ledger := d.ledger.note job message }

/-- Waits. -/
def sleep (d : Desk) (delay : Float) : Desk :=
  { d with now := d.now + delay, sleeps := d.sleeps ++ [delay] }

/-- Passes the gate. -/
def pass (d : Desk) : Desk :=
  let (delay, gate) := d.gate.wait d.now
  let d := { d with gate }.record (gateLog delay)
  if 0.0 < delay then d.sleep delay else d

/-- Puts a question to the service. -/
def ask (service : ServiceBehaviour) (q : Question) (d : Desk) :
    Except (Failure Float) String × Desk :=
  (service d.asked.length q, { d with asked := d.asked ++ [q] })

/-- Keeps a text in the cache. -/
def store (d : Desk) (key body : String) : Desk :=
  let ledger := if d.cache.stamped then d.ledger.tick else d.ledger
  { d with ledger, cache := d.cache.store key body ledger.clock }

end Desk

/-- Why a unit has no document. -/
inductive GenerationFault
  /-- The service refused it for good. -/
  | refused (label reason : String)
  /-- Something unexpected happened. -/
  | crashed (crash : Crash)

/-- The fault in words. -/
def GenerationFault.message : GenerationFault → String
  | refused label reason => s!"Generation failed for {label}: {reason}"
  | crashed crash => crash.message

namespace Generation

/-- What is said in the job about a retry. -/
def retryNote (p : Policy Float) (u : Page.PageUnit) (attempt : Int) (delay : Float)
    (failure : Failure Float) : String :=
  let cause := if failure.isRateLimit then "Rate limited" else "Transient failure"
  s!"{cause} for {u.label}; retry {attempt}/{p.maxAttempts - 1} in {Number.fixed 1 delay}s"

/-- What the attempts at a question do to the desk. -/
def steps (service : ServiceBehaviour) (p : Policy Float) (job : Option String)
    (u : Page.PageUnit) (q : Question) : Steps Float Desk String where
  pass := Desk.pass
  call := Desk.ask service q
  giveUp attempt failure d := d.record (giveUpLog attempt failure)
  announce attempt delay failure d :=
    (d.record (retryLog p attempt delay failure)).note job (retryNote p u attempt delay failure)
  sleep delay d := d.sleep delay

/-- The question that a prompt puts. -/
def questionOf (p : Prompt) : Question :=
  { prompt := p.user, system := some p.system, temperature := some (.real p.temperature) }

/-- How asking about a unit in one tier comes out. -/
inductive TierOutcome
  /-- A text that passed review. -/
  | accepted (text : String)
  /-- No text that can be used, for the given reason. -/
  | unusable (reason : String)
  /-- The end of generating. -/
  | fault (fault : GenerationFault)

/-- Says in the job what is about to be asked. -/
def announceTier (job : Option String) (u : Page.PageUnit) (tier : Prompt.Tier) (p : Prompt)
    (d : Desk) : Desk :=
  let d :=
    if p.truncated then d.note job s!"Content for {u.label} truncated for the {tier.words}" else d
  d.note job s!"Requesting documentation for {u.label} ({tier.words})"

/-- Makes an outcome of what the service answered. -/
def judge (s : GenerationSettings) (job : Option String) (u : Page.PageUnit)
    (tier : Prompt.Tier) (answer : Except (Failure Float) String) (d : Desk) :
    TierOutcome × Desk :=
  let about (what message : String) : Log :=
    [⟨.warning, "generator", s!"{what} for {u.label} ({tier.words}): {message}"⟩]
  match answer with
  | .ok text =>
    match Page.review (s.checks u) text with
    | [] => (.accepted text, d)
    | issues =>
      let reason := Page.rejection u.label issues
      (.unusable reason, (d.record (about "Rejected output" reason)).note job
        s!"Output for {u.label} failed validation ({tier.words})")
  | .error (.permanent message _) =>
    (.fault (.refused u.label message),
      (d.record [⟨.error, "generator", s!"Service rejected {u.label}: {message}"⟩]).note job
        s!"ERROR: service rejected {u.label}: {message}")
  | .error (.crashed crash) => (.fault (.crashed crash), d)
  | .error failure =>
    (.unusable failure.message, (d.record (about "Service unavailable" failure.message)).note job
      s!"Service unavailable for {u.label} ({tier.words}): {failure.message}")

/-- Asks the service about a unit in one tier. -/
def askTier (s : GenerationSettings) (service : ServiceBehaviour) (job : Option String)
    (u : Page.PageUnit) (tier : Prompt.Tier) (d : Desk) : TierOutcome × Desk :=
  match Prompt.build s.prompts tier u with
  | .error crash => (.fault (.crashed crash), d)
  | .ok prompt =>
    let (answer, d) :=
      retry s.policy (steps service s.policy job u (questionOf prompt))
        (announceTier job u tier prompt d)
    judge s job u tier answer d

/-- Keeps an accepted text and makes the document. -/
def accept (s : GenerationSettings) (job : Option String) (u : Page.PageUnit) (position : Int)
    (origin : Page.Origin) (text : String) (d : Desk) : Page.Document × Desk :=
  (u.document text position origin,
    (d.store (keyOf u s.cachePrefixChars) text).note job s!"Generated documentation for {u.label}")

/-- Makes the document from the symbols of the unit. -/
def fallBack (job : Option String) (u : Page.PageUnit) (position : Int) (reason : String)
    (d : Desk) : Page.Document × Desk :=
  let message := s!"Falling back to symbol outline for {u.label}"
  (u.document (Page.Fallback.page u (some reason)) position .outline,
    (d.record [⟨.warning, "generator", message⟩]).note job message)

/-- Makes the document about a unit that is not in the cache. -/
def generateAnew (s : GenerationSettings) (service : ServiceBehaviour) (job : Option String)
    (position : Int) (u : Page.PageUnit) (d : Desk) :
    Except GenerationFault Page.Document × Desk :=
  match askTier s service job u .full d with
  | (.fault fault, d) => (.error fault, d)
  | (.accepted text, d) =>
    let (document, d) := accept s job u position .service text d
    (.ok document, d)
  | (.unusable _, d) =>
    match askTier s service job u .simplified d with
    | (.fault fault, d) => (.error fault, d)
    | (.accepted text, d) =>
      let (document, d) := accept s job u position .simplified text d
      (.ok document, d)
    | (.unusable reason, d) =>
      let (document, d) := fallBack job u position reason d
      (.ok document, d)

/-- Makes the document about a unit. -/
def generate (s : GenerationSettings) (service : ServiceBehaviour) (job : Option String)
    (position : Int) (u : Page.PageUnit) (d : Desk) :
    Except GenerationFault Page.Document × Desk :=
  match d.cache.get? (keyOf u s.cachePrefixChars) with
  | some body =>
    (.ok (u.document body position .cache),
      (d.record [⟨.debug, "generator", s!"Cache hit for {u.label}"⟩]).note job
        s!"Using cached documentation for {u.label}")
  | none => generateAnew s service job position u d

end Generation

end Docwright
