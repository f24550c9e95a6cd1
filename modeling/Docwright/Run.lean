import Docwright.Feature
import Docwright.Generation
import Docwright.Outline.Extract
import Docwright.Site.Materialize
import Docwright.Source.Screening

/-!
# Running a job

A job takes source files through all stages: screening, outlining, grouping into features,
generating a document for each unit and writing the site. Everything that happens is told in the
ledger; a job never fails in any other way than by ending as failed there.

`runJob` ends with the navigation of the site exactly when the job completes.
-/

namespace Docwright

/-- The modes of generating. -/
def generationModes : List String := ["group", "file"]

/-- How jobs are run. -/
structure Pipeline where
  generation : GenerationSettings := {}
  /-- The style of sidebars. -/
  sidebar : String := "json"
  /-- Whether pages are made for features or for files unless a job says otherwise. -/
  mode : String := "group"
  /-- What makes syntax trees. -/
  trees : Outline.TreeSource
  /-- What answers questions. -/
  service : Service.ServiceBehaviour

/-- The crash of setting up a pipeline with a mode that is none. -/
def modeCrash? (mode : String) : Option Crash :=
  if generationModes.contains mode then none
  else some (.badValue s!"Unknown generation mode: {mode}")

/-- What jobs work on. -/
structure Works where
  desk : Desk
  disk : Files.Disk
  /-- How many ids have been made up. -/
  madeUp : Nat := 0

namespace Works

/-- Changes the ledger. -/
def onLedger (w : Works) (f : Ledger → Ledger) : Works :=
  { w with desk := { w.desk with ledger := f w.desk.ledger } }

/-- Makes up an id that has not been used. -/
def freshId (w : Works) : String × Works :=
  (String.ofList (Text.hexDigits 32 (w.madeUp + 1)), { w with madeUp := w.madeUp + 1 })

/-- The id that is given, or else one that is made up. -/
def idOr (w : Works) (id : Option String) : String × Works :=
  match Service.nonEmpty id with
  | some id => (id, w)
  | none => w.freshId

end Works

namespace Run

/-- Why a job fails. -/
inductive Fault
  /-- Something that every job needs is not there. -/
  | precondition (reason : String)
  /-- A unit has no document. -/
  | generation (fault : GenerationFault)
  /-- Something unexpected happened. -/
  | crashed (crash : Crash)
  /-- A progress was to be computed out of no documents at all. -/
  | dividedByZero

/-- The fault that a failure to generate a document makes. -/
def Fault.ofGeneration : GenerationFault → Fault
  | .crashed crash => .crashed crash
  | fault => .generation fault

/-- The first part of the stages' progress that belongs to generating. -/
def generationStart : Int := 40

/-- The end of the part of the progress that belongs to generating. -/
def generationEnd : Int := 75

/-- The progress once `done` of `all` documents have been generated; there is none when `all` is
zero. -/
def progressAfter? (done all : Nat) : Option Int :=
  if all = 0 then none
  else some (generationStart + (generationEnd - generationStart) * done / all)

/-- The units of the groups in a mode. -/
def unitsOf (mode : String) (files : List SourceFile) (groups : List (String × List Outline)) :
    List Page.PageUnit :=
  if mode == "group" then groups.map fun (feature, outlines) => .ofGroup feature outlines
  else
    groups.flatMap fun (feature, outlines) => outlines.map fun o =>
      -- the last file of a name stands for all of that name
      let source := ((files.reverse.find? (·.path == o.path)).map SourceFile.text).getD ""
      .ofFile o source feature

/-- The units of a job once its files have been screened, outlined and grouped. -/
def prepare (p : Pipeline) (job mode : String) (files : List SourceFile) (w : Works) :
    Except Fault (List Page.PageUnit) × Works :=
  let w := w.onLedger fun l =>
    (l.setStatus job .initializing).append job s!"Starting documentation job ({mode} mode)"
      (some 5) (some "initializing")
  if files.isEmpty then (.error (.precondition "no input files were provided"), w)
  else
    let candidates := Source.documentable files
    let w := w.onLedger fun l =>
      ((l.setStatus job .analyzing).record (Source.screeningLog files)).append job
        s!"Analyzing {candidates.length} of {files.length} files after filtering"
        (some 15) (some "analyzing")
    let (log, outlined) := Outline.outline p.trees candidates
    let w := w.onLedger (·.record log)
    match outlined with
    | .error fault => (.error (.crashed (.badSymbol fault)), w)
    | .ok outlines =>
      if outlines.isEmpty then
        (.error (.precondition "no parseable source files with named declarations"), w)
      else
        let groups := Feature.groups Feature.standardTable outlines
        let summary := ", ".intercalate (groups.map fun (feature, members) =>
          s!"{feature} ({members.length})")
        let units := unitsOf mode files groups
        let w := w.onLedger fun l =>
          let l := l.append job s!"Extracted symbols from {outlines.length} files"
            (some 20) (some "analyzing")
          let l := l.record (Feature.groupingLog Feature.standardTable outlines)
          let l := l.append job s!"Classified files into features: {summary}"
            (some 25) (some "classifying")
          (l.setStatus job .generating).append job s!"Generating {units.length} documents"
            (some generationStart) (some "generating")
        (.ok units, w)

/-- Generates the documents of units one after the other; `done` of `all` are there already. -/
def generateAll (p : Pipeline) (job : String) (all done : Nat) :
    List Page.PageUnit → Works → Except Fault (List Page.Document) × Works
  | [], w => (.ok [], w)
  | u :: rest, w =>
    match Generation.generate p.generation p.service (some job) (done + 2) u w.desk with
    | (.error fault, desk) => (.error (.ofGeneration fault), { w with desk })
    | (.ok document, desk) =>
      match progressAfter? (done + 1) all with
      | none => (.error .dividedByZero, { w with desk })
      | some progress =>
        let w := { w with desk }.onLedger fun l =>
          l.append job s!"Documented {u.label} ({done + 1}/{all}, {document.origin.name})"
            (some progress) (some "generating")
        match generateAll p job all (done + 1) rest w with
        | (.error fault, w) => (.error fault, w)
        | (.ok documents, w) => (.ok (document :: documents), w)

/-- Writes the snapshot of the cache. -/
def persistCache (w : Works) : Except Fault Unit × Works :=
  match w.desk.cache.persist w.disk with
  | (.error e, disk) => (.error (.crashed (.file e)), { w with disk })
  | (.ok cache, disk) => (.ok (), { w with disk, desk := { w.desk with cache } })

/-- Writes the site and ends the job. -/
def finish (p : Pipeline) (job : String) (documents : List Page.Document)
    (destination : Files.Path) (w : Works) : Except Fault Site.NavNode × Works :=
  let w := w.onLedger fun l =>
    (l.setStatus job .finalizing).append job s!"Writing documentation to {destination.text}"
      (some 80) (some "finalizing")
  let (made, shop) :=
    Site.materialize p.sidebar documents destination (some job) Site.landingLabel
      ⟨w.disk, w.desk.ledger⟩
  let w := { w with disk := shop.disk }.onLedger fun _ => shop.ledger
  match made with
  | .error crash => (.error (.crashed crash), w)
  | .ok nav =>
    match persistCache w with
    | (.error fault, w) => (.error fault, w)
    | (.ok (), w) =>
      (.ok nav, w.onLedger fun l =>
        let l := l.append job "Rebuilt navigation sidebar" (some 90) (some "finalizing")
        let l := l.append job s!"Documentation generated: {documents.length} documents"
          (some 100) (some "completed")
        (l.setStatus job .completed).record
          [⟨.info, "orchestrator", s!"Job {job} completed with {documents.length} documents"⟩])

/-- Takes a job through all stages. -/
def stages (p : Pipeline) (job mode : String) (files : List SourceFile)
    (destination : Files.Path) (w : Works) : Except Fault Site.NavNode × Works :=
  if !generationModes.contains mode then
    (.error (.precondition s!"unknown generation mode {Text.quote mode}"), w)
  else
    match prepare p job mode files w with
    | (.error fault, w) => (.error fault, w)
    | (.ok units, w) =>
      match generateAll p job units.length 0 units w with
      | (.error fault, w) => (.error fault, w)
      | (.ok documents, w) => finish p job documents destination w

/-- Ends a job as failed. -/
def fail (job reason : String) (l : Ledger) : Ledger :=
  ((l.record [⟨.error, "orchestrator", s!"Job {job} failed: {reason}"⟩]).append job
    s!"ERROR: {reason}" none (some "failed")).setStatus job .failed

/-- Ends a job as failed for a reason that nobody expects. -/
def failUnexpectedly (job reason : String) (l : Ledger) : Ledger :=
  fail job s!"unexpected error: {reason}"
    (l.record [⟨.error, "orchestrator", s!"Job {job} crashed: {reason}"⟩])

/-- Ends a job as failed for the given fault. -/
def failFor (job : String) (fault : Fault) (l : Ledger) : Ledger :=
  match fault with
  | .precondition reason => fail job reason l
  | .generation fault => fail job fault.message l
  | .crashed crash => failUnexpectedly job crash.message l
  | .dividedByZero => failUnexpectedly job "integer division or modulo by zero" l

end Run

/-- Runs a job, which is started if there is none with its id. -/
def runJob (p : Pipeline) (job : String) (files : List SourceFile) (destination : Files.Path)
    (mode : Option String) (w : Works) : Option Site.NavNode × Works :=
  match Run.stages p job ((Service.nonEmpty mode).getD p.mode) files destination
      (w.onLedger (·.ensure job)) with
  | (.ok nav, w) => (some nav, w)
  | (.error fault, w) => (none, w.onLedger (Run.failFor job fault))

end Docwright
