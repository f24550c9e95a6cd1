import Docwright.Run
import Docwright.Yaml.Value

/-!
# Configuration

The file `.docforge.yml` of a repository says how the service is reached, how pages are generated,
where they go and which paths are left out. `Config.load` reads it; a missing file leaves everything
as it is by default.

A setting of the wrong kind counts as not set. Texts may be given as numbers and numbers as texts.
Three settings are checked beyond their kind: the mode, the number of attempts and the style of
sidebars.
-/

namespace Docwright

/-- The settings of a repository. -/
structure Config where
  /-- The folder of the settings file. -/
  root : Files.Path
  model : Option String := none
  address : Option String := none
  key : Option String := none
  temperature : Option Float := none
  maxTokens : Option Int := none
  timeout : Option Float := none
  generation : GenerationSettings := {}
  /-- Where documentation goes, seen from the repository. -/
  docsFolder : String := "docs"
  /-- The style of sidebars. -/
  sidebar : String := "json"
  /-- Patterns of paths that are left out. -/
  excluded : List String := []

namespace Config

/-- The name of the settings file. -/
def fileName : String := ".docforge.yml"

/-- The styles of sidebars. -/
def sidebarStyles : List String := ["json", "js"]

/-- Why a settings file is not accepted. -/
inductive Rejection
  | unreadable (name : String) (e : Files.FileError)
  | malformed (name : String)
  /-- There is something else than a mapping. -/
  | noMapping
  | badMode (mode : String)
  | noAttempts
  | badSidebar (style : String)

/-- The rejection in words. -/
def Rejection.message : Rejection → String
  | unreadable name e => s!"Unable to read {name}: {e.message}"
  | malformed name => s!"Failed to parse {name}"
  | noMapping => s!"{fileName} must contain a mapping at the root"
  | badMode mode =>
    let modes := ", ".intercalate generationModes
    s!"generation.mode must be one of {modes}; got {Text.quote mode}"
  | noAttempts => "generation.max_attempts must be at least 1"
  | badSidebar style =>
    let styles := ", ".intercalate sidebarStyles
    s!"output.sidebar_format must be one of {styles}; got {Text.quote style}"

/-- Why there are no settings. -/
inductive Fault
  /-- The file is not accepted. -/
  | rejected (r : Rejection)
  /-- Something unexpected happened. -/
  | crashed (crash : Crash)

/-! ### Settings of each kind -/

/-- A setting that is a text. -/
def text? (v : Yaml.Value) : Except Crash (Option String) :=
  match v with
  | .text s => .ok (some s)
  | .bool b => .ok (some (if b then "True" else "False"))
  | .number n => if n.isTooLong then .error .tooLongToWrite else .ok (some n.text)
  | _ => .ok none

/-- A setting that is a real number. -/
def real? (v : Yaml.Value) : Except Crash (Option Float) :=
  match v with
  | .number (.whole n) =>
    match Number.ofInt? n with
    | some x => .ok (some x)
    | none => .error (.badNumber .tooLarge)
  | .number (.real x) => .ok (some x)
  | .text s => .ok (Number.real? s)
  | _ => .ok none

/-- A setting that is a whole number. -/
def whole? (v : Yaml.Value) : Option Int :=
  match v with
  | .number (.whole n) => some n
  | .text s => (Number.wholeOf s).toOption
  | _ => none

/-- A setting that is a list of texts; a single text is a list of one. -/
def texts (v : Yaml.Value) : Except Crash (List String) := do
  match v with
  | .text s => return [s]
  | .sequence items => return (← items.mapM text?).filterMap id
  | .bytes content => return content.map fun b => toString b.toNat
  | _ => return []

/-! ### Reading settings -/

/-- The settings for generating, checked. -/
def generationOf (v : Yaml.Value) : Except Fault GenerationSettings := do
  let standard : GenerationSettings := {}
  let real (name : String) (otherwise : Float) : Except Fault Float := do
    return (← (real? (v.field name)).mapError .crashed).getD otherwise
  let whole (name : String) (otherwise : Int) : Int := (whole? (v.field name)).getD otherwise
  let mode ← (text? (v.field "mode")).mapError .crashed
  let s : GenerationSettings := {
    mode := (Service.nonEmpty mode).getD standard.mode
    cooldown := ← real "cooldown_seconds" standard.cooldown
    maxAttempts := whole "max_attempts" standard.maxAttempts
    baseDelay := ← real "base_delay" standard.baseDelay
    maxDelay := ← real "max_delay" standard.maxDelay
    truncateChars := whole "truncate_chars" standard.truncateChars
    fallbackTruncateChars := whole "fallback_truncate_chars" standard.fallbackTruncateChars
    minLength := whole "min_length" standard.minLength
    summaryMinLength := whole "summary_min_length" standard.summaryMinLength
    cachePrefixChars := whole "cache_prefix_chars" standard.cachePrefixChars }
  if !generationModes.contains s.mode then throw (.rejected (.badMode s.mode))
  if s.maxAttempts < 1 then throw (.rejected .noAttempts)
  return s

/-- The settings that the mapping of a settings file in the folder `root` makes. -/
def ofFields (root : Files.Path) (fields : Yaml.Value) : Except Fault Config := do
  let llm := fields.field "llm"
  let output := fields.field "output"
  let text (v : Yaml.Value) := (text? v).mapError Fault.crashed
  let real (v : Yaml.Value) := (real? v).mapError Fault.crashed
  let model ← text (llm.field "model")
  let address ← text (llm.field "base_url")
  let key ← text (llm.field "api_key")
  let temperature ← real (llm.field "temperature")
  let timeout ← real (llm.field "request_timeout")
  let generation ← generationOf (fields.field "generation")
  let docsFolder ← text (output.field "docs_dir")
  let sidebar := (Service.nonEmpty (← text (output.field "sidebar_format"))).getD "json"
  if !sidebarStyles.contains sidebar then throw (.rejected (.badSidebar sidebar))
  return {
    root, model, address, key, temperature, maxTokens := whole? (llm.field "max_tokens"), timeout
    generation, docsFolder := (Service.nonEmpty docsFolder).getD "docs", sidebar
    excluded := ← (texts (fields.field "exclude_paths")).mapError .crashed }

/-- The settings that the value of a settings file in the folder `root` makes. -/
def ofValue (root : Files.Path) (v : Yaml.Value) : Except Fault Config :=
  match v with
  | .null => ofFields root (.mapping [])
  | .mapping pairs => ofFields root (.mapping pairs)
  | _ => .error (.rejected .noMapping)

/-- The settings file that a path asks for: the one in a folder, or else the path itself. A tilde at
the start of the path stands for itself. -/
def fileAt (d : Files.Disk) (p : Files.Path) : Files.Path :=
  d.resolve (if d.isFolder p then p.child fileName else p)

/-- How the text of a settings file is read as a value. The program has `Yaml.Value.ofText`. -/
abbrev SettingsReader := List Char → Except Yaml.Fault Yaml.Value

/-- The value of a settings file, nothing for a blank one. -/
def valueOfFile (read : SettingsReader) (d : Files.Disk) (file : Files.Path) :
    Except Fault Yaml.Value :=
  match d.readText file with
  | .error (.file e) => .error (.rejected (.unreadable file.name e))
  | .error (.undecodable _) => .error (.crashed .undecodable)
  | .ok cs =>
    if cs.all Text.isBlank then .ok .null
    else
      match read cs with
      | .ok v => .ok v
      | .error .malformed => .error (.rejected (.malformed file.name))
      | .error fault => .error (.crashed (.settings fault))

/-- The settings at a path, with a reader for the text of their file. -/
def loadBy (read : SettingsReader) (d : Files.Disk) (p : Files.Path) : Except Fault Config := do
  let file := fileAt d p
  match d.find? file with
  | .error e => throw (.crashed (.file e))
  | .ok none => return { root := file.parent }
  | .ok (some _) => ofValue file.parent (← valueOfFile read d file)

/-- The settings at a path. -/
def load (d : Files.Disk) (p : Files.Path) : Except Fault Config :=
  loadBy Yaml.Value.ofText d p

/-- How the service is reached, as far as the settings say. -/
def endpoint (c : Config) : Service.EndpointSettings where
  model := c.model
  address := c.address
  key := (Service.nonEmpty c.key).map some
  temperature := some (.real (c.temperature.getD 0.2))
  maxTokens := some (.whole (c.maxTokens.getD 4096))
  timeout := some (.real (c.timeout.getD 60.0))

/-- How jobs are run with these settings. -/
def pipeline (c : Config) (trees : Outline.TreeSource) (service : Service.ServiceBehaviour) :
    Pipeline where
  generation := c.generation
  sidebar := c.sidebar
  mode := c.generation.mode
  trees
  service

/-- What is there once a configuration has been set up. -/
structure Setup where
  pipeline : Pipeline
  /-- The gate that every call passes. -/
  gate : Service.Gate Float
  /-- The records of setting up. -/
  log : Log

/-- Sets up what jobs are run with. The gate is the one that is present already, if any; a gate with
a negative cooldown and jobs of an unknown mode are refused. -/
def setUp (c : Config) (environment : Service.Environment) (trees : Outline.TreeSource)
    (responses : Service.Transport) (present : Option (Service.Gate Float)) :
    Except Crash Setup :=
  let endpoint := c.endpoint.complete environment
  match Service.sharedGate present c.generation.cooldown with
  | none => .error .negativeCooldown
  | some (gate, log) =>
    match modeCrash? c.generation.mode with
    | some crash => .error crash
    | none => .ok ⟨c.pipeline trees (endpoint.behaviour responses), gate, log⟩

end Config

end Docwright
