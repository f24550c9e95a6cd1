import Docwright.Files.Disk
import Docwright.Json.Reader
import Docwright.Outline.Symbol
import Docwright.Yaml.Token

/-!
# Crashes

Failures that no part of the program expects. They end what is under way; a job that meets one is
reported as failed with the words of the crash.
-/

namespace Docwright

/-- A failure that nobody expects. -/
inductive Crash
  /-- Something failed in a way of its own. -/
  | other (message : String)
  /-- The address of the service has no scheme. -/
  | addressWithoutScheme (url : String)
  /-- A number is not what is asked for. -/
  | badNumber (fault : Number.Fault)
  /-- A declaration is no symbol. -/
  | badSymbol (fault : SymbolFault)
  /-- The disk refuses an operation. -/
  | file (e : Files.FileError)
  /-- An answer of the service was not in the form of the protocol. -/
  | lostAnswer (message : String)
  /-- Bytes that must be text are not. -/
  | undecodable
  /-- There is no template for a prompt. -/
  | templateMissing
  /-- Values are nested too deeply. -/
  | tooDeep (kind : String)
  /-- A text of a settings file has no value. -/
  | settings (fault : Yaml.Fault)
  /-- A value stands where it makes no sense. -/
  | badValue (message : String)
  deriving DecidableEq

namespace Crash

/-- The crash in words. -/
def message : Crash → String
  | other message => message
  | addressWithoutScheme url => s!"unknown url type: {Text.quote url}"
  | badNumber fault => fault.message
  | badSymbol fault => fault.message
  | file e => e.message
  | lostAnswer message => message
  | undecodable => ""
  | templateMissing => ""
  | tooDeep kind =>
    s!"maximum recursion depth exceeded while decoding a JSON {kind} from a unicode string"
  | settings fault => fault.message
  | badValue message => message

/-- A wait would be longer than can be expressed. -/
def overflow : Crash := badNumber .tooLarge

/-- A whole number has more digits than are written. -/
def tooLongToWrite : Crash :=
  badValue ("Exceeds the limit (4300 digits) for integer string conversion; " ++
    "use sys.set_int_max_str_digits() to increase the limit")

/-- The cooldown of a gate is negative. -/
def negativeCooldown : Crash := badValue "cooldown must be non-negative"

/-- What reading structured data failed with, when it is more than a departure from the format. -/
def ofJson? : Json.Fault → Option Crash
  | .malformed _ => none
  | .tooLong digits => some (badNumber (.tooLong digits))
  | .tooDeep kind => some (tooDeep kind)

end Crash

end Docwright
