import Docwright.Json.Printer
import Docwright.Service.Address
import Docwright.Service.Failure

/-!
# The endpoint

How the service is reached: an `Endpoint` says where it is and how it is asked, `request` writes the
request that is sent, and `answer` makes a text or a failure of what came back. Unset parts of an
endpoint are taken from the environment. What comes back from a request is supplied, and may be any
`Response`.

A rate limit (429) may carry the time to wait; other answers from 500 on and time-outs of the
service (408) may pass; every other status is final.
-/

namespace Docwright.Service

/-- Names and values of the environment. -/
abbrev Environment := List (String × String)

namespace Environment

/-- The value of the first of the names that is set to anything. -/
def first? (env : Environment) (names : List String) : Option String :=
  names.findSome? fun name =>
    match env.lookup name with
    | some value => if value.isEmpty then none else some value
    | none => none

/-- Names that hold the model. -/
def modelNames : List String := ["DOCFORGE_LLM_MODEL", "XAI_MODEL", "OPENAI_MODEL"]

/-- Names that hold the address. -/
def addressNames : List String := ["DOCFORGE_LLM_BASE_URL", "XAI_BASE_URL", "OPENAI_BASE_URL"]

/-- Names that hold the key. -/
def keyNames : List String := ["DOCFORGE_LLM_API_KEY", "XAI_API_KEY", "OPENAI_API_KEY"]

end Environment

/-- Where the service is and how it is asked. -/
structure Endpoint where
  model : String
  /-- The address, without slashes at its end. -/
  address : String
  /-- The key that is sent along, if any. -/
  key : Option String
  temperature : Option Number.Numeral
  maxTokens : Option Number.Numeral
  /-- How many seconds to wait for an answer. -/
  timeout : Option Number.Numeral

/-- What is known of an endpoint before the environment is asked. -/
structure EndpointSettings where
  model : Option String := none
  address : Option String := none
  /-- The key: `none` when the environment is to be asked. -/
  key : Option (Option String) := none
  temperature : Option Number.Numeral := some (.real 0.2)
  maxTokens : Option Number.Numeral := some (.whole 4096)
  timeout : Option Number.Numeral := some (.real 60.0)

/-- A text that is set to something. -/
def nonEmpty (s : Option String) : Option String :=
  s.filter (!·.isEmpty)

/-- The model unless another is set. -/
def standardModel : String := "grok-3-latest"

/-- The address unless another is set. -/
def standardAddress : String := "https://api.x.ai/v1"

/-- Completes the settings of an endpoint from the environment. -/
def EndpointSettings.complete (s : EndpointSettings) (env : Environment) : Endpoint where
  model := (nonEmpty s.model <|> env.first? Environment.modelNames).getD standardModel
  address :=
    let address := (nonEmpty s.address <|> env.first? Environment.addressNames).getD standardAddress
    Text.onChars (Text.dropRightWhile (· == '/')) address
  key := s.key.getD (env.first? Environment.keyNames)
  temperature := s.temperature
  maxTokens := s.maxTokens
  timeout := s.timeout

/-- What the service is asked. -/
structure Question where
  prompt : String
  system : Option String := none
  /-- The temperature, if it is not that of the endpoint. -/
  temperature : Option Number.Numeral := none

/-- A request as it is sent. -/
structure Request where
  url : String
  method : String
  /-- Names in lower case and values, in the order of the names. -/
  headers : List (String × String)
  data : String
  timeout : Number.Numeral

namespace Endpoint

/-- The messages of a question. -/
def messages (q : Question) : List Json :=
  let message (role content : String) : Json :=
    .object [("role", .text role), ("content", .text content)]
  (nonEmpty q.system).toList.map (message "system") ++ [message "user" q.prompt]

/-- The numbers that are sent along with a question. -/
def numbers (e : Endpoint) (q : Question) : List Number.Numeral :=
  (q.temperature <|> e.temperature).toList ++ e.maxTokens.toList

/-- The data that are sent. -/
def payload (e : Endpoint) (q : Question) : Json :=
  let optional (name : String) (n : Option Number.Numeral) : List (String × Json) :=
    n.toList.map fun n => (name, .number n)
  .object <| [("model", .text e.model), ("messages", .array (messages q))] ++
    optional "temperature" (q.temperature <|> e.temperature) ++ optional "max_tokens" e.maxTokens

/-- The address to which questions go. -/
def url (e : Endpoint) : String :=
  Text.onChars Address.unwrapped (e.address ++ "/chat/completions")

/-- Whether a numeral is zero. -/
def isZero : Number.Numeral → Bool
  | .whole n => n == 0
  | .real x => x == 0.0

/-- The seconds that an answer is waited for: a minute when nothing or zero is set. -/
def patience (e : Endpoint) : Number.Numeral :=
  match e.timeout with
  | some t => if isZero t then .real 60.0 else t
  | none => .real 60.0

/-- The request for a question. -/
def sent (e : Endpoint) (q : Question) : Request where
  url := e.url
  method := "POST"
  headers :=
    (nonEmpty e.key).toList.map (fun key => ("authorization", s!"Bearer {key}")) ++
      [("content-type", "application/json")]
  data := String.ofList (e.payload q).compact
  timeout := e.patience

/-- The place to which questions go. -/
def place (e : Endpoint) : List Char :=
  Address.place e.url.toList

/-- The request for a question; numbers that cannot be written, an address without a scheme and a
place that cannot be read are refused. -/
def request (e : Endpoint) (q : Question) : Except Crash Request :=
  if (e.numbers q).any (·.isTooLong) then .error .tooLongToWrite
  else if !Address.hasScheme e.url.toList then .error (.addressWithoutScheme e.url)
  else
    match Address.placeFault? e.place with
    | some fault => .error (.badValue fault.message)
    | none => .ok (e.sent q)

end Endpoint

/-- Why a connection gave no answer. -/
inductive Breakdown
  /-- The system reports a trouble. -/
  | system (trouble : Files.Trouble)
  /-- Nothing came in time. -/
  | timeout
  /-- The service could not be reached. -/
  | unreachable (reason : String)
  /-- The answer broke off after so many bytes, with so many more to come where that is known. -/
  | incomplete (got : Int) (expected : Option Int)
  /-- The answer was not in the form of the protocol. -/
  | protocol (reason : String)
  /-- Anything else, as when a header or a path cannot be sent or the time to wait is no time. -/
  | other (crash : Crash)

namespace Breakdown

/-- Whether nothing came in time. -/
def isTimeout : Breakdown → Bool
  | timeout => true
  | system trouble => trouble.className == "TimeoutError"
  | _ => false

/-- The words for an answer that broke off or was not in the form of the protocol. -/
def protocolWords? : Breakdown → Option String
  | incomplete got none => some s!"IncompleteRead({got} bytes read)"
  | incomplete got (some expected) =>
    some s!"IncompleteRead({got} bytes read, {expected} more expected)"
  | protocol reason => some reason
  | _ => none

/-- What is not expected of a breakdown while the data of a failure are read. -/
def loss? : Breakdown → Option Crash
  | other crash => some crash
  | b => b.protocolWords?.map .lostAnswer

end Breakdown

/-- What came back. A status has three digits, and what the system counts fits into a word, so these
numbers can always be written. -/
inductive Response
  /-- An answer with its data. -/
  | answered (body : List UInt8)
  /-- An answer with a status that tells of a failure; the data may be unreadable. -/
  | refused (status : Int) (body : Option (List UInt8)) (headers : List (String × String))
    (reason : String)
  /-- An answer with a status that tells of a failure; reading its data breaks down. -/
  | interrupted (status : Int) (breakdown : Breakdown) (headers : List (String × String))
    (reason : String)
  /-- No answer. -/
  | broken (breakdown : Breakdown)

namespace Response

/-- The time to wait that the headers ask for, never less than zero. -/
def retryAfter? (headers : List (String × String)) : Option Float := do
  let (_, value) ← headers.find? fun (name, _) => name.toLower == "retry-after"
  let seconds ← Number.real? value
  return Number.greatest 0.0 seconds

/-- The failure that a status tells of. -/
def refusal (status : Int) (body : Option (List UInt8)) (headers : List (String × String))
    (reason : String) : Failure Float :=
  let detail := Text.strip (Text.Utf8.decodeIgnoring (body.getD []))
  let detail := if detail.isEmpty then reason else String.ofList detail
  let message := s!"LLM service returned status {status}: {detail}"
  if status == 429 then .rateLimited message (retryAfter? headers)
  else if 500 ≤ status ∨ status = 408 then .transient message (some status)
  else .permanent message (some status)

/-- The failure that a breakdown makes; the patience that ran out must be short enough to be
written. -/
def breakdownFailure (patience : Number.Numeral) (b : Breakdown) : Failure Float :=
  let lost (what : String) := .transient s!"LLM connection failed: {what}" none
  if b.isTimeout then
    if patience.isTooLong then .crashed .tooLongToWrite
    else .transient s!"LLM request timed out after {patience.text}s" none
  else
    match b with
    | .other crash => .crashed crash
    | .unreachable reason => .transient s!"LLM request failed: {reason}" none
    | .system t => lost s!"{t.className}({t.code}, {Text.quote t.words})"
    | .protocol reason => lost s!"HTTPException({Text.quote reason})"
    | b => lost (b.protocolWords?.getD "")

/-- The failure that a status tells of when reading the data breaks down. A trouble of the system
leaves the failure without details; any other breakdown is not expected. -/
def interruption (status : Int) (b : Breakdown) (headers : List (String × String))
    (reason : String) : Failure Float :=
  match b.loss? with
  | some crash => .crashed crash
  | none => refusal status none headers reason

/-- The text in the data of an answer: the content of the message of the first choice, failing that
its text, failing that nothing. -/
def content (payload : Json) : String :=
  match (payload.field? "choices").bind Json.array? with
  | some (first :: _) =>
    let spoken := ((first.field? "message").bind (·.field? "content")).bind Json.text?
    let written := (first.field? "text").bind Json.text?
    (spoken <|> written).getD ""
  | _ => ""

/-- What the data of an answer say. -/
def reading (body : List UInt8) : Except (Failure Float) String :=
  match Text.Utf8.decode? body with
  | .error _ => .error (.transient "LLM service returned invalid JSON" none)
  | .ok cs =>
    match Json.parse cs with
    | .error fault =>
      match Crash.ofJson? fault with
      | some crash => .error (.crashed crash)
      | none => .error (.transient "LLM service returned invalid JSON" none)
    | .ok (.object fields) => .ok (Text.onChars Text.strip (content (.object fields)))
    | .ok _ => .error (.transient "LLM service returned an unexpected payload" none)

end Response

/-- What comes back from a request after a number of calls. A request that cannot be sent, as with a
line break in the key, comes back as a breakdown. -/
abbrev Transport := Nat → Request → Response

/-- How the service behaves: what it makes of a question after a number of calls. -/
abbrev ServiceBehaviour := Nat → Question → Except (Failure Float) String

/-- What comes of what came back. -/
def Endpoint.answer (e : Endpoint) (r : Response) : Except (Failure Float) String :=
  match r with
  | .answered body => Response.reading body
  | .refused status body headers reason => .error (Response.refusal status body headers reason)
  | .interrupted status b headers reason =>
    .error (Response.interruption status b headers reason)
  | .broken b => .error (Response.breakdownFailure e.patience b)

/-- How the service behaves behind an endpoint, given what comes back from its requests. -/
def Endpoint.behaviour (e : Endpoint) (responses : Transport) : ServiceBehaviour :=
  fun calls q =>
    match e.request q with
    | .error crash => .error (.crashed crash)
    | .ok request => e.answer (responses calls request)

end Docwright.Service
