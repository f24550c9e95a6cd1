import Docwright.Crash

/-!
# How calls of the service fail

A call may be turned away because there were too many, fail in a way that may pass, or be refused
for good. Anything else is a crash. Only the first two kinds are worth another attempt.
-/

namespace Docwright.Service

/-- How a call fails; times are of type `τ`. -/
inductive Failure (τ : Type)
  /-- There were too many calls; the service may say how long to wait. -/
  | rateLimited (message : String) (retryAfter : Option τ)
  /-- The call may succeed another time. -/
  | transient (message : String) (status : Option Int)
  /-- The call is refused for good. -/
  | permanent (message : String) (status : Option Int)
  /-- Something unexpected happened. -/
  | crashed (crash : Crash)

namespace Failure

variable {τ : Type}

/-- The failure in words. -/
def message : Failure τ → String
  | rateLimited message _ => message
  | transient message _ => message
  | permanent message _ => message
  | crashed crash => crash.message

/-- Whether another attempt is worth while. -/
def isTransient : Failure τ → Bool
  | rateLimited .. => true
  | transient .. => true
  | _ => false

/-- How long the service asks to wait. -/
def hint? : Failure τ → Option τ
  | rateLimited _ hint => hint
  | _ => none

/-- Whether the failure says that there were too many calls. -/
def isRateLimit : Failure τ → Bool
  | rateLimited .. => true
  | _ => false

/-- The status that the service answered with. -/
def status? : Failure τ → Option Int
  | rateLimited .. => some 429
  | transient _ status => status
  | permanent _ status => status
  | crashed _ => none

end Failure

end Docwright.Service
