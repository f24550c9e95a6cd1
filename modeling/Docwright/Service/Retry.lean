import Docwright.Service.Failure
import Docwright.Service.Gate

/-!
# Retrying calls

A call that fails in a way that may pass is tried again after a delay, up to a number of attempts
(`retry`). The delay doubles from attempt to attempt and never exceeds a bound; a hint of the
service can lengthen it up to the bound. Every attempt passes the gate first.

What an attempt does to the world is given by `Steps`: the world `σ` is threaded through passing the
gate, calling, announcing a retry and sleeping, in this order.
-/

namespace Docwright.Service

/-- How often and how patiently a call is tried. -/
structure Policy (τ : Type) where
  /-- The most attempts; at least one is made in any case. -/
  maxAttempts : Int
  /-- The delay after the first attempt. -/
  baseDelay : τ
  /-- The longest delay. -/
  maxDelay : τ

namespace Policy

variable {τ : Type} [Duration τ]

/-- The delay after a failed attempt, the first having number one; none when the doubled delay
cannot be expressed. -/
def delayFor? (p : Policy τ) (attempt : Int) : Option τ :=
  (Duration.twoPow? (attempt - 1).toNat).map fun factor =>
    Duration.sooner (p.baseDelay * factor) p.maxDelay

/-- The delay after an attempt that failed in the given way. -/
def delayAfter? (p : Policy τ) (attempt : Int) (failure : Failure τ) : Option τ :=
  (p.delayFor? attempt).map fun delay =>
    match failure.hint? with
    | some hint => Duration.sooner (Duration.later delay hint) p.maxDelay
    | none => delay

end Policy

/-- What the parts of an attempt do to the world `σ`. -/
structure Steps (τ σ α : Type) where
  /-- Passes the gate. -/
  pass : σ → σ
  /-- Calls the service. -/
  call : σ → Except (Failure τ) α × σ
  /-- Reports that no attempt is left after the given one. -/
  giveUp : Int → Failure τ → σ → σ
  /-- Reports that another attempt follows the given one after a delay. -/
  announce : Int → τ → Failure τ → σ → σ
  /-- Waits. -/
  sleep : τ → σ → σ

variable {τ σ α : Type} [Duration τ]

/-- Makes the attempt with the given number and, where that is worth while, up to `more` others. -/
def retryFrom (p : Policy τ) (steps : Steps τ σ α) (attempt : Int) (more : Nat) (s : σ) :
    Except (Failure τ) α × σ :=
  match steps.call (steps.pass s) with
  | (.ok value, s) => (.ok value, s)
  | (.error failure, s) =>
    if failure.isTransient then
      match more with
      | 0 => (.error failure, steps.giveUp attempt failure s)
      | more + 1 =>
        match p.delayAfter? attempt failure with
        | none => (.error (.crashed .overflow), s)
        | some delay =>
          retryFrom p steps (attempt + 1) more
            (steps.sleep delay (steps.announce attempt delay failure s))
    else (.error failure, s)

/-- Tries a call until it succeeds, fails for good or no attempt is left. -/
def retry (p : Policy τ) (steps : Steps τ σ α) (s : σ) : Except (Failure τ) α × σ :=
  retryFrom p steps 1 (p.maxAttempts - 1).toNat s

/-- The record that no attempt is left. -/
def giveUpLog (attempt : Int) (failure : Failure Float) : Log :=
  [⟨.debug, "retry", s!"Giving up after {attempt} attempts: {failure.message}"⟩]

/-- The record that another attempt follows. -/
def retryLog (p : Policy Float) (attempt : Int) (delay : Float) (failure : Failure Float) : Log :=
  [⟨.debug, "retry",
    s!"Retry {attempt}/{p.maxAttempts} in {Number.fixed 1 delay}s after: {failure.message}"⟩]

end Docwright.Service
