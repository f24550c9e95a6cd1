import Docwright.Log
import Docwright.Number.Basic

/-!
# The gate

Calls of the service pass a gate that keeps them apart. Whoever asks is given the next free slot:
the present moment or, if that is later, the slot before plus the cooldown. The gate remembers only
the next slot that is free, so callers are served in the order in which they ask, even while earlier
ones are still waiting for theirs.

Times are of any type that can be added, subtracted and compared (`Duration`); the running program
uses binary64 numbers.
-/

namespace Docwright.Service

/-- Numbers that measure time. -/
class Duration (τ : Type) extends Add τ, Sub τ, Mul τ, LT τ, Zero τ where
  /-- Whether one time is shorter than another can be decided. -/
  decidableLT : DecidableLT τ
  /-- A power of two, unless it is too large to be expressed. -/
  twoPow? : Nat → Option τ

instance instDecidableLTOfDuration {τ : Type} [Duration τ] : DecidableLT τ := Duration.decidableLT

instance : Duration Float where
  zero := 0.0
  decidableLT := inferInstance
  twoPow? n := if n < 1024 then some (Number.nearest false (Nat.pow 2 n) 1) else none

namespace Duration

variable {τ : Type} [Duration τ]

/-- The greater of two times, the first unless the second is greater. -/
def later (a b : τ) : τ := if a < b then b else a

/-- The lesser of two times, the first unless the second is less. -/
def sooner (a b : τ) : τ := if b < a then b else a

end Duration

/-- A gate that keeps calls apart. -/
structure Gate (τ : Type) where
  /-- The least time between two slots. -/
  cooldown : τ
  /-- The next slot that is free; none before the first caller. -/
  nextSlot : Option τ

namespace Gate

variable {τ : Type} [Duration τ]

/-- A gate that nobody has passed; the cooldown must not be negative. -/
def make? (cooldown : τ) : Option (Gate τ) :=
  if cooldown < 0 then none else some ⟨cooldown, none⟩

/-- The slot of a caller that asks at the given time. -/
def slotAt (g : Gate τ) (now : τ) : τ :=
  match g.nextSlot with
  | none => now
  | some next => Duration.later now next

/-- Gives a caller its slot: how long it has to wait, and the gate after it. -/
def wait (g : Gate τ) (now : τ) : τ × Gate τ :=
  let slot := g.slotAt now
  (slot - now, { g with nextSlot := some (slot + g.cooldown) })

/-- Forgets all callers. -/
def reset (g : Gate τ) : Gate τ :=
  { g with nextSlot := none }

end Gate

/-- The record about a wait at the gate; there is none when nobody has to wait. -/
def gateLog (delay : Float) : Log :=
  if 0.0 < delay then
    [⟨.debug, "gate", s!"Rate limit gate waiting {Number.fixed 2 delay}s"⟩]
  else []

/-- The gate that everyone shares. The first to ask for it sets its cooldown; another cooldown is
reported and has no effect. -/
def sharedGate (present : Option (Gate Float)) (cooldown : Float) : Option (Gate Float × Log) :=
  match present with
  | none => (Gate.make? cooldown).map (·, [])
  | some g =>
    if g.cooldown == cooldown then some (g, [])
    else
      some (g, [⟨.warning, "gate",
        s!"Shared rate limit gate keeps its {Number.fixed 2 g.cooldown}s cooldown; " ++
          s!"ignoring {Number.fixed 2 cooldown}s"⟩])

end Docwright.Service
