import Docwright.Proofs.Service.Gate
import Docwright.Proofs.Service.Retry

/-!
# The course of attempts

Trying a call again is a matter of what its parts are told to do and in which order. An `Event` is
one such thing, and the `course` of a call is the list of all of them: each attempt passes the gate
and calls; one that is followed by another announces it and sleeps. Where the attempts end is a fact
about the outcomes alone (`endOf`), so the course can be written down before anything is tried.

`Steps.Numbered.retryFrom_eq` says that what becomes of any world is what the events of the course
make of it, one after the other. A world that does nothing but write the events down (`recording`)
then holds the course itself, which is what `tried_course` says.

Times are exact here, but a power of two that the running program cannot express is none here either
(`Duration.exactBelow`).
-/

namespace Docwright.Service

variable {τ σ α : Type}

/-! ### Events -/

/-- One thing that happens while a call is tried. -/
inductive Event (τ : Type)
  /-- The gate is passed. -/
  | passed
  /-- The service is called. -/
  | called
  /-- It is reported that no attempt is left after the given one. -/
  | gaveUp (attempt : Int) (failure : Failure τ)
  /-- It is announced that another attempt follows the given one after a delay. -/
  | announced (attempt : Int) (delay : τ) (failure : Failure τ)
  /-- A delay is slept through. -/
  | slept (delay : τ)

namespace Event

/-- What an event does to the world. -/
def act (steps : Steps τ σ α) (s : σ) : Event τ → σ
  | passed => steps.pass s
  | called => (steps.call s).2
  | gaveUp attempt failure => steps.giveUp attempt failure s
  | announced attempt delay failure => steps.announce attempt delay failure s
  | slept delay => steps.sleep delay s

/-- Whether the event is a call. -/
def isCall : Event τ → Bool
  | called => true
  | _ => false

end Event

variable {delay : Nat → Failure τ → τ} {outcome : Nat → Except (Failure τ) α} {first budget n : Nat}

/-- An attempt that is followed by another. Only failures are. -/
def failedRound (delay : Nat → Failure τ → τ) (attempt : Nat) :
    Except (Failure τ) α → List (Event τ)
  | .ok _ => []
  | .error failure =>
    [.passed, .called, .announced attempt (delay attempt failure) failure,
      .slept (delay attempt failure)]

/-- The last attempt. -/
def lastRound (attempt : Nat) : Except (Failure τ) α → List (Event τ)
  | .ok _ => [.passed, .called]
  | .error failure =>
    if failure.isTransient then [.passed, .called, .gaveUp attempt failure] else [.passed, .called]

/-- All events of the attempts from number `first + 1` to number `n + 1`, of which outcome `j` is
that of attempt `j + 1`. -/
def course (delay : Nat → Failure τ → τ) (outcome : Nat → Except (Failure τ) α) (first n : Nat) :
    List (Event τ) :=
  ((List.range' first (n - first)).flatMap fun j ↦ failedRound delay (j + 1) (outcome j)) ++
    lastRound (n + 1) (outcome n)

/-- Which outcome ends the attempts when `budget` of them may be made, from outcome `first` on: the
first that is no failure that may pass, and if there is none among them the last of them. -/
def endOf (outcome : Nat → Except (Failure τ) α) (first budget : Nat) : Nat :=
  ((List.range' first budget).find? fun j ↦ !mayPass (outcome j)).getD (first + budget - 1)

theorem endOf_of_mayPass (h : mayPass (outcome first) = true) :
    endOf outcome first (budget + 2) = endOf outcome (first + 1) (budget + 1) := by
  rw [endOf, List.range'_succ, List.find?_cons_of_neg (by simp [h]), endOf]
  congr 1
  omega

theorem endOf_of_not_mayPass (h : mayPass (outcome first) = false) :
    endOf outcome first (budget + 1) = first := by
  rw [endOf, List.range'_succ, List.find?_cons_of_pos (by simp [h])]
  rfl

theorem endOf_one : endOf outcome first 1 = first := by
  cases h : mayPass (outcome first) with
  | false => exact endOf_of_not_mayPass h
  | true => simp [endOf, h]

/-- **Where attempts end**, said by what the outcomes are: all before are failures that may pass,
and the last is one only if no attempt is left. -/
theorem endOf_spec (outcome : Nat → Except (Failure τ) α) (first budget : Nat) :
    first ≤ endOf outcome first (budget + 1) ∧ endOf outcome first (budget + 1) ≤ first + budget ∧
      (∀ j, first ≤ j → j < endOf outcome first (budget + 1) → mayPass (outcome j) = true) ∧
      (mayPass (outcome (endOf outcome first (budget + 1))) = true →
        endOf outcome first (budget + 1) = first + budget) := by
  induction budget generalizing first with
  | zero =>
    rw [endOf_one]
    exact ⟨le_rfl, le_rfl, fun j hle hlt ↦ by omega, fun _ ↦ rfl⟩
  | succ budget ih =>
    cases h : mayPass (outcome first) with
    | false =>
      rw [endOf_of_not_mayPass h, h]
      exact ⟨le_rfl, by omega, fun j hle hlt ↦ by omega, nofun⟩
    | true =>
      obtain ⟨hle, hbound, hbefore, hlast⟩ := ih (first + 1)
      rw [endOf_of_mayPass h]
      refine ⟨by omega, by omega, fun j hj hlt ↦ ?_, fun hpass ↦ by rw [hlast hpass]; omega⟩
      rcases Nat.eq_or_lt_of_le hj with rfl | hj
      · exact h
      · exact hbefore j hj hlt

theorem course_self : course delay outcome n n = lastRound (n + 1) (outcome n) := by
  rw [course, Nat.sub_self]
  rfl

theorem course_of_lt (h : first < n) : course delay outcome first n
    = failedRound delay (first + 1) (outcome first) ++ course delay outcome (first + 1) n := by
  obtain ⟨m, hm⟩ := Nat.exists_eq_add_of_lt h
  rw [course, course, show n - first = n - (first + 1) + 1 by omega, List.range'_succ,
    List.flatMap_cons, List.append_assoc]

/-- Every delay that is slept through is the one that is due after a failure. -/
theorem exists_of_mem_course_slept {d : τ} (h : .slept d ∈ course delay outcome first n) :
    ∃ attempt failure, d = delay attempt failure := by
  rcases List.mem_append.1 h with h | h
  · obtain ⟨j, -, hround⟩ := List.mem_flatMap.1 h
    cases hout : outcome j with
    | ok value =>
      rw [hout] at hround
      cases hround
    | error failure =>
      rw [hout] at hround
      exact ⟨j + 1, failure, by simpa [failedRound] using hround⟩
  · cases hout : outcome n with
    | ok value => simp [hout, lastRound] at h
    | error failure =>
      rw [hout, lastRound] at h
      split at h
      · simp at h
      · simp at h

/-! ### Writing the events down -/

/-- How many calls are among the events. -/
def calls (log : List (Event τ)) : Nat :=
  log.countP Event.isCall

/-- A world that is the record of all events, earliest first. Calls get the outcomes in order. -/
def recording (outcome : Nat → Except (Failure τ) α) : Steps τ (List (Event τ)) α where
  pass log := log ++ [.passed]
  call log := (outcome (calls log), log ++ [.called])
  giveUp attempt failure log := log ++ [.gaveUp attempt failure]
  announce attempt delay failure log := log ++ [.announced attempt delay failure]
  sleep delay log := log ++ [.slept delay]

theorem numbered_recording (outcome : Nat → Except (Failure τ) α) :
    (recording outcome).Numbered calls outcome where
  answered _ := rfl
  call _ := List.countP_append ..
  pass _ := List.countP_append ..
  giveUp _ _ _ := List.countP_append ..
  announce _ _ _ _ := List.countP_append ..
  sleep _ _ := List.countP_append ..

theorem foldl_act_recording (outcome : Nat → Except (Failure τ) α) (events log : List (Event τ)) :
    events.foldl (Event.act (recording outcome)) log = log ++ events := by
  induction events generalizing log with
  | nil => exact (List.append_nil log).symm
  | cons event events ih =>
    have hact : Event.act (recording outcome) log event = log ++ [event] := by
      cases event <;> rfl
    rw [List.foldl_cons, hact, ih, List.append_assoc]
    rfl

/-! ### Worlds -/

section Worlds

variable {p : Policy τ} {steps : Steps τ σ α}

/-- An attempt that another follows makes one call. -/
theorem Steps.Numbered.count_failedRound {count : σ → Nat} {answer : Nat → Except (Failure τ) α}
    (h : steps.Numbered count answer) {attempt : Nat} {out : Except (Failure τ) α}
    (hpass : mayPass out = true) (s : σ) :
    count ((failedRound delay attempt out).foldl (Event.act steps) s) = count s + 1 := by
  cases out with
  | ok value => cases hpass
  | error failure =>
    simp only [failedRound, List.foldl_cons, List.foldl_nil, Event.act]
    rw [h.sleep, h.announce, h.call, h.pass]

variable [Duration τ]

/-- The last attempt: what it gets settles the matter, or no other is left. -/
theorem retryFrom_last {attempt more : Nat} {s : σ}
    (h : mayPass (steps.call (steps.pass s)).1 = true → more = 0) :
    retryFrom p steps attempt more s = ((steps.call (steps.pass s)).1,
      (lastRound attempt (steps.call (steps.pass s)).1).foldl (Event.act steps) s) := by
  rw [retryFrom.eq_def]
  cases hcall : steps.call (steps.pass s) with
  | mk answer s' =>
    rw [hcall] at h
    cases answer with
    | ok value => simp [lastRound, Event.act, hcall]
    | error failure =>
      cases hpass : failure.isTransient with
      | false => simp [lastRound, Event.act, hcall, hpass]
      | true => simp [lastRound, Event.act, hcall, hpass, h hpass]

/-- An attempt that another follows. -/
theorem retryFrom_failed {attempt more : Nat} {s : σ}
    (h : mayPass (steps.call (steps.pass s)).1 = true)
    (hdelay : ∀ failure, p.delayAfter? attempt failure = some (delay attempt failure)) :
    retryFrom p steps attempt (more + 1) s = retryFrom p steps (attempt + 1 : Nat) more
      ((failedRound delay attempt (steps.call (steps.pass s)).1).foldl (Event.act steps) s) := by
  rw [retryFrom]
  cases hcall : steps.call (steps.pass s) with
  | mk answer s' =>
    rw [hcall] at h
    cases answer with
    | ok value => cases h
    | error failure =>
      have hpass : failure.isTransient = true := h
      simp [failedRound, Event.act, hcall, hpass, hdelay failure]

/-- **What attempts make of a world** are the events of their course, one after the other, as far as
there is a delay after each of them. -/
theorem Steps.Numbered.retryFrom_eq {count : σ → Nat} {answer : Nat → Except (Failure τ) α}
    (h : steps.Numbered count answer) {start more : Nat}
    (houtcome : ∀ j, outcome j = answer (start + j))
    (hdelay : ∀ j < first + more, ∀ failure,
      p.delayAfter? (j + 1 : Nat) failure = some (delay (j + 1) failure))
    {s : σ} (hs : count s = start + first) :
    retryFrom p steps (first + 1 : Nat) more s
      = (outcome (endOf outcome first (more + 1)),
        (course delay outcome first (endOf outcome first (more + 1))).foldl
          (Event.act steps) s) := by
  have hanswer {first : Nat} {s : σ} (hs : count s = start + first) :
      (steps.call (steps.pass s)).1 = outcome first := by
    rw [h.answered, h.pass, hs, houtcome]
  induction more generalizing first s with
  | zero => rw [endOf_one, course_self, retryFrom_last fun _ ↦ rfl, hanswer hs]
  | succ more ih =>
    cases hpass : mayPass (outcome first) with
    | false =>
      have hsettled : mayPass (steps.call (steps.pass s)).1 = true → more + 1 = 0 := by
        rw [hanswer hs, hpass]
        exact nofun
      rw [endOf_of_not_mayPass hpass, course_self, retryFrom_last hsettled, hanswer hs]
    | true =>
      have hcount :
          count ((failedRound delay (first + 1) (outcome first)).foldl (Event.act steps) s)
            = start + (first + 1) := by
        rw [h.count_failedRound hpass, hs, Nat.add_assoc]
      have hend := (endOf_spec outcome (first + 1) more).1
      rw [endOf_of_mayPass hpass, course_of_lt hend, List.foldl_append,
        retryFrom_failed (hanswer hs ▸ hpass) (hdelay first (by omega)), hanswer hs]
      exact ih (fun j hj ↦ hdelay j (by omega)) hcount

end Worlds

/-! ### Exact times -/

section Exact

variable [Ring τ] [LinearOrder τ]

/-- Times that are exact numbers, of which a power of two can only be expressed when its exponent is
less than `limit`. -/
abbrev Duration.exactBelow (limit : Nat) (τ : Type) [Ring τ] [LinearOrder τ] : Duration τ where
  decidableLT := inferInstance
  twoPow? n := if n < limit then some ↑(2 ^ n : Nat) else none

/-- How long to sleep after a failed attempt, the first having number one: a delay that doubles from
attempt to attempt or, if it is longer, what the service asks for, and at most the longest delay. -/
def Policy.pause (p : Policy τ) (attempt : Nat) (failure : Failure τ) : τ :=
  let doubled := min (p.baseDelay * ↑(2 ^ (attempt - 1) : Nat)) p.maxDelay
  match failure.hint? with
  | none => doubled
  | some hint => min (max doubled hint) p.maxDelay

theorem Policy.pause_le (p : Policy τ) (attempt : Nat) (failure : Failure τ) :
    p.pause attempt failure ≤ p.maxDelay := by
  unfold pause
  cases failure.hint? with
  | none => exact min_le_right _ _
  | some hint => exact min_le_right _ _

theorem sooner_eq_min (limit : Nat) (a b : τ) :
    @Duration.sooner τ (.exactBelow limit τ) a b = min a b :=
  (min_def_lt b a).symm.trans (min_comm b a)

theorem later_eq_max_of_exactBelow (limit : Nat) (a b : τ) :
    @Duration.later τ (.exactBelow limit τ) a b = max a b :=
  (max_def_lt a b).symm

/-- The delay that is computed is the pause. -/
theorem Policy.delayAfter?_eq {limit j : Nat} (p : Policy τ) (failure : Failure τ) (h : j < limit) :
    @Policy.delayAfter? τ (.exactBelow limit τ) p (j + 1 : Nat) failure
      = some (p.pause (j + 1) failure) := by
  have hpower : (((j + 1 : Nat) : Int) - 1).toNat = j := by omega
  have hfactor : @Duration.twoPow? τ (.exactBelow limit τ) j = some ↑(2 ^ j : Nat) :=
    if_pos h
  unfold delayAfter? delayFor?
  rw [hpower, hfactor, Option.map_some, Option.map_some, pause]
  simp only [sooner_eq_min, later_eq_max_of_exactBelow]
  cases failure.hint? with
  | none => rfl
  | some hint => rfl

/-- The number of attempts before the last one under a policy. -/
def Policy.last (p : Policy τ) (outcome : Nat → Except (Failure τ) α) : Nat :=
  endOf outcome 0 p.budget

/-- What comes of trying a call whose outcomes are given in order, and all that happens. The
greatest power of two that can be expressed is `2 ^ 1023`, as in the running program. -/
def tried (p : Policy τ) (outcome : Nat → Except (Failure τ) α) :
    Except (Failure τ) α × List (Event τ) :=
  @retry τ _ α (.exactBelow 1024 τ) p (recording outcome) []

/-- **The course of a call that is tried again**, under every policy that allows a thousand attempts
at most, and whatever the outcomes are. What comes of it is the first outcome that is no failure
that may pass, or the last that the policy allows. Up to there every attempt passes the gate once
and calls once; after each but the last one a delay is announced and slept through, which is the
pause that is due after this failure and never more than the longest delay. -/
theorem tried_course {p : Policy τ} (hbudget : p.maxAttempts ≤ 1000)
    (outcome : Nat → Except (Failure τ) α) :
    tried p outcome = (outcome (p.last outcome), course p.pause outcome 0 (p.last outcome)) ∧
      (∀ j < p.last outcome, mayPass (outcome j) = true) ∧
      ((p.last outcome + 1 : Nat) : Int) ≤ max 1 p.maxAttempts ∧
      (mayPass (outcome (p.last outcome)) = true →
        ((p.last outcome + 1 : Nat) : Int) = max 1 p.maxAttempts) ∧
      ∀ delay, .slept delay ∈ course p.pause outcome 0 (p.last outcome) → delay ≤ p.maxDelay := by
  obtain ⟨-, hbound, hbefore, hlast⟩ := endOf_spec outcome 0 (p.maxAttempts - 1).toNat
  rw [← Policy.budget, ← Policy.last, Nat.zero_add] at hbound hlast
  have hdelay : ∀ j < 0 + (p.maxAttempts - 1).toNat, ∀ failure,
      @Policy.delayAfter? τ (.exactBelow 1024 τ) p (j + 1 : Nat) failure
        = some (p.pause (j + 1) failure) :=
    fun j hj failure ↦ p.delayAfter?_eq failure (by omega)
  refine ⟨?_, fun j hj ↦ hbefore j j.zero_le hj, by omega, fun hpass ↦ ?_, fun d hd ↦ ?_⟩
  · let _ : Duration τ := .exactBelow 1024 τ
    have houtcome : ∀ j, outcome j = outcome (0 + j) := fun j ↦ by rw [Nat.zero_add]
    have hrun := (numbered_recording outcome).retryFrom_eq houtcome hdelay
      (rfl : calls ([] : List (Event τ)) = 0 + 0)
    rw [foldl_act_recording] at hrun
    exact hrun
  · have hspent := hlast hpass
    omega
  · obtain ⟨attempt, failure, rfl⟩ := exists_of_mem_course_slept hd
    exact p.pause_le attempt failure

end Exact

/-- Four attempts, with delays from one second to thirty. -/
def patient : Policy ℚ := ⟨4, 1, 30⟩

/-- A service that is too busy, and asks for more patience than there is. -/
def busy : Nat → Except (Failure ℚ) String
  | 0 => .error (.rateLimited "slow down" (some 70))
  | 1 => .error (.transient "later" (some 503))
  | 2 => .error (.rateLimited "slow down" (some 3))
  | _ => .error (.transient "later" none)

theorem tried_course_busy : patient.maxAttempts ≤ 1000 ∧
    tried patient busy = (.error (.transient "later" none),
      [.passed, .called, .announced 1 30 (.rateLimited "slow down" (some 70)), .slept 30,
        .passed, .called, .announced 2 2 (.transient "later" (some 503)), .slept 2,
        .passed, .called, .announced 3 4 (.rateLimited "slow down" (some 3)), .slept 4,
        .passed, .called, .gaveUp 4 (.transient "later" none)]) := by
  have hlast : patient.last busy = 3 := by decide
  have hcourse := (tried_course (p := patient) (by decide) busy).1
  rw [hlast] at hcourse
  refine ⟨by decide, hcourse.trans ?_⟩
  norm_num [busy, course, failedRound, lastRound, List.range'_succ, Policy.pause, patient,
    Failure.hint?, Failure.isTransient]

end Docwright.Service
