import Docwright.Proofs.Number.Doubling
import Docwright.Proofs.Service.Course

/-!
# How far delays are capped

The delay after an attempt is the base delay times a power of two, and at most the longest delay.
The cap is applied to the product, so the power of two must be a number first, and this is only so
up to the exponent 1023. Up to attempt 1024 delays are exact: products that are beyond the range
are infinite, and the cap is less. After attempt 1025 there is no delay whatever the cap is
(`Policy.delayFor?_eq_none_iff`), and attempts that come so far with another one left end there
(`Steps.Numbered.fst_retryFrom`).
-/

namespace Docwright.Service

open Number

variable {τ σ α : Type}

/-! ### Delays that run out -/

section Limit

variable [Duration τ] {p : Policy τ} {steps : Steps τ σ α}

/-- Attempts end where there is no delay after a failure that may pass. -/
theorem retryFrom_overflow {attempt more : Nat} {s : σ}
    (h : mayPass (steps.call (steps.pass s)).1 = true)
    (hdelay : ∀ failure, p.delayAfter? attempt failure = none) :
    (retryFrom p steps attempt (more + 1) s).1 = .error (.crashed .overflow) := by
  rw [retryFrom]
  cases hcall : steps.call (steps.pass s) with
  | mk answer s' =>
    rw [hcall] at h
    cases answer with
    | ok value => cases h
    | error failure =>
      have hpass : failure.isTransient = true := h
      simp [hpass, hdelay failure]

/-- There is no delay after an attempt whose power of two cannot be expressed. -/
theorem Policy.delayAfter?_eq_none {attempt : Int} {failure : Failure τ}
    (h : (Duration.twoPow? (attempt - 1).toNat : Option τ) = none) :
    p.delayAfter? attempt failure = none := by
  rw [delayAfter?, delayFor?, h]
  rfl

/-- **What attempts come to when powers of two can be expressed up to a limit**: to the answer that
ends them, unless that is to come after more delays than there are. -/
theorem Steps.Numbered.fst_retryFrom {count : σ → Nat} {answer : Nat → Except (Failure τ) α}
    (h : steps.Numbered count answer) {limit : Nat}
    (hpower : ∀ n, (Duration.twoPow? n : Option τ).isSome ↔ n < limit)
    {outcome : Nat → Except (Failure τ) α} {start first more : Nat}
    (houtcome : ∀ j, outcome j = answer (start + j)) (hfirst : first ≤ limit)
    {s : σ} (hs : count s = start + first) :
    (retryFrom p steps (first + 1 : Nat) more s).1
      = if endOf outcome first (more + 1) ≤ limit then outcome (endOf outcome first (more + 1))
        else .error (.crashed .overflow) := by
  have hanswer {first : Nat} {s : σ} (hs : count s = start + first) :
      (steps.call (steps.pass s)).1 = outcome first := by
    rw [h.answered, h.pass, hs, houtcome]
  have hexponent (first : Nat) : (((first + 1 : Nat) : Int) - 1).toNat = first := by omega
  induction more generalizing first s with
  | zero => rw [endOf_one, if_pos hfirst, retryFrom_last fun _ ↦ rfl, hanswer hs]
  | succ more ih =>
    cases hpass : mayPass (outcome first) with
    | false =>
      have hsettled : mayPass (steps.call (steps.pass s)).1 = true → more + 1 = 0 := by
        rw [hanswer hs, hpass]
        exact nofun
      rw [endOf_of_not_mayPass hpass, if_pos hfirst, retryFrom_last hsettled, hanswer hs]
    | true =>
      have hmay : mayPass (steps.call (steps.pass s)).1 = true := hanswer hs ▸ hpass
      have hend := (endOf_spec outcome (first + 1) more).1
      rw [endOf_of_mayPass hpass]
      rcases Nat.lt_or_eq_of_le hfirst with hlt | rfl
      · let delay (attempt : Nat) (failure : Failure τ) : τ :=
          (p.delayAfter? attempt failure).getD 0
        have hdelay (failure : Failure τ) :
            p.delayAfter? (first + 1 : Nat) failure = some (delay (first + 1) failure) := by
          have hsome : (p.delayAfter? (first + 1 : Nat) failure).isSome :=
            Policy.isSome_delayAfter? (by rwa [hexponent, hpower])
          obtain ⟨d, hd⟩ := Option.isSome_iff_exists.1 hsome
          simp only [delay, hd, Option.getD_some]
        rw [retryFrom_failed hmay hdelay, hanswer hs]
        exact ih hlt (by rw [h.count_failedRound hpass, hs, Nat.add_assoc])
      · -- the limit is reached with an attempt left, so the answer that would end them never comes
        have hnone : (Duration.twoPow? first : Option τ) = none := by
          rw [← Option.not_isSome_iff_eq_none, hpower]
          exact Nat.lt_irrefl first
        rw [if_neg (by omega), retryFrom_overflow hmay fun failure ↦
          Policy.delayAfter?_eq_none (by rwa [hexponent])]

end Limit

/-! ### Delays of the running program -/

section Capped

variable {p : Policy Float} {n n' : Int} {d d' x y : Float} {k : Nat}

/-- The lesser of two lengths is the one of fewer units. -/
theorem Duration.units_sooner (hx : IsLength x) (hy : IsLength y) :
    IsLength (sooner x y) ∧ units (sooner x y) = min (units x) (units y) := by
  rw [sooner]
  split
  · rename_i hlt
    exact ⟨hy, (Nat.min_eq_right ((lt_iff_units_lt hy hx).1 hlt).le).symm⟩
  · rename_i hge
    exact ⟨hx, (Nat.min_eq_left (Nat.not_lt.1 (mt (lt_iff_units_lt hy hx).2 hge))).symm⟩

/-- **The lesser of a multiplied length and another one** is exact, even where the product is
infinite. -/
theorem Duration.units_sooner_mul_twoPow (hx : IsLength x) (hy : IsLength y) (hk : k < 1024) :
    IsLength (sooner (x * nearest false (Nat.pow 2 k) 1) y) ∧
      units (sooner (x * nearest false (Nat.pow 2 k) 1) y) = min (units x * 2 ^ k) (units y) := by
  rcases hx.mul_twoPow hk with ⟨hproduct, hunits⟩ | ⟨hinfinite, hlimit⟩
  · rw [← hunits]
    exact units_sooner hproduct hy
  · have hsooner : sooner (x * nearest false (Nat.pow 2 k) 1) y = y :=
      if_pos (hy.lt_infinity hinfinite)
    rw [hsooner, Nat.min_eq_right (hlimit y hy).le]
    exact ⟨hy, rfl⟩

theorem isSome_twoPow? (n : Nat) : (Duration.twoPow? n : Option Float).isSome ↔ n < 1024 := by
  show (if n < 1024 then some _ else none : Option Float).isSome = true ↔ _
  simp

theorem Policy.delayFor?_eq_none_iff : p.delayFor? n = none ↔ 1024 < n := by
  rw [delayFor?, Option.map_eq_none_iff, ← Option.not_isSome_iff_eq_none, isSome_twoPow?]
  omega

/-- **A delay is the doubled base delay or the longest delay**, whichever is less, without any
rounding. -/
theorem Policy.units_of_delayFor? (hbase : IsLength p.baseDelay) (hmax : IsLength p.maxDelay)
    (h : p.delayFor? n = some d) :
    IsLength d ∧ units d = min (units p.baseDelay * 2 ^ (n - 1).toNat) (units p.maxDelay) := by
  have hn : (n - 1).toNat < 1024 := by
    have hsome : ¬1024 < n := fun hlt ↦ by
      rw [delayFor?_eq_none_iff.2 hlt] at h
      cases h
    omega
  have hpower : (Duration.twoPow? (n - 1).toNat : Option Float)
      = some (nearest false (Nat.pow 2 (n - 1).toNat) 1) := if_pos hn
  rw [delayFor?, hpower, Option.map_some, Option.some_inj] at h
  rw [← h]
  exact Duration.units_sooner_mul_twoPow hbase hmax hn

theorem Policy.delayFor?_le (hbase : IsLength p.baseDelay) (hmax : IsLength p.maxDelay)
    (h : p.delayFor? n = some d) : d ≤ p.maxDelay := by
  obtain ⟨hd, hunits⟩ := units_of_delayFor? hbase hmax h
  rw [le_iff_units_le hd hmax, hunits]
  exact Nat.min_le_right _ _

theorem Policy.delayFor?_mono (hbase : IsLength p.baseDelay) (hmax : IsLength p.maxDelay)
    (hn : n ≤ n') (h : p.delayFor? n = some d) (h' : p.delayFor? n' = some d') : d ≤ d' := by
  obtain ⟨hd, hunits⟩ := units_of_delayFor? hbase hmax h
  obtain ⟨hd', hunits'⟩ := units_of_delayFor? hbase hmax h'
  have hpower : 2 ^ (n - 1).toNat ≤ 2 ^ (n' - 1).toNat :=
    Nat.pow_le_pow_right (by decide) (by omega)
  have hdoubled : units p.baseDelay * 2 ^ (n - 1).toNat ≤ units p.baseDelay * 2 ^ (n' - 1).toNat :=
    Nat.mul_le_mul_left _ hpower
  rw [le_iff_units_le hd hd', hunits, hunits']
  exact min_le_min_right _ hdoubled

end Capped

/-- **How far delays are capped.** With lengths for the base delay and the longest delay there is a
delay after each of the first 1024 attempts; it is at most the longest delay and no less than the
delays before. After a later attempt there is none. So attempts end with the answer to one of the
calls if the one that ends them is among the first 1025, and otherwise with an error that no call
has made. -/
theorem backoff_capped {p : Policy Float} (hbase : IsLength p.baseDelay)
    (hmax : IsLength p.maxDelay) :
    (∀ n, p.delayFor? n = none ↔ 1024 < n) ∧
      (∀ n d, p.delayFor? n = some d → d ≤ p.maxDelay) ∧
      (∀ n n' d d', n ≤ n' → p.delayFor? n = some d → p.delayFor? n' = some d' → d ≤ d') ∧
      ∀ (σ α : Type) (steps : Steps Float σ α) (count : σ → Nat)
        (answer : Nat → Except (Failure Float) α), steps.Numbered count answer → ∀ s,
          let last := endOf (fun j ↦ answer (count s + j)) 0 p.budget
          (retry p steps s).1
            = if last ≤ 1024 then answer (count s + last) else .error (.crashed .overflow) := by
  refine ⟨fun n ↦ Policy.delayFor?_eq_none_iff, fun n d ↦ Policy.delayFor?_le hbase hmax,
    fun n n' d d' hn ↦ Policy.delayFor?_mono hbase hmax hn, fun σ α steps count answer h s ↦ ?_⟩
  exact h.fst_retryFrom isSome_twoPow? (fun j ↦ rfl) (Nat.zero_le _) rfl

/-- The delays that are used when nothing is configured, with more attempts than there are powers of
two. -/
def tireless : Policy Float := ⟨2000, 1.0, 30.0⟩

/-- A service that is always busy. -/
def alwaysBusy (_ : Nat) : Except (Failure Float) String := .error (.transient "busy" none)

theorem backoff_capped_tireless : IsLength tireless.baseDelay ∧ IsLength tireless.maxDelay ∧
    tireless.delayFor? 1025 = none ∧
    (retry tireless (recording alwaysBusy) []).1 = .error (.crashed .overflow) := by
  have hbase : IsLength tireless.baseDelay := ⟨by decide, by decide⟩
  have hmax : IsLength tireless.maxDelay := ⟨by decide, by decide⟩
  obtain ⟨hnone, -, -, hretry⟩ := backoff_capped hbase hmax
  have hrun := hretry _ _ _ calls alwaysBusy (numbered_recording alwaysBusy) []
  have hlast := (endOf_spec alwaysBusy 0 1999).2.2.2 rfl
  have hlate : ¬endOf alwaysBusy 0 (1999 + 1) ≤ 1024 := by omega
  exact ⟨hbase, hmax, (hnone 1025).2 (by decide), hrun.trans (if_neg hlate)⟩

end Docwright.Service
