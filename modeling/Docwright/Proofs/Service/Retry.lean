import Docwright.Service.Retry
import Mathlib.Data.List.Basic

/-!
# What attempts come to

A retried call leaves two traces: the worlds it passes through and the answers it gets. For the
worlds it is enough to look at single steps: what every part of an attempt keeps to, all attempts
together keep to (`Steps.Within.retryFrom`). For the answers the calls have to be numbered; then
the answers are those to consecutive calls, every one but the last is a failure that may pass, and
such a failure comes last only when the attempts are used up (`Steps.Numbered.exists_attempts`).

The second fact needs every delay to exist, which is a matter of the policy alone
(`Policy.isSome_delayAfter?`).
-/

namespace Docwright.Service

variable {τ σ α : Type}

/-- Whether an answer is a failure that may pass. -/
def mayPass : Except (Failure τ) α → Bool
  | .ok _ => false
  | .error failure => failure.isTransient

/-- The most attempts that a policy allows. -/
def Policy.budget (p : Policy τ) : Nat :=
  (p.maxAttempts - 1).toNat + 1

theorem Policy.budget_eq (p : Policy τ) : (p.budget : Int) = max 1 p.maxAttempts := by
  unfold budget
  omega

/-- The answers that attempts may get: at least one and at most `budget`, of which all but the last
are failures that may pass, and the last is one only when the budget is spent. -/
structure Tries (budget : Nat) (answers : List (Except (Failure τ) α)) : Prop where
  ne_nil : answers ≠ []
  length_le : answers.length ≤ budget
  mayPass_of_mem : ∀ a ∈ answers.dropLast, mayPass a = true
  spent : ∀ a ∈ answers.getLast?, mayPass a = true → answers.length = budget

/-- An answer that settles the matter is the last one. -/
theorem Tries.getLast?_of_mem {budget : Nat} {answers : List (Except (Failure τ) α)}
    (h : Tries budget answers) {a : Except (Failure τ) α} (ha : a ∈ answers)
    (hpass : mayPass a = false) : answers.getLast? = some a := by
  rw [← List.dropLast_concat_getLast h.ne_nil] at ha
  rcases List.mem_append.1 ha with hinit | hlast
  · have hmay := h.mayPass_of_mem a hinit
    rw [hpass] at hmay
    cases hmay
  · rw [List.mem_singleton.1 hlast, List.getLast?_eq_some_getLast h.ne_nil]

/-- The answers that attempts get when `answer` gives the answers by number and `n` is the number of
the first. -/
structure Attempts (answer : Nat → Except (Failure τ) α) (n budget : Nat)
    (answers : List (Except (Failure τ) α)) : Prop extends Tries budget answers where
  answered : answers = (List.range' n answers.length).map answer

namespace Attempts

variable {answer : Nat → Except (Failure τ) α} {n budget : Nat}
  {answers : List (Except (Failure τ) α)}

/-- One attempt that settles the matter, or is the last there is. -/
theorem single (h : mayPass (answer n) = true → budget = 0) :
    Attempts answer n (budget + 1) [answer n] where
  answered := rfl
  ne_nil := List.cons_ne_nil _ _
  length_le := by simp
  mayPass_of_mem := by simp
  spent a ha hpass := by
    have heq : answer n = a := by simpa using ha
    have hzero : budget = 0 := h (heq ▸ hpass)
    simp [hzero]

/-- A failure that may pass is followed by the attempts that are left. -/
theorem cons (hpass : mayPass (answer n) = true) (h : Attempts answer (n + 1) budget answers) :
    Attempts answer n (budget + 1) (answer n :: answers) where
  answered := by
    rw [List.length_cons, List.range'_succ, List.map_cons, ← h.answered]
  ne_nil := List.cons_ne_nil _ _
  length_le := Nat.succ_le_succ h.length_le
  mayPass_of_mem a ha := by
    rw [List.dropLast_cons_of_ne_nil h.ne_nil] at ha
    rcases List.mem_cons.1 ha with rfl | ha
    · exact hpass
    · exact h.mayPass_of_mem a ha
  spent a ha hlast := by
    obtain ⟨first, rest, rfl⟩ := List.exists_cons_of_ne_nil h.ne_nil
    rw [List.getLast?_cons_cons] at ha
    have hlength := h.spent a ha hlast
    rw [List.length_cons, hlength]

end Attempts

variable [Duration τ] {p : Policy τ} {steps : Steps τ σ α}

/-! ### The worlds -/

/-- A relation between worlds that every part of an attempt keeps to. -/
structure Steps.Within (steps : Steps τ σ α) (R : σ → σ → Prop) : Prop where
  refl : ∀ s, R s s
  trans : ∀ {a b c}, R a b → R b c → R a c
  pass : ∀ s, R s (steps.pass s)
  call : ∀ s, R s (steps.call s).2
  giveUp : ∀ attempt failure s, R s (steps.giveUp attempt failure s)
  announce : ∀ attempt delay failure s, R s (steps.announce attempt delay failure s)
  sleep : ∀ delay s, R s (steps.sleep delay s)

/-- **What every part of an attempt keeps to, all attempts keep to**, already from the first call
on. -/
theorem Steps.Within.retryFrom {R : σ → σ → Prop} (h : steps.Within R) (attempt : Int) (more : Nat)
    (s : σ) : R (steps.call (steps.pass s)).2 (retryFrom p steps attempt more s).2 := by
  induction more generalizing attempt s with
  | zero =>
    rw [Service.retryFrom]
    split
    · rename_i hcall
      rw [hcall]
      exact h.refl _
    · rename_i failure s' hcall
      rw [hcall]
      split
      · exact h.giveUp attempt failure s'
      · exact h.refl _
  | succ more ih =>
    rw [Service.retryFrom]
    split
    · rename_i hcall
      rw [hcall]
      exact h.refl _
    · rename_i failure s' hcall
      rw [hcall]
      split
      · simp only
        split
        · exact h.refl _
        · rename_i delay _
          -- announcing, waiting, passing the gate and calling lead to where `ih` sets out
          have hannounce := h.announce attempt delay failure s'
          have hsleep := h.sleep delay (steps.announce attempt delay failure s')
          have hpass := h.pass (steps.sleep delay (steps.announce attempt delay failure s'))
          have hcall' := h.call
            (steps.pass (steps.sleep delay (steps.announce attempt delay failure s')))
          exact h.trans (h.trans hannounce (h.trans hsleep (h.trans hpass hcall'))) (ih _ _)
      · exact h.refl _

theorem Steps.Within.retry {R : σ → σ → Prop} (h : steps.Within R) (s : σ) :
    R s (retry p steps s).2 :=
  h.trans (h.trans (h.pass s) (h.call _)) (h.retryFrom 1 _ s)

/-! ### The answers -/

/-- Calls are numbered by `count`, and `answer` gives the answer to each number. -/
structure Steps.Numbered (steps : Steps τ σ α) (count : σ → Nat)
    (answer : Nat → Except (Failure τ) α) : Prop where
  answered : ∀ s, (steps.call s).1 = answer (count s)
  call : ∀ s, count (steps.call s).2 = count s + 1
  pass : ∀ s, count (steps.pass s) = count s
  giveUp : ∀ attempt failure s, count (steps.giveUp attempt failure s) = count s
  announce : ∀ attempt delay failure s, count (steps.announce attempt delay failure s) = count s
  sleep : ∀ delay s, count (steps.sleep delay s) = count s

/-- **Attempts get consecutive answers up to the first one that settles the matter**, and what comes
of them is the last answer. -/
theorem Steps.Numbered.exists_attempts {count : σ → Nat} {answer : Nat → Except (Failure τ) α}
    (h : steps.Numbered count answer) {attempt : Int} {more : Nat}
    (hdelay : ∀ i : Nat, i < more → ∀ failure, (p.delayAfter? (attempt + i) failure).isSome)
    (s : σ) :
    ∃ answers, Attempts answer (count s) (more + 1) answers ∧
      answers.getLast? = some (retryFrom p steps attempt more s).1 ∧
      count (retryFrom p steps attempt more s).2 = count s + answers.length := by
  induction more generalizing attempt s with
  | zero =>
    have hanswer := h.answered (steps.pass s)
    have hcount := h.call (steps.pass s)
    rw [h.pass] at hanswer hcount
    refine ⟨[answer (count s)], .single fun _ ↦ rfl, ?_⟩
    rw [retryFrom]
    split
    · rename_i hcall
      rw [hcall] at hanswer hcount
      exact ⟨congrArg some hanswer.symm, hcount⟩
    · rename_i failure s' hcall
      rw [hcall] at hanswer hcount
      split
      · exact ⟨congrArg some hanswer.symm, (h.giveUp _ _ _).trans hcount⟩
      · exact ⟨congrArg some hanswer.symm, hcount⟩
  | succ more ih =>
    have hanswer := h.answered (steps.pass s)
    have hcount := h.call (steps.pass s)
    rw [h.pass] at hanswer hcount
    -- an answer that settles the matter is the only one
    have hsettled (hpass : mayPass (answer (count s)) = false) :
        Attempts answer (count s) (more + 1 + 1) [answer (count s)] :=
      .single fun hmay ↦ absurd (hpass.symm.trans hmay) Bool.false_ne_true
    rw [retryFrom]
    split
    · rename_i hcall
      rw [hcall] at hanswer hcount
      exact ⟨_, hsettled (by rw [← hanswer]; rfl), congrArg some hanswer.symm, hcount⟩
    · rename_i failure s' hcall
      rw [hcall] at hanswer hcount
      split
      · rename_i hpass
        obtain ⟨delay, hdelay₀⟩ := Option.isSome_iff_exists.1 (hdelay 0 (by omega) failure)
        rw [Int.natCast_zero, Int.add_zero] at hdelay₀
        simp only [hdelay₀]
        have hlater : ∀ i : Nat, i < more →
            ∀ failure, (p.delayAfter? (attempt + 1 + i) failure).isSome := by
          intro i hi failure
          have hnext := hdelay (i + 1) (by omega) failure
          rwa [show attempt + ((i + 1 : Nat) : Int) = attempt + 1 + i by omega] at hnext
        obtain ⟨answers, hattempts, hlast, hcounted⟩ :=
          ih hlater (steps.sleep delay (steps.announce attempt delay failure s'))
        have hstart : count (steps.sleep delay (steps.announce attempt delay failure s'))
            = count s + 1 := by
          rw [h.sleep, h.announce, hcount]
        rw [hstart] at hattempts hcounted
        have hmay : mayPass (answer (count s)) = true := by
          rw [← hanswer]
          exact hpass
        refine ⟨answer (count s) :: answers, hattempts.cons hmay, ?_, ?_⟩
        · obtain ⟨first, rest, rfl⟩ := List.exists_cons_of_ne_nil hattempts.ne_nil
          rwa [List.getLast?_cons_cons]
        · rw [hcounted, List.length_cons]
          omega
      · rename_i hpass
        refine ⟨_, hsettled ?_, congrArg some hanswer.symm, hcount⟩
        rw [← hanswer]
        exact Bool.not_eq_true _ ▸ hpass

/-- There is a delay after every attempt whose power of two can be expressed. -/
theorem Policy.isSome_delayAfter? {attempt : Int} {failure : Failure τ}
    (h : (Duration.twoPow? (attempt - 1).toNat : Option τ).isSome) :
    (p.delayAfter? attempt failure).isSome := by
  rw [delayAfter?, delayFor?, Option.isSome_map, Option.isSome_map]
  exact h

end Docwright.Service
