import Docwright.Generation
import Docwright.Proofs.Prompt.Message
import Docwright.Proofs.Service.Retry

/-!
# One tier

Asking about a unit in one tier adds questions to those that were put, all of them the tier's own,
and leaves the cache alone (`Asks`, `exists_asks_askTier`). Which answers these questions get is
what the attempts of the policy come to, and only the last of them is judged (`Exchange`,
`exists_exchange`).

Every unit has a prompt in the simplified tier (`exists_prompt_simplified`). In the full one the
templates are named after the kind of the unit, so a unit that is neither a feature nor a file may
have none there.
-/

namespace Docwright

open Service

namespace Desk

variable (d : Desk)

@[simp] theorem pass_asked : d.pass.asked = d.asked := by
  simp only [pass]
  split <;> rfl

@[simp] theorem pass_cache : d.pass.cache = d.cache := by
  simp only [pass]
  split <;> rfl

end Desk

namespace Generation

variable {s : GenerationSettings} {service : ServiceBehaviour} {job : Option String}
  {u : Page.PageUnit} {tier : Prompt.Tier} {prompt : Prompt} {d : Desk}

/-! ### What is asked -/

/-- From one desk to the other only the given question is put, perhaps several times, and the cache
stays as it is. -/
def Asks (q : Question) (d d' : Desk) : Prop :=
  (∃ k, d'.asked = d.asked ++ List.replicate k q) ∧ d'.cache = d.cache

theorem Asks.quiet {q : Question} {d d' : Desk} (hasked : d'.asked = d.asked)
    (hcache : d'.cache = d.cache) : Asks q d d' :=
  ⟨⟨0, by simpa using hasked⟩, hcache⟩

/-- The attempts at a question put that question only. -/
theorem within_asks (service : ServiceBehaviour) (p : Policy Float) (job : Option String)
    (u : Page.PageUnit) (q : Question) : (steps service p job u q).Within (Asks q) where
  refl _ := .quiet rfl rfl
  trans := by
    rintro a b c ⟨⟨i, hi⟩, hcache⟩ ⟨⟨j, hj⟩, hcache'⟩
    refine ⟨⟨i + j, ?_⟩, hcache'.trans hcache⟩
    rw [hj, hi, List.append_assoc, List.replicate_append_replicate]
  pass d := .quiet (Desk.pass_asked d) (Desk.pass_cache d)
  call _ := ⟨⟨1, rfl⟩, rfl⟩
  giveUp _ _ _ := .quiet rfl rfl
  announce _ _ _ _ := .quiet rfl rfl
  sleep _ _ := .quiet rfl rfl

/-- Calls are numbered by the questions that were put before. -/
theorem numbered_steps (service : ServiceBehaviour) (p : Policy Float) (job : Option String)
    (u : Page.PageUnit) (q : Question) :
    (steps service p job u q).Numbered (·.asked.length) (service · q) where
  answered _ := rfl
  call d := by
    show (d.asked ++ [q]).length = _
    simp
  pass d := congrArg List.length (Desk.pass_asked d)
  giveUp _ _ _ := rfl
  announce _ _ _ _ := rfl
  sleep _ _ := rfl

@[simp] theorem announceTier_asked : (announceTier job u tier prompt d).asked = d.asked := by
  simp only [announceTier]
  split <;> rfl

@[simp] theorem announceTier_cache : (announceTier job u tier prompt d).cache = d.cache := by
  simp only [announceTier]
  split <;> rfl

/-! ### Judging -/

/-- The answer is a text that passes review. -/
def Accepted (s : GenerationSettings) (u : Page.PageUnit)
    (a : Except (Failure Float) String) : Prop :=
  ∃ text, a = .ok text ∧ Page.review (s.checks u) text = []

/-- The answer is a refusal for good. -/
def Refused (a : Except (Failure Float) String) : Prop :=
  ∃ message status, a = .error (.permanent message status)

theorem not_accepted_of_mayPass {a : Except (Failure Float) String} (h : mayPass a = true) :
    ¬Accepted s u a := by
  rintro ⟨text, rfl, -⟩
  cases h

theorem not_refused_of_mayPass {a : Except (Failure Float) String} (h : mayPass a = true) :
    ¬Refused a := by
  rintro ⟨message, status, rfl⟩
  cases h

@[simp] theorem judge_asked (a : Except (Failure Float) String) :
    (judge s job u tier a d).2.asked = d.asked := by
  unfold judge
  split
  · split <;> rfl
  all_goals rfl

@[simp] theorem judge_cache (a : Except (Failure Float) String) :
    (judge s job u tier a d).2.cache = d.cache := by
  unfold judge
  split
  · split <;> rfl
  all_goals rfl

theorem judge_of_accepted {text : String} (h : Page.review (s.checks u) text = []) :
    (judge s job u tier (.ok text) d).1 = .accepted text := by
  simp only [judge, h]

theorem judge_of_refused (message : String) (status : Option Int) :
    (judge s job u tier (.error (.permanent message status)) d).1
      = .fault (.refused u.label message) := rfl

/-- Whatever is neither accepted nor refused nor a crash leads on. -/
theorem exists_judge_eq_unusable {a : Except (Failure Float) String} (haccepted : ¬Accepted s u a)
    (hrefused : ¬Refused a) (hcrash : ∀ crash, a ≠ .error (.crashed crash)) :
    ∃ reason, (judge s job u tier a d).1 = .unusable reason := by
  cases a with
  | ok text =>
    cases hreview : Page.review (s.checks u) text with
    | nil => exact absurd ⟨text, rfl, hreview⟩ haccepted
    | cons issue issues =>
      simp only [judge, hreview]
      exact ⟨_, rfl⟩
  | error failure =>
    cases failure with
    | rateLimited message hint => exact ⟨_, rfl⟩
    | transient message status => exact ⟨_, rfl⟩
    | permanent message status => exact absurd ⟨message, status, rfl⟩ hrefused
    | crashed crash => exact absurd rfl (hcrash crash)

/-! ### Prompts -/

/-- **There is a simplified prompt for every unit.** -/
theorem exists_prompt_simplified (s : GenerationSettings) (u : Page.PageUnit) :
    ∃ prompt, Prompt.build s.prompts .simplified u = .ok prompt :=
  Prompt.exists_build rfl fun h ↦ by cases h

/-- There is a full prompt for every feature and every file. -/
theorem exists_prompt_full (s : GenerationSettings) {u : Page.PageUnit}
    (h : u.kind = .group ∨ u.kind = .file) :
    ∃ prompt, Prompt.build s.prompts .full u = .ok prompt :=
  Prompt.exists_build rfl fun _ ↦ h

/-! ### Asking -/

theorem askTier_of_error {crash : Crash} (h : Prompt.build s.prompts tier u = .error crash) :
    askTier s service job u tier d = (.fault (.crashed crash), d) := by
  rw [askTier, h]

theorem askTier_of_prompt (h : Prompt.build s.prompts tier u = .ok prompt) :
    askTier s service job u tier d
      = judge s job u tier
          (retry s.policy (steps service s.policy job u (questionOf prompt))
            (announceTier job u tier prompt d)).1
          (retry s.policy (steps service s.policy job u (questionOf prompt))
            (announceTier job u tier prompt d)).2 := by
  rw [askTier, h]

/-- **Asking in a tier puts the question of its prompt at least once**, and leaves the cache
alone. -/
theorem exists_asks_askTier (service : ServiceBehaviour) (job : Option String) (d : Desk)
    (h : Prompt.build s.prompts tier u = .ok prompt) :
    (∃ k, (askTier s service job u tier d).2.asked
      = d.asked ++ List.replicate (k + 1) (questionOf prompt)) ∧
    (askTier s service job u tier d).2.cache = d.cache := by
  have hwithin := within_asks service s.policy job u (questionOf prompt)
  obtain ⟨⟨k, hk⟩, hcache⟩ := hwithin.retryFrom (p := s.policy) 1
    (s.policy.maxAttempts - 1).toNat (announceTier job u tier prompt d)
  rw [askTier_of_prompt h, judge_asked, judge_cache, retry]
  refine ⟨⟨k, ?_⟩, ?_⟩
  · rw [hk]
    show (Desk.pass _).asked ++ [questionOf prompt] ++ _ = _
    rw [Desk.pass_asked, announceTier_asked, List.append_assoc, List.replicate_succ]
    rfl
  · rw [hcache]
    show (Desk.pass _).cache = _
    rw [Desk.pass_cache, announceTier_cache]

/-- Asking in a tier adds to what was asked, if only nothing, and leaves the cache alone. -/
theorem askTier_extends (s : GenerationSettings) (service : ServiceBehaviour) (job : Option String)
    (u : Page.PageUnit) (tier : Prompt.Tier) (d : Desk) :
    d.asked <+: (askTier s service job u tier d).2.asked ∧
      (askTier s service job u tier d).2.cache = d.cache := by
  cases h : Prompt.build s.prompts tier u with
  | error crash =>
    rw [askTier_of_error h]
    exact ⟨List.prefix_rfl, rfl⟩
  | ok prompt =>
    obtain ⟨⟨k, hk⟩, hcache⟩ := exists_asks_askTier service job d h
    exact ⟨hk ▸ List.prefix_append _ _, hcache⟩

/-- Up to a thousand attempts every delay can be expressed. -/
theorem isSome_delayAfter?_policy (h : s.maxAttempts ≤ 1000) {i : Nat}
    (hi : i < (s.policy.maxAttempts - 1).toNat) (failure : Failure Float) :
    (s.policy.delayAfter? (1 + i) failure).isSome := by
  refine Policy.isSome_delayAfter? ?_
  have hlt : ((1 : Int) + i - 1).toNat < 1024 := by
    have hmax : s.policy.maxAttempts ≤ 1000 := h
    omega
  show (if _ < 1024 then some _ else none).isSome = true
  rw [if_pos hlt]
  rfl

/-- How asking about a unit in a tier goes: the question of the prompt is put until the attempts of
the policy end with the answer `last`, and that answer is judged. -/
structure Exchange (s : GenerationSettings) (service : ServiceBehaviour) (job : Option String)
    (u : Page.PageUnit) (tier : Prompt.Tier) (d : Desk) (prompt : Prompt)
    (answers : List (Except (Failure Float) String)) (last : Except (Failure Float) String) :
    Prop where
  built : Prompt.build s.prompts tier u = .ok prompt
  attempts : Attempts (service · (questionOf prompt)) d.asked.length s.policy.budget answers
  ends : answers.getLast? = some last
  judged : ∃ d', askTier s service job u tier d = judge s job u tier last d'
  asked : (askTier s service job u tier d).2.asked
    = d.asked ++ List.replicate answers.length (questionOf prompt)
  cache : (askTier s service job u tier d).2.cache = d.cache

/-- **Asking about a unit goes that way** wherever there is a prompt and no delay is too long. -/
theorem exists_exchange (hbudget : s.maxAttempts ≤ 1000) (service : ServiceBehaviour)
    (job : Option String) (d : Desk) (h : Prompt.build s.prompts tier u = .ok prompt) :
    ∃ answers last, Exchange s service job u tier d prompt answers last := by
  have hwithin := within_asks service s.policy job u (questionOf prompt)
  obtain ⟨⟨k, hk⟩, -⟩ := hwithin.retry (p := s.policy) (announceTier job u tier prompt d)
  obtain ⟨answers, hattempts, hlast, hcount⟩ :=
    (numbered_steps service s.policy job u (questionOf prompt)).exists_attempts
      (p := s.policy) (fun i hi ↦ isSome_delayAfter?_policy hbudget hi)
      (announceTier job u tier prompt d)
  rw [announceTier_asked] at hk hattempts hcount
  -- the questions are counted twice, by the relation and by the numbers of the calls
  have hsame : k = answers.length := by
    have hlength := congrArg List.length hk
    rw [List.length_append, List.length_replicate] at hlength
    exact Nat.add_left_cancel (hlength.symm.trans hcount)
  refine ⟨answers, _, h, hattempts, hlast, ⟨_, askTier_of_prompt h⟩, ?_,
    (askTier_extends s service job u tier d).2⟩
  rw [askTier_of_prompt h, judge_asked, ← hsame]
  exact hk

namespace Exchange

variable {answers : List (Except (Failure Float) String)} {last : Except (Failure Float) String}

theorem eq_append (h : Exchange s service job u tier d prompt answers last) :
    answers = answers.dropLast ++ [last] :=
  (List.dropLast_append_getLast? last h.ends).symm

/-- Before the last answer nothing is decided. -/
theorem undecided (h : Exchange s service job u tier d prompt answers last) :
    ∀ a ∈ answers.dropLast, ¬Accepted s u a ∧ ¬Refused a := by
  intro a ha
  have hpass := h.attempts.mayPass_of_mem a ha
  exact ⟨not_accepted_of_mayPass hpass, not_refused_of_mayPass hpass⟩

theorem fst_of_accepted {text : String}
    (h : Exchange s service job u tier d prompt answers (.ok text))
    (hreview : Page.review (s.checks u) text = []) :
    (askTier s service job u tier d).1 = .accepted text := by
  obtain ⟨d', hjudge⟩ := h.judged
  rw [hjudge, judge_of_accepted hreview]

theorem fst_of_refused {message : String} {status : Option Int}
    (h : Exchange s service job u tier d prompt answers (.error (.permanent message status))) :
    (askTier s service job u tier d).1 = .fault (.refused u.label message) := by
  obtain ⟨d', hjudge⟩ := h.judged
  rw [hjudge, judge_of_refused]

/-- An answer that decides nothing leads on, unless the service crashes. -/
theorem exists_fst_eq_unusable (h : Exchange s service job u tier d prompt answers last)
    (hservice : ∀ n q crash, service n q ≠ .error (.crashed crash)) (haccepted : ¬Accepted s u last)
    (hrefused : ¬Refused last) :
    ∃ reason, (askTier s service job u tier d).1 = .unusable reason := by
  obtain ⟨d', hjudge⟩ := h.judged
  have hmem : last ∈ answers := List.mem_of_getLast? h.ends
  rw [h.attempts.answered] at hmem
  obtain ⟨n, -, hanswer⟩ := List.mem_map.1 hmem
  rw [hjudge]
  exact exists_judge_eq_unusable haccepted hrefused fun crash ↦ hanswer ▸ hservice n _ crash

end Exchange

end Generation

end Docwright
