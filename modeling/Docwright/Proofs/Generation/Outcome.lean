import Docwright.Proofs.Cache.Store
import Docwright.Proofs.Generation.Tier

/-!
# What comes of a unit

`generate_settles`: a unit that is in the cache costs no call, and any other one is settled by the
answers of the service. The answers fall into those to the full prompt and those to the simplified
one (`Tiers`); the first of them that is a text passing review or a refusal for good decides, and
where there is none the page is made from the symbols (`Settled`).

The answers are not chosen by the theorem: they are what the service says to the questions that were
really put (`Desk.answers`). A deciding answer ends the run, so it is the last of all, and all that
is claimed can be read off the last answer (`Settled.of_ends`).
-/

namespace Docwright

open Service

/-- The answers of the service to the questions that were put between two desks. -/
def Desk.answers (service : ServiceBehaviour) (d d' : Desk) :
    List (Except (Failure Float) String) :=
  ((d'.asked.drop d.asked.length).zipIdx d.asked.length).map fun (q, n) ↦ service n q

theorem map_zipIdx_replicate (service : ServiceBehaviour) (q : Question) (k n : Nat) :
    ((List.replicate k q).zipIdx n).map (fun (q, n) ↦ service n q)
      = (List.range' n k).map (service · q) := by
  induction k generalizing n with
  | zero => rfl
  | succ k ih =>
    rw [List.replicate_succ, List.zipIdx_cons, List.range'_succ, List.map_cons, List.map_cons, ih]

/-- One question after another, each put a number of times. -/
theorem Desk.answers_eq {service : ServiceBehaviour} {d d' : Desk} {q q' : Question} {i j : Nat}
    (h : d'.asked = d.asked ++ List.replicate i q ++ List.replicate j q') :
    d.answers service d' = (List.range' d.asked.length i).map (service · q)
      ++ (List.range' (d.asked.length + i) j).map (service · q') := by
  rw [answers, h, List.append_assoc, List.drop_left, List.zipIdx_append, List.map_append,
    map_zipIdx_replicate, map_zipIdx_replicate, List.length_replicate]

namespace Generation

variable {s : GenerationSettings} {service : ServiceBehaviour} {job : Option String}
  {position : Int} {u : Page.PageUnit} {d : Desk}

/-! ### The ways through the tiers -/

theorem generateAnew_of_fault {fault : GenerationFault}
    (h : (askTier s service job u .full d).1 = .fault fault) :
    generateAnew s service job position u d
      = (.error fault, (askTier s service job u .full d).2) := by
  delta generateAnew
  generalize askTier s service job u .full d = r at h
  obtain ⟨outcome, d'⟩ := r
  cases h
  rfl

theorem generateAnew_of_accepted {text : String}
    (h : (askTier s service job u .full d).1 = .accepted text) :
    generateAnew s service job position u d
      = (.ok (u.document text position .service),
          (accept s job u position .service text (askTier s service job u .full d).2).2) := by
  delta generateAnew
  generalize askTier s service job u .full d = r at h
  obtain ⟨outcome, d'⟩ := r
  cases h
  rfl

section Unusable

variable {reason : String} (hfull : (askTier s service job u .full d).1 = .unusable reason)

include hfull

theorem generateAnew_of_unusable :
    generateAnew s service job position u d
      = match askTier s service job u .simplified (askTier s service job u .full d).2 with
        | (.fault fault, d) => (.error fault, d)
        | (.accepted text, d) =>
          let (document, d) := accept s job u position .simplified text d
          (.ok document, d)
        | (.unusable reason, d) =>
          let (document, d) := fallBack job u position reason d
          (.ok document, d) := by
  delta generateAnew
  generalize askTier s service job u .full d = r at hfull
  obtain ⟨outcome, d'⟩ := r
  cases hfull
  rfl

variable {d' : Desk} (hd' : (askTier s service job u .full d).2 = d')

include hd'

theorem generateAnew_of_unusable_fault {fault : GenerationFault}
    (h : (askTier s service job u .simplified d').1 = .fault fault) :
    generateAnew s service job position u d
      = (.error fault, (askTier s service job u .simplified d').2) := by
  rw [generateAnew_of_unusable hfull, hd']
  generalize askTier s service job u .simplified d' = r at h
  obtain ⟨outcome, d'⟩ := r
  cases h
  rfl

theorem generateAnew_of_unusable_accepted {text : String}
    (h : (askTier s service job u .simplified d').1 = .accepted text) :
    generateAnew s service job position u d
      = (.ok (u.document text position .simplified),
          (accept s job u position .simplified text
            (askTier s service job u .simplified d').2).2) := by
  rw [generateAnew_of_unusable hfull, hd']
  generalize askTier s service job u .simplified d' = r at h
  obtain ⟨outcome, d'⟩ := r
  cases h
  rfl

theorem generateAnew_of_unusable_unusable {reason' : String}
    (h : (askTier s service job u .simplified d').1 = .unusable reason') :
    generateAnew s service job position u d
      = (.ok (u.document (Page.Fallback.page u (some reason')) position .outline),
          (fallBack job u position reason' (askTier s service job u .simplified d').2).2) := by
  rw [generateAnew_of_unusable hfull, hd']
  generalize askTier s service job u .simplified d' = r at h
  obtain ⟨outcome, d'⟩ := r
  cases h
  rfl

end Unusable

/-! ### What the answers decide -/

/-- How the answers are spread over the tiers: in each they are what the attempts of the policy get,
and the simplified prompt is put exactly when the full one brought neither a text that passes review
nor a refusal. A text always ends its tier. -/
structure Tiers (s : GenerationSettings) (service : ServiceBehaviour) (u : Page.PageUnit)
    (d d' : Desk) (full simplified : List (Except (Failure Float) String)) : Prop where
  answers : d.answers service d' = full ++ simplified
  asked : ∃ prompt prompt', Prompt.build s.prompts .full u = .ok prompt ∧
    Prompt.build s.prompts .simplified u = .ok prompt' ∧
    d'.asked = d.asked ++ List.replicate full.length (questionOf prompt)
      ++ List.replicate simplified.length (questionOf prompt')
  tries_full : Tries s.policy.budget full
  tries_simplified : simplified ≠ [] → Tries s.policy.budget simplified
  next : simplified = [] ↔ ∃ a ∈ full.getLast?, Accepted s u a ∨ Refused a
  rejected : ∀ text, .ok text ∈ full → Page.review (s.checks u) text ≠ [] →
    full.getLast? = some (.ok text) ∧ simplified ≠ []
  closed : ∀ text, .ok text ∈ simplified → simplified.getLast? = some (.ok text)

/-- No more calls are made than both tiers allow. -/
theorem Tiers.length_le {d' : Desk} {full simplified : List (Except (Failure Float) String)}
    (h : Tiers s service u d d' full simplified) :
    ((d.answers service d').length : Int) ≤ 2 * max 1 s.maxAttempts := by
  have hbudget : (s.policy.budget : Int) = max 1 s.maxAttempts := s.policy.budget_eq
  have hfull := h.tries_full.length_le
  have hsimplified : simplified.length ≤ s.policy.budget := by
    by_cases hnil : simplified = []
    · rw [hnil]
      exact Nat.zero_le _
    · exact (h.tries_simplified hnil).length_le
  rw [h.answers, List.length_append]
  omega

/-- What comes of a unit that is not in the cache, in terms of the answers of the service. -/
structure Settled (s : GenerationSettings) (service : ServiceBehaviour) (u : Page.PageUnit)
    (position : Int) (d : Desk) (made : Except GenerationFault Page.Document) (d' : Desk) :
    Prop where
  tiers : ∃ full simplified, Tiers s service u d d' full simplified
  calls : ((d.answers service d').length : Int) ≤ 2 * max 1 s.maxAttempts
  /-- There is no document exactly when a refusal comes before a text that passes. -/
  raises : (∃ fault, made = .error fault) ↔
    ∃ before a after, d.answers service d' = before ++ a :: after ∧ Refused a ∧
      ∀ b ∈ before, ¬Accepted s u b
  refused : ∀ fault, made = .error fault → d'.cache = d.cache ∧
    ∃ message status, .error (.permanent message status) ∈ d.answers service d' ∧
      fault = .refused u.label message
  accepted : ∀ text, .ok text ∈ d.answers service d' → Page.review (s.checks u) text = [] →
    (∃ origin, (origin = .service ∨ origin = .simplified) ∧
      made = .ok (u.document text position origin)) ∧
    (∀ k, d'.cache.get? k = if k = keyOf u s.cachePrefixChars then some text else d.cache.get? k) ∧
    ∀ k, d'.cache.contains k = (k == keyOf u s.cachePrefixChars || d.cache.contains k)
  outlined : (∀ a ∈ d.answers service d', ¬Accepted s u a ∧ ¬Refused a) →
    (∃ reason, made = .ok (u.document (Page.Fallback.page u (some reason)) position .outline)) ∧
    d'.cache = d.cache

/-- What the last answer makes of a unit, and of the cache. -/
inductive Ends (s : GenerationSettings) (u : Page.PageUnit) (position : Int) (c : Cache) :
    Except (Failure Float) String → Except GenerationFault Page.Document → Cache → Prop
  | accepted {text : String} {origin : Page.Origin} (moment : Moment)
      (hreview : Page.review (s.checks u) text = [])
      (horigin : origin = .service ∨ origin = .simplified) :
      Ends s u position c (.ok text) (.ok (u.document text position origin))
        (c.store (keyOf u s.cachePrefixChars) text moment)
  | refused (message : String) (status : Option Int) :
      Ends s u position c (.error (.permanent message status)) (.error (.refused u.label message)) c
  | outlined {a : Except (Failure Float) String} (reason : String)
      (haccepted : ¬Accepted s u a) (hrefused : ¬Refused a) :
      Ends s u position c a
        (.ok (u.document (Page.Fallback.page u (some reason)) position .outline)) c

/-- Keeping an accepted text stores it under the key of the unit. -/
theorem exists_cache_accept (s : GenerationSettings) (job : Option String) (u : Page.PageUnit)
    (position : Int) (origin : Page.Origin) (text : String) (d : Desk) :
    ∃ moment, (accept s job u position origin text d).2.cache
      = d.cache.store (keyOf u s.cachePrefixChars) text moment :=
  ⟨_, rfl⟩

/-- Keeping an accepted text asks nothing, and neither does falling back, which leaves the cache
alone too. -/
theorem asked_accept (s : GenerationSettings) (job : Option String) (u : Page.PageUnit)
    (position : Int) (origin : Page.Origin) (text : String) (d : Desk) :
    (accept s job u position origin text d).2.asked = d.asked := rfl

theorem asked_fallBack (job : Option String) (u : Page.PageUnit) (position : Int)
    (reason : String) (d : Desk) : (fallBack job u position reason d).2.asked = d.asked := rfl

theorem cache_fallBack (job : Option String) (u : Page.PageUnit) (position : Int)
    (reason : String) (d : Desk) : (fallBack job u position reason d).2.cache = d.cache := rfl

theorem not_refused_of_accepted {a : Except (Failure Float) String} (h : Accepted s u a) :
    ¬Refused a := by
  rintro ⟨message, status, heq⟩
  obtain ⟨text, rfl, -⟩ := h
  cases heq

section Last

variable {d' : Desk} {before : List (Except (Failure Float) String)}
  {last : Except (Failure Float) String} {made : Except GenerationFault Page.Document}

/-- **The last answer settles a unit** when none before it decides. -/
theorem Settled.of_ends {full simplified : List (Except (Failure Float) String)}
    (htiers : Tiers s service u d d' full simplified)
    (hanswers : d.answers service d' = before ++ [last])
    (hbefore : ∀ a ∈ before, ¬Accepted s u a ∧ ¬Refused a) {c : Cache} (hcache : d'.cache = c)
    (hends : Ends s u position d.cache last made c) :
    Settled s service u position d made d' := by
  have hmem : last ∈ d.answers service d' := by
    rw [hanswers]
    exact List.mem_append_right _ List.mem_cons_self
  -- whatever decides is the last answer
  have hlast {a : Except (Failure Float) String} (ha : a ∈ d.answers service d')
      (hdecides : Accepted s u a ∨ Refused a) : a = last := by
    rw [hanswers] at ha
    rcases List.mem_append.1 ha with hinit | hlast
    · exact absurd hdecides (not_or.2 (hbefore a hinit))
    · exact List.mem_singleton.1 hlast
  refine ⟨⟨full, simplified, htiers⟩, htiers.length_le, ⟨?_, ?_⟩, ?_, ?_, ?_⟩
  · rintro ⟨fault, hfault⟩
    refine ⟨before, last, [], hanswers, ?_, fun b hb ↦ (hbefore b hb).1⟩
    cases hends with
    | accepted => cases hfault
    | refused message status => exact ⟨message, status, rfl⟩
    | outlined => cases hfault
  · rintro ⟨before', a, after, hsplit, hrefused, -⟩
    have ha : a ∈ d.answers service d' := by
      rw [hsplit]
      exact List.mem_append_right _ List.mem_cons_self
    rw [hlast ha (Or.inr hrefused)] at hrefused
    cases hends with
    | accepted moment hreview => exact absurd hrefused (not_refused_of_accepted ⟨_, rfl, hreview⟩)
    | refused message status => exact ⟨_, rfl⟩
    | outlined reason haccepted hrefused' => exact absurd hrefused hrefused'
  · intro fault hfault
    cases hends with
    | accepted => cases hfault
    | refused message status =>
      cases hfault
      exact ⟨hcache, message, status, hmem, rfl⟩
    | outlined => cases hfault
  · intro text htext hreview
    have heq : Except.ok text = last := hlast htext (Or.inl ⟨text, rfl, hreview⟩)
    cases hends with
    | accepted moment _ horigin =>
      cases heq
      rw [hcache]
      exact ⟨⟨_, horigin, rfl⟩, fun k ↦ Cache.get?_store _ _ _ _ k,
        fun k ↦ Cache.contains_store _ _ _ _ k⟩
    | refused => cases heq
    | outlined reason haccepted => exact absurd ⟨text, heq.symm, hreview⟩ haccepted
  · intro hnone
    obtain ⟨haccepted, hrefused⟩ := hnone last hmem
    cases hends with
    | accepted moment hreview => exact absurd ⟨_, rfl, hreview⟩ haccepted
    | refused message status => exact absurd ⟨message, status, rfl⟩ hrefused
    | outlined reason => exact ⟨⟨reason, rfl⟩, hcache⟩

end Last

/-! ### From exchanges to what is settled -/

section Exchanges

variable {prompt prompt' : Prompt} {full simplified : List (Except (Failure Float) String)}
  {last last' : Except (Failure Float) String} {d₁ d' : Desk}

/-- When the full prompt brings a decision nothing else is asked. -/
theorem Exchange.tiers (h : Exchange s service job u .full d prompt full last)
    (hdecides : Accepted s u last ∨ Refused last) (d' : Desk)
    (hasked : d'.asked = (askTier s service job u .full d).2.asked) :
    Tiers s service u d d' full [] := by
  obtain ⟨prompt', hp'⟩ := exists_prompt_simplified s u
  have hall : d'.asked = d.asked ++ List.replicate full.length (questionOf prompt)
      ++ List.replicate 0 (questionOf prompt') := by
    rw [hasked, h.asked, List.replicate_zero, List.append_nil]
  refine ⟨?_, ⟨prompt, prompt', h.built, hp', hall⟩, h.attempts.toTries, fun hne ↦ absurd rfl hne,
    ⟨fun _ ↦ ⟨last, h.ends, hdecides⟩, fun _ ↦ rfl⟩, fun text htext hreview ↦ ?_,
    fun text htext ↦ absurd htext List.not_mem_nil⟩
  · rw [Desk.answers_eq hall, ← h.attempts.answered]
    rfl
  · -- a text that fails review would be the last answer, which decides
    have hlast := h.attempts.getLast?_of_mem htext rfl
    rw [h.ends, Option.some.injEq] at hlast
    subst hlast
    rcases hdecides with ⟨text', heq, hreview'⟩ | ⟨message, status, heq⟩
    · cases heq
      exact absurd hreview' hreview
    · cases heq

/-- Otherwise the simplified prompt is put next. -/
theorem Exchange.tiers_append (h : Exchange s service job u .full d prompt full last)
    (hundecided : ¬(Accepted s u last ∨ Refused last))
    (hd₁ : (askTier s service job u .full d).2 = d₁)
    (h' : Exchange s service job u .simplified d₁ prompt' simplified last') (d' : Desk)
    (hasked : d'.asked = (askTier s service job u .simplified d₁).2.asked) :
    Tiers s service u d d' full simplified := by
  have hasked₁ : d₁.asked = d.asked ++ List.replicate full.length (questionOf prompt) := by
    rw [← hd₁, h.asked]
  have hall : d'.asked = d.asked ++ List.replicate full.length (questionOf prompt)
      ++ List.replicate simplified.length (questionOf prompt') := by
    rw [hasked, h'.asked, hasked₁]
  have hlength : d₁.asked.length = d.asked.length + full.length := by
    rw [hasked₁, List.length_append, List.length_replicate]
  refine ⟨?_, ⟨prompt, prompt', h.built, h'.built, hall⟩, h.attempts.toTries,
    fun _ ↦ h'.attempts.toTries, ⟨fun hnil ↦ absurd hnil h'.attempts.ne_nil, ?_⟩,
    fun text htext _ ↦ ⟨h.attempts.getLast?_of_mem htext rfl, h'.attempts.ne_nil⟩,
    fun text htext ↦ h'.attempts.getLast?_of_mem htext rfl⟩
  · rw [Desk.answers_eq hall, ← h.attempts.answered, ← hlength, ← h'.attempts.answered]
  · rintro ⟨a, ha, hdecides⟩
    rw [h.ends, Option.mem_some_iff] at ha
    exact absurd (ha ▸ hdecides) hundecided

/-- A unit is settled when the full prompt brings a decision. -/
theorem Exchange.settled (h : Exchange s service job u .full d prompt full last)
    (hdecides : Accepted s u last ∨ Refused last) :
    Settled s service u position d (generateAnew s service job position u d).1
      (generateAnew s service job position u d).2 := by
  rcases hdecides with ⟨text, rfl, hreview⟩ | ⟨message, status, rfl⟩
  · have hdecides : Accepted s u (.ok text) ∨ Refused (.ok text) := Or.inl ⟨text, rfl, hreview⟩
    obtain ⟨moment, hstore⟩ := exists_cache_accept s job u position .service text
      (askTier s service job u .full d).2
    rw [h.cache] at hstore
    rw [generateAnew_of_accepted (h.fst_of_accepted hreview)]
    have htiers := h.tiers hdecides _ (asked_accept s job u position .service text
      (askTier s service job u .full d).2)
    have hanswers := htiers.answers
    rw [List.append_nil, h.eq_append] at hanswers
    exact .of_ends htiers hanswers h.undecided hstore (.accepted moment hreview (Or.inl rfl))
  · have hdecides : Accepted s u (.error (.permanent message status)) ∨
        Refused (.error (.permanent message status)) := Or.inr ⟨message, status, rfl⟩
    rw [generateAnew_of_fault h.fst_of_refused]
    have htiers := h.tiers hdecides (askTier s service job u .full d).2 rfl
    have hanswers := htiers.answers
    rw [List.append_nil, h.eq_append] at hanswers
    exact .of_ends htiers hanswers h.undecided h.cache (.refused message status)

/-- A unit is settled by the simplified prompt when the full one brings no decision. -/
theorem Exchange.settled_append (h : Exchange s service job u .full d prompt full last)
    (hservice : ∀ n q crash, service n q ≠ .error (.crashed crash))
    (haccepted : ¬Accepted s u last) (hrefused : ¬Refused last)
    (hd₁ : (askTier s service job u .full d).2 = d₁)
    (h' : Exchange s service job u .simplified d₁ prompt' simplified last') :
    Settled s service u position d (generateAnew s service job position u d).1
      (generateAnew s service job position u d).2 := by
  obtain ⟨reason, hunusable⟩ := h.exists_fst_eq_unusable hservice haccepted hrefused
  have hnone : ¬(Accepted s u last ∨ Refused last) := not_or.2 ⟨haccepted, hrefused⟩
  have hcache : d₁.cache = d.cache := hd₁ ▸ h.cache
  -- the last answer of the full prompt decides nothing either
  have hbefore : ∀ a ∈ full ++ simplified.dropLast, ¬Accepted s u a ∧ ¬Refused a := by
    intro a ha
    rcases List.mem_append.1 ha with ha | ha
    · rw [h.eq_append] at ha
      rcases List.mem_append.1 ha with ha | ha
      · exact h.undecided a ha
      · exact List.mem_singleton.1 ha ▸ ⟨haccepted, hrefused⟩
    · exact h'.undecided a ha
  have hsplit {d' : Desk} (htiers : Tiers s service u d d' full simplified) :
      d.answers service d' = (full ++ simplified.dropLast) ++ [last'] := by
    rw [htiers.answers, List.append_assoc, ← h'.eq_append]
  by_cases haccepted' : Accepted s u last'
  · obtain ⟨text, rfl, hreview⟩ := haccepted'
    obtain ⟨moment, hstore⟩ := exists_cache_accept s job u position .simplified text
      (askTier s service job u .simplified d₁).2
    rw [generateAnew_of_unusable_accepted hunusable hd₁ (h'.fst_of_accepted hreview)]
    have htiers := h.tiers_append hnone hd₁ h' _ (asked_accept s job u position .simplified text
      (askTier s service job u .simplified d₁).2)
    rw [h'.cache, hcache] at hstore
    exact .of_ends htiers (hsplit htiers) hbefore hstore (.accepted moment hreview (Or.inr rfl))
  by_cases hrefused' : Refused last'
  · obtain ⟨message, status, rfl⟩ := hrefused'
    rw [generateAnew_of_unusable_fault hunusable hd₁ h'.fst_of_refused]
    have htiers := h.tiers_append hnone hd₁ h' (askTier s service job u .simplified d₁).2 rfl
    exact .of_ends htiers (hsplit htiers) hbefore (h'.cache.trans hcache) (.refused message status)
  · obtain ⟨reason', hunusable'⟩ := h'.exists_fst_eq_unusable hservice haccepted' hrefused'
    rw [generateAnew_of_unusable_unusable hunusable hd₁ hunusable']
    have htiers := h.tiers_append hnone hd₁ h' _ (asked_fallBack job u position reason'
      (askTier s service job u .simplified d₁).2)
    have hcache' := (cache_fallBack job u position reason'
      (askTier s service job u .simplified d₁).2).trans (h'.cache.trans hcache)
    exact .of_ends htiers (hsplit htiers) hbefore hcache' (.outlined reason' haccepted' hrefused')

end Exchanges

/-! ### The whole of generating -/

theorem generate_of_get? (service : ServiceBehaviour) (job : Option String) (position : Int)
    {body : String} (h : d.cache.get? (keyOf u s.cachePrefixChars) = some body) :
    (generate s service job position u d).1 = .ok (u.document body position .cache) ∧
      (generate s service job position u d).2.asked = d.asked ∧
      (generate s service job position u d).2.cache = d.cache := by
  rw [generate, h]
  exact ⟨rfl, rfl, rfl⟩

theorem generate_of_get?_eq_none (h : d.cache.get? (keyOf u s.cachePrefixChars) = none) :
    generate s service job position u d = generateAnew s service job position u d := by
  rw [generate, h]

/-- **The answers of the service settle a unit** that is not in the cache. -/
theorem settled_generate (hbudget : s.maxAttempts ≤ 1000)
    (hservice : ∀ n q crash, service n q ≠ .error (.crashed crash)) (job : Option String)
    (position : Int) (hmiss : d.cache.get? (keyOf u s.cachePrefixChars) = none) {prompt : Prompt}
    (hprompt : Prompt.build s.prompts .full u = .ok prompt) :
    Settled s service u position d (generate s service job position u d).1
      (generate s service job position u d).2 := by
  obtain ⟨full, last, hfull⟩ := exists_exchange hbudget service job d hprompt
  rw [generate_of_get?_eq_none hmiss]
  by_cases hdecides : Accepted s u last ∨ Refused last
  · exact hfull.settled hdecides
  · obtain ⟨haccepted, hrefused⟩ := not_or.1 hdecides
    obtain ⟨prompt', hp'⟩ := exists_prompt_simplified s u
    obtain ⟨simplified, last', hsimplified⟩ := exists_exchange hbudget service job
      (askTier s service job u .full d).2 hp'
    exact hfull.settled_append hservice haccepted hrefused rfl hsimplified

/-- **Everything that can come of a unit**, a feature or a file. What is in the cache is used
without a call; otherwise the answers of the service settle the unit. -/
theorem generate_settles (hbudget : s.maxAttempts ≤ 1000)
    (hservice : ∀ n q crash, service n q ≠ .error (.crashed crash)) (job : Option String)
    (position : Int) {u : Page.PageUnit} (hkind : u.kind = .group ∨ u.kind = .file) (d : Desk) :
    let made := generate s service job position u d
    (∀ body, d.cache.get? (keyOf u s.cachePrefixChars) = some body →
      made.1 = .ok (u.document body position .cache) ∧ made.2.asked = d.asked ∧
        made.2.cache = d.cache) ∧
    (d.cache.get? (keyOf u s.cachePrefixChars) = none →
      Settled s service u position d made.1 made.2) := by
  obtain ⟨prompt, hprompt⟩ := exists_prompt_full s hkind
  exact ⟨fun body hbody ↦ generate_of_get? service job position hbody,
    fun hmiss ↦ settled_generate hbudget hservice job position hmiss hprompt⟩

/-- A feature that is easily described. -/
def billing : Page.PageUnit := .ofGroup "Billing" []

/-- A desk on which nothing has been done. -/
def freshDesk : Desk where
  ledger := { clock := ⟨0⟩ }
  gate := ⟨1.0, none⟩

/-- A service that always says the same. -/
def parrot (text : String) : ServiceBehaviour := fun _ _ ↦ .ok text

theorem parrot_ne_crashed (text : String) (n : Nat) (q : Question) (crash : Crash) :
    parrot text n q ≠ .error (.crashed crash) := by
  intro h
  cases h

/-- When the service always says the same text, and the text passes review, it is the page. -/
theorem Settled.of_parrot {text : String} {made : Except GenerationFault Page.Document} {d' : Desk}
    (h : Settled s (parrot text) u position d made d')
    (hreview : Page.review (s.checks u) text = []) :
    (∃ origin, (origin = .service ∨ origin = .simplified) ∧
      made = .ok (u.document text position origin)) ∧
    d'.cache.get? (keyOf u s.cachePrefixChars) = some text := by
  obtain ⟨full, simplified, htiers⟩ := h.tiers
  -- at least one question is put, and every answer is the text
  obtain ⟨a, ha⟩ := List.exists_mem_of_ne_nil full htiers.tries_full.ne_nil
  have hmem : a ∈ d.answers (parrot text) d' :=
    htiers.answers ▸ List.mem_append_left simplified ha
  have htext : a = .ok text := by
    obtain ⟨question, -, hanswer⟩ := List.mem_map.1 hmem
    exact hanswer.symm
  obtain ⟨hmade, hget, -⟩ := h.accepted text (htext ▸ hmem) hreview
  exact ⟨hmade, by rw [hget, if_pos rfl]⟩

/-- The only text that the service ever says is the page about a feature. -/
theorem generate_settles_billing :
    let s : GenerationSettings := { summaryMinLength := 5 }
    s.maxAttempts ≤ 1000 ∧
      (∀ n q crash, parrot "# Billing" n q ≠ .error (.crashed crash)) ∧
      (billing.kind = .group ∨ billing.kind = .file) ∧
      (∃ origin, (origin = .service ∨ origin = .simplified) ∧
        (generate s (parrot "# Billing") none 2 billing freshDesk).1
          = .ok (billing.document "# Billing" 2 origin)) ∧
      (generate s (parrot "# Billing") none 2 billing freshDesk).2.cache.get?
        (keyOf billing s.cachePrefixChars) = some "# Billing" := by
  intro s
  have hbudget : s.maxAttempts ≤ 1000 := by decide
  have hservice := parrot_ne_crashed "# Billing"
  have hkind : billing.kind = .group ∨ billing.kind = .file := .inl rfl
  have hmiss : freshDesk.cache.get? (keyOf billing s.cachePrefixChars) = none := rfl
  have h := (generate_settles hbudget hservice none 2 hkind freshDesk).2 hmiss
  exact ⟨hbudget, hservice, hkind, h.of_parrot (by decide)⟩

end Generation

end Docwright
