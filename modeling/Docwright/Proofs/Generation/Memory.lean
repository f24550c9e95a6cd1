import Docwright.Proofs.Cache.Store
import Docwright.Proofs.Generation.Outcome
import Mathlib.Data.List.Chain

/-!
# What a generator remembers

Units are generated one after the other, and all that connects them is the cache. A call does one of
four things to it (`Comes`, `comes_generate`): it uses what is there, keeps a text under a key where
nothing was found, falls back to the symbols, or ends without a document; only the second changes
it. So what is found under a key is never changed again (`Comes.get?_eq`), and a key that was missed
is found later only if a call on it has kept a text (`Comes.get?_eq_none`).

`session_remembers` reads both facts off a whole session, a list of calls each of which finds the
cache and the questions as the one before left them; everything else on the desk may change between
two calls.
-/

namespace Docwright.Generation

open Service

variable {s : GenerationSettings} {service : ServiceBehaviour}

/-! ### One call -/

/-- What can come of a unit, and of the cache. -/
inductive Comes (s : GenerationSettings) (u : Page.PageUnit) (position : Int) (c : Cache) :
    Except GenerationFault Page.Document → Cache → Prop
  | remembered {body : String} (hget : c.get? (keyOf u s.cachePrefixChars) = some body) :
      Comes s u position c (.ok (u.document body position .cache)) c
  | kept {text : String} {origin : Page.Origin} (moment : Moment)
      (hget : c.get? (keyOf u s.cachePrefixChars) = none) (horigin : origin ≠ .outline) :
      Comes s u position c (.ok (u.document text position origin))
        (c.store (keyOf u s.cachePrefixChars) text moment)
  | outlined (reason : String) (hget : c.get? (keyOf u s.cachePrefixChars) = none) :
      Comes s u position c
        (.ok (u.document (Page.Fallback.page u (some reason)) position .outline)) c
  | faulty (fault : GenerationFault) (hget : c.get? (keyOf u s.cachePrefixChars) = none) :
      Comes s u position c (.error fault) c

variable {u : Page.PageUnit} {position : Int} {c c' : Cache}
  {made : Except GenerationFault Page.Document} {document : Page.Document}

/-- **What is found under a key stays as it is.** -/
theorem Comes.get?_eq (h : Comes s u position c made c') {k body : String}
    (hk : c.get? k = some body) : c'.get? k = some body := by
  cases h with
  | remembered => exact hk
  | kept moment hget =>
    have hne : k ≠ keyOf u s.cachePrefixChars := by
      rintro rfl
      rw [hget] at hk
      cases hk
    rw [Cache.get?_store, if_neg hne, hk]
  | outlined => exact hk
  | faulty => exact hk

/-- A key that is missed is found afterwards only when a text was kept under it. -/
theorem Comes.get?_eq_none (h : Comes s u position c made c') {k : String}
    (hk : c.get? k = none) (hother : keyOf u s.cachePrefixChars = k →
      ∀ document, made = .ok document → document.origin = .outline) : c'.get? k = none := by
  cases h with
  | remembered => exact hk
  | kept moment hget horigin =>
    have hne : k ≠ keyOf u s.cachePrefixChars := fun heq ↦ horigin (hother heq.symm _ rfl)
    rw [Cache.get?_store, if_neg hne, hk]
  | outlined => exact hk
  | faulty => exact hk

/-- A text that does not come from the symbols is found under the key of the unit afterwards. -/
theorem Comes.get?_of_origin_ne (h : Comes s u position c (.ok document) c')
    (horigin : document.origin ≠ .outline) :
    c'.get? (keyOf u s.cachePrefixChars) = some document.body ∧
      document = u.document document.body position document.origin := by
  generalize hmade : Except.ok document = made at h
  cases h with
  | remembered hget =>
    cases hmade
    exact ⟨hget, rfl⟩
  | kept moment =>
    cases hmade
    exact ⟨by rw [Cache.get?_store, if_pos rfl]; rfl, rfl⟩
  | outlined =>
    cases hmade
    exact absurd rfl horigin
  | faulty => cases hmade

/-- A text that comes from the symbols is not kept. -/
theorem Comes.get?_of_origin_eq (h : Comes s u position c (.ok document) c')
    (horigin : document.origin = .outline) :
    c.get? (keyOf u s.cachePrefixChars) = none ∧ c' = c := by
  generalize hmade : Except.ok document = made at h
  cases h with
  | remembered =>
    cases hmade
    cases horigin
  | kept moment _ hne =>
    cases hmade
    exact absurd horigin hne
  | outlined _ hget => exact ⟨hget, rfl⟩
  | faulty => cases hmade

variable {job : Option String} {d : Desk}

/-- One of these things comes of every unit, whatever the service does. -/
theorem comes_generate (s : GenerationSettings) (service : ServiceBehaviour) (job : Option String)
    (position : Int) (u : Page.PageUnit) (d : Desk) :
    Comes s u position d.cache (generate s service job position u d).1
      (generate s service job position u d).2.cache := by
  cases hget : d.cache.get? (keyOf u s.cachePrefixChars) with
  | some body =>
    obtain ⟨hmade, -, hcache⟩ := generate_of_get? service job position hget
    rw [hmade, hcache]
    exact .remembered hget
  | none =>
    rw [generate_of_get?_eq_none hget]
    have hfull := (askTier_extends s service job u .full d).2
    cases hfirst : (askTier s service job u .full d).1 with
    | fault fault =>
      rw [generateAnew_of_fault hfirst, hfull]
      exact .faulty fault hget
    | accepted text =>
      obtain ⟨moment, hstore⟩ := exists_cache_accept s job u position .service text
        (askTier s service job u .full d).2
      rw [generateAnew_of_accepted hfirst, hstore, hfull]
      exact .kept moment hget (by decide)
    | unusable reason =>
      have hsimplified :=
        (askTier_extends s service job u .simplified (askTier s service job u .full d).2).2
      rw [hfull] at hsimplified
      cases hsecond :
          (askTier s service job u .simplified (askTier s service job u .full d).2).1 with
      | fault fault =>
        rw [generateAnew_of_unusable_fault hfirst rfl hsecond, hsimplified]
        exact .faulty fault hget
      | accepted text =>
        obtain ⟨moment, hstore⟩ := exists_cache_accept s job u position .simplified text
          (askTier s service job u .simplified (askTier s service job u .full d).2).2
        rw [generateAnew_of_unusable_accepted hfirst rfl hsecond, hstore, hsimplified]
        exact .kept moment hget (by decide)
      | unusable reason' =>
        rw [generateAnew_of_unusable_unusable hfirst rfl hsecond, cache_fallBack, hsimplified]
        exact .outlined reason' hget

/-! ### Asking again -/

/-- Whatever comes of the full prompt, its questions have been put. -/
theorem askTier_full_prefix (s : GenerationSettings) (service : ServiceBehaviour)
    (job : Option String) (position : Int) (u : Page.PageUnit) (d : Desk) :
    (askTier s service job u .full d).2.asked <+:
      (generateAnew s service job position u d).2.asked := by
  cases hfirst : (askTier s service job u .full d).1 with
  | fault fault =>
    rewrite [generateAnew_of_fault hfirst]
    exact List.prefix_rfl
  | accepted text =>
    rewrite [generateAnew_of_accepted hfirst]
    exact List.prefix_rfl
  | unusable reason =>
    have hextends :=
      (askTier_extends s service job u .simplified (askTier s service job u .full d).2).1
    cases hsecond : (askTier s service job u .simplified (askTier s service job u .full d).2).1 with
    | fault fault => rwa [generateAnew_of_unusable_fault hfirst rfl hsecond]
    | accepted text =>
      rw [generateAnew_of_unusable_accepted hfirst rfl hsecond, asked_accept]
      exact hextends
    | unusable reason' =>
      rw [generateAnew_of_unusable_unusable hfirst rfl hsecond, asked_fallBack]
      exact hextends

/-- **A unit that is not found is asked about.** -/
theorem exists_asked_generate (hget : d.cache.get? (keyOf u s.cachePrefixChars) = none)
    {prompt : Prompt} (hprompt : Prompt.build s.prompts .full u = .ok prompt) :
    ∃ more, (generate s service job position u d).2.asked
      = d.asked ++ questionOf prompt :: more := by
  rw [generate_of_get?_eq_none hget]
  obtain ⟨⟨k, hk⟩, -⟩ := exists_asks_askTier service job d hprompt
  obtain ⟨rest, hrest⟩ := askTier_full_prefix s service job position u d
  refine ⟨List.replicate k (questionOf prompt) ++ rest, ?_⟩
  rw [← hrest, hk, List.append_assoc, List.replicate_succ]
  rfl

/-- There is no document from the symbols unless there was a prompt. -/
theorem exists_prompt_of_outline
    (hmade : (generate s service job position u d).1 = .ok document)
    (horigin : document.origin = .outline) :
    ∃ prompt, Prompt.build s.prompts .full u = .ok prompt := by
  have hcomes := comes_generate s service job position u d
  rw [hmade] at hcomes
  obtain ⟨hget, -⟩ := hcomes.get?_of_origin_eq horigin
  cases hprompt : Prompt.build s.prompts .full u with
  | ok prompt => exact ⟨prompt, rfl⟩
  | error crash =>
    have hfault : (askTier s service job u .full d).1 = .fault (.crashed crash) := by
      rw [askTier_of_error hprompt]
    rw [generate_of_get?_eq_none hget, generateAnew_of_fault hfault] at hmade
    cases hmade

/-! ### Many calls -/

/-- A call and the desk that it finds. -/
structure Turn where
  job : Option String
  position : Int
  unit : Page.PageUnit
  desk : Desk

/-- What comes of a call, and the desk that it leaves. -/
def Turn.result (s : GenerationSettings) (service : ServiceBehaviour) (t : Turn) :
    Except GenerationFault Page.Document × Desk :=
  generate s service t.job t.position t.unit t.desk

/-- The key of the unit of a call. -/
def Turn.key (s : GenerationSettings) (t : Turn) : String :=
  keyOf t.unit s.cachePrefixChars

/-- One call finds the cache and the questions as another leaves them. -/
def Follows (s : GenerationSettings) (service : ServiceBehaviour) (a b : Turn) : Prop :=
  b.desk.cache = (a.result s service).2.cache ∧ b.desk.asked = (a.result s service).2.asked

/-- A call at the desk that another leaves follows it. -/
theorem Turn.follows (t : Turn) (s : GenerationSettings) (service : ServiceBehaviour)
    (job : Option String) (position : Int) (u : Page.PageUnit) :
    Follows s service t ⟨job, position, u, (t.result s service).2⟩ :=
  ⟨rfl, rfl⟩

theorem Turn.comes (s : GenerationSettings) (service : ServiceBehaviour) (t : Turn) :
    Comes s t.unit t.position t.desk.cache (t.result s service).1 (t.result s service).2.cache :=
  comes_generate s service t.job t.position t.unit t.desk

/-- What holds of the cache that one call leaves, and that the calls in between keep to, holds of
the cache that a later one finds. -/
theorem holds_of_isChain {P : Cache → Prop} {between : List Turn} {first later : Turn}
    (hchain : (first :: (between ++ [later])).IsChain (Follows s service))
    (hfirst : P (first.result s service).2.cache)
    (hbetween : ∀ t ∈ between, P t.desk.cache → P (t.result s service).2.cache) :
    P later.desk.cache := by
  induction between generalizing first with
  | nil =>
    obtain ⟨hcache, -⟩ := (List.isChain_cons_cons.1 hchain).1
    rwa [hcache]
  | cons next between ih =>
    obtain ⟨⟨hcache, -⟩, hrest⟩ := List.isChain_cons_cons.1 hchain
    have hnext : P next.desk.cache := by rwa [hcache]
    exact ih hrest (hbetween next List.mem_cons_self hnext) fun t ht ↦
      hbetween t (List.mem_cons_of_mem next ht)

/-- **What a session remembers.** In any sequence of calls, a text of the service is used again by
every later call under the same key, without a question and as the same document for the same unit
and position. A unit that was made from its symbols is not remembered: it is asked about again
unless a call in between has brought a text under its key. -/
theorem session_remembers (before between after : List Turn) {first later : Turn}
    (hsession : (before ++ first :: (between ++ later :: after)).IsChain (Follows s service))
    (hkey : later.key s = first.key s) {document : Page.Document}
    (hfirst : (first.result s service).1 = .ok document) :
    (document.origin ≠ .outline →
      (later.result s service).1
          = .ok (later.unit.document document.body later.position .cache) ∧
        (later.result s service).2.asked = later.desk.asked ∧
        (later.result s service).2.cache = later.desk.cache ∧
        (later.unit = first.unit → later.position = first.position →
          (later.result s service).1 = .ok { document with origin := .cache })) ∧
    (document.origin = .outline →
      (first.result s service).2.cache = first.desk.cache ∧
        first.desk.cache.get? (first.key s) = none ∧
        (later.unit = first.unit →
          (∀ t ∈ between, t.key s = first.key s → ∀ document,
            (t.result s service).1 = .ok document → document.origin = .outline) →
          ∃ prompt more, Prompt.build s.prompts .full later.unit = .ok prompt ∧
            (later.result s service).2.asked = later.desk.asked ++ questionOf prompt :: more)) := by
  have hchain : (first :: (between ++ [later])).IsChain (Follows s service) := by
    refine hsession.infix ⟨before, after, ?_⟩
    simp
  have hcomes := first.comes s service
  rw [hfirst] at hcomes
  refine ⟨fun horigin ↦ ?_, fun horigin ↦ ?_⟩
  · obtain ⟨hget, hdocument⟩ := hcomes.get?_of_origin_ne horigin
    have hlater : later.desk.cache.get? (first.key s) = some document.body :=
      holds_of_isChain (P := fun c ↦ c.get? (first.key s) = some document.body) hchain hget
        fun t _ ht ↦ (t.comes s service).get?_eq ht
    rw [← hkey] at hlater
    obtain ⟨hmade, hasked, hcache⟩ :=
      generate_of_get? service later.job later.position hlater
    refine ⟨hmade, hasked, hcache, fun hunit hposition ↦ ?_⟩
    have hsame : { document with origin := .cache }
        = first.unit.document document.body first.position .cache :=
      congrArg (fun x : Page.Document ↦ { x with origin := .cache }) hdocument
    rw [hsame, ← hunit, ← hposition]
    exact hmade
  · obtain ⟨hget, hsame⟩ := hcomes.get?_of_origin_eq horigin
    refine ⟨hsame, hget, fun hunit hbetween ↦ ?_⟩
    have hlater : later.desk.cache.get? (first.key s) = none := by
      refine holds_of_isChain (P := fun c ↦ c.get? (first.key s) = none) hchain ?_
        fun t ht hnone ↦ (t.comes s service).get?_eq_none hnone (hbetween t ht)
      rw [hsame]
      exact hget
    rw [← hkey] at hlater
    obtain ⟨prompt, hprompt⟩ := exists_prompt_of_outline hfirst horigin
    rw [← hunit] at hprompt
    obtain ⟨more, hmore⟩ := exists_asked_generate hlater hprompt
    exact ⟨prompt, more, hprompt, hmore⟩

/-- A feature, another one, and the first again. -/
theorem session_remembers_billing :
    let s : GenerationSettings := { summaryMinLength := 5 }
    let service := parrot "# Billing"
    let first : Turn := ⟨none, 2, billing, freshDesk⟩
    let other : Turn := ⟨none, 3, .ofGroup "Shipping" [], (first.result s service).2⟩
    let later : Turn := ⟨none, 2, billing, (other.result s service).2⟩
    [first, other, later].IsChain (Follows s service) ∧ later.key s = first.key s ∧
      ∃ document, (first.result s service).1 = .ok document ∧ document.body = "# Billing" ∧
        document.origin ≠ .outline ∧
        (later.result s service).1 = .ok { document with origin := .cache } ∧
        (later.result s service).2.asked = later.desk.asked := by
  intro s service first other later
  have hchain : [first, other, later].IsChain (Follows s service) :=
    List.isChain_cons_cons.2 ⟨first.follows s service none 3 _,
      List.isChain_pair.2 (other.follows s service none 2 _)⟩
  obtain ⟨prompt, hprompt⟩ := exists_prompt_full s (u := billing) (Or.inl rfl)
  have hsettled := settled_generate (s := s) (by decide) (parrot_ne_crashed "# Billing") none 2
    (d := freshDesk) rfl hprompt
  obtain ⟨⟨origin, horigin, hmade⟩, -⟩ := hsettled.of_parrot (by decide)
  have hne : origin ≠ .outline := by
    rintro rfl
    rcases horigin with h | h <;> cases h
  have hfirst : first.key s = keyOf billing s.cachePrefixChars := rfl
  have hlater : later.key s = keyOf billing s.cachePrefixChars := rfl
  have hkey : later.key s = first.key s := hlater.trans hfirst.symm
  have hmade' : (first.result s service).1 = .ok (billing.document "# Billing" 2 origin) := hmade
  obtain ⟨-, hasked, -, hagain⟩ := (session_remembers [] [other] [] hchain hkey hmade').1 hne
  exact ⟨hchain, hkey, _, hmade', rfl, hne, hagain rfl rfl, hasked⟩

end Docwright.Generation
