import Docwright.Proofs.Generation.Memory
import Docwright.Run

/-!
# Sessions of generating

A job generates its units one after the other, and each finds the cache as the one before left it
(`Session`). What the cache holds afterwards is what it held before together with the texts of the
service that were accepted on the way (`Session.get?_eq`), whatever the service does.

`Course` says what becomes of the units of a job: all have a document, or one of them has none and
those after it are not asked about.
-/

namespace Docwright.Generation

open Service

variable {s : GenerationSettings} {service : ServiceBehaviour} {job : Option String}
  {u : Page.PageUnit} {position : Int} {d : Desk} {document : Page.Document}

/-- A text is accepted only when it passes review. -/
theorem review_of_askTier {tier : Prompt.Tier} {text : String}
    (h : (askTier s service job u tier d).1 = .accepted text) :
    Page.review (s.checks u) text = [] := by
  rw [askTier] at h
  split at h
  · cases h
  simp only [judge] at h
  split at h
  · split at h
    · rename_i hreview
      cases h
      exact hreview
    · cases h
  · cases h
  · cases h
  · cases h

/-- A document about a unit that is not in the cache is made from its symbols, or it has a text of
the service that passes review. -/
theorem origin_of_generateAnew
    (h : (generateAnew s service job position u d).1 = .ok document) :
    document.origin = .outline ∨ (document.origin = .service ∨ document.origin = .simplified) ∧
      Page.review (s.checks u) document.body = [] := by
  cases hfirst : (askTier s service job u .full d).1 with
  | fault fault =>
    rw [generateAnew_of_fault hfirst] at h
    cases h
  | accepted text =>
    rw [generateAnew_of_accepted hfirst] at h
    cases h
    exact .inr ⟨.inl rfl, review_of_askTier hfirst⟩
  | unusable reason =>
    cases hsecond :
        (askTier s service job u .simplified (askTier s service job u .full d).2).1 with
    | fault fault =>
      rw [generateAnew_of_unusable_fault hfirst rfl hsecond] at h
      cases h
    | accepted text =>
      rw [generateAnew_of_unusable_accepted hfirst rfl hsecond] at h
      cases h
      exact .inr ⟨.inr rfl, review_of_askTier hsecond⟩
    | unusable reason' =>
      rw [generateAnew_of_unusable_unusable hfirst rfl hsecond] at h
      cases h
      exact .inl rfl

namespace Turn

/-- The text of the service that a call accepts, with its key. -/
def accepted? (s : GenerationSettings) (service : ServiceBehaviour) (t : Turn) :
    Option (String × String) :=
  match (t.result s service).1 with
  | .ok document =>
    if document.origin = .service ∨ document.origin = .simplified then
      some (t.key s, document.body)
    else none
  | .error _ => none

variable {t : Turn} {k text : String}

/-- An accepted text has the key of its unit and passes review. -/
theorem review_of_accepted (h : t.accepted? s service = some (k, text)) :
    k = t.key s ∧ Page.review (s.checks t.unit) text = [] := by
  rw [accepted?] at h
  split at h
  · rename_i document hmade
    split at h
    · rename_i horigin
      cases h
      cases hget : t.desk.cache.get? (t.key s) with
      | some body =>
        have hhit := (generate_of_get? service t.job t.position hget).1
        rw [show (t.result s service).1 = _ from hhit] at hmade
        cases hmade
        rcases horigin with h | h <;> cases h
      | none =>
        rw [result, generate_of_get?_eq_none hget] at hmade
        rcases origin_of_generateAnew hmade with houtline | ⟨-, hreview⟩
        · rw [houtline] at horigin
          rcases horigin with h | h <;> cases h
        · exact ⟨rfl, hreview⟩
    · cases h
  · cases h

/-- **A call adds the text that it accepts to the cache, and nothing else.** A text that was found
before is not replaced. -/
theorem cache_cases (s : GenerationSettings) (service : ServiceBehaviour) (t : Turn) :
    t.accepted? s service = none ∧ (t.result s service).2.cache = t.desk.cache ∨
      ∃ text moment, t.accepted? s service = some (t.key s, text) ∧
        t.desk.cache.get? (t.key s) = none ∧
        (t.result s service).2.cache = t.desk.cache.store (t.key s) text moment := by
  have hcomes := t.comes s service
  generalize hmade : (t.result s service).1 = made at hcomes
  generalize hcache : (t.result s service).2.cache = c at hcomes
  cases hcomes with
  | remembered hget =>
    refine .inl ⟨?_, rfl⟩
    rw [accepted?, hmade]
    rfl
  | kept moment hget horigin =>
    rename_i text origin
    refine .inr ⟨text, moment, ?_, hget, rfl⟩
    -- what is not in the cache is not taken from it
    have hanew := hmade
    rw [result, generate_of_get?_eq_none hget] at hanew
    have hservice := (origin_of_generateAnew hanew).resolve_left horigin
    rw [accepted?, hmade]
    exact if_pos hservice.1
  | outlined =>
    refine .inl ⟨?_, rfl⟩
    rw [accepted?, hmade]
    rfl
  | faulty =>
    refine .inl ⟨?_, rfl⟩
    rw [accepted?, hmade]

end Turn

/-- Calls that are made one after the other, from one cache to another. -/
inductive Session (s : GenerationSettings) (service : ServiceBehaviour) :
    Cache → List Turn → Cache → Prop
  | nil (c : Cache) : Session s service c [] c
  | cons {t : Turn} {turns : List Turn} {c c' : Cache} (hdesk : t.desk.cache = c)
    (h : Session s service (t.result s service).2.cache turns c') :
    Session s service c (t :: turns) c'

variable {c c' : Cache} {turns : List Turn}

/-- **The cache holds what it held before and the texts that were accepted since.** -/
theorem Session.get?_eq (h : Session s service c turns c') (k : String) :
    c'.get? k = (c.get? k).or ((turns.filterMap (Turn.accepted? s service)).lookup k) := by
  induction h with
  | nil c => rw [List.filterMap_nil, List.lookup_nil, Option.or_none]
  | @cons t turns c c' hdesk _ ih =>
    rw [ih, ← hdesk]
    rcases t.cache_cases s service with ⟨hnone, hcache⟩ | ⟨text, moment, hsome, hget, hcache⟩
    · rw [hcache, List.filterMap_cons_none hnone]
    · rw [hcache, List.filterMap_cons_some hsome, Cache.get?_store, List.lookup_cons]
      by_cases hk : k = t.key s
      · rw [if_pos hk, hk, beq_self_eq_true, hget]
        rfl
      · rw [if_neg hk, beq_eq_false_iff_ne.2 hk]

/-- It has an entry under the keys that it had before and under those of accepted texts. -/
theorem Session.contains_eq (h : Session s service c turns c') (k : String) :
    c'.contains k
      = (c.contains k || (turns.filterMap (Turn.accepted? s service)).any (·.1 == k)) := by
  induction h with
  | nil c => rw [List.filterMap_nil, List.any_nil, Bool.or_false]
  | @cons t turns c c' hdesk _ ih =>
    rw [ih, ← hdesk]
    rcases t.cache_cases s service with ⟨hnone, hcache⟩ | ⟨text, moment, hsome, -, hcache⟩
    · rw [hcache, List.filterMap_cons_none hnone]
    · rw [hcache, List.filterMap_cons_some hsome, Cache.contains_store, List.any_cons,
        ← Bool.or_assoc, Bool.or_comm (k == t.key s), BEq.comm]

/-- What becomes of units that are generated one after the other, and of the cache. -/
inductive Course (s : GenerationSettings) (service : ServiceBehaviour) (c : Cache)
    (units : List Page.PageUnit) : Except Run.Fault (List Page.Document) → Cache → Prop
  /-- All have a document. -/
  | completed {made : List Turn} {documents : List Page.Document} {c' : Cache}
    (hsession : Session s service c made c') (hunits : made.map Turn.unit = units)
    (hmade : List.Forall₂ (fun t document ↦ (t.result s service).1 = .ok document) made documents) :
    Course s service c units (.ok documents) c'
  /-- Some have one, and the next has none. -/
  | stopped {made : List Turn} {t : Turn} {rest : List Page.PageUnit} {fault : GenerationFault}
    {c' : Cache} (hsession : Session s service c made c')
    (hunits : units = made.map Turn.unit ++ t.unit :: rest)
    (hmade : ∀ x ∈ made, ∃ document, (x.result s service).1 = .ok document)
    (hdesk : t.desk.cache = c') (hfault : (t.result s service).1 = .error fault) :
    Course s service c units (.error (.ofGeneration fault)) c'

/-- A call that brings a document may be made first. -/
theorem Course.cons {t : Turn} {units : List Page.PageUnit}
    {r : Except Run.Fault (List Page.Document)} (hfirst : (t.result s service).1 = .ok document)
    (h : Course s service (t.result s service).2.cache units r c') :
    Course s service t.desk.cache (t.unit :: units) (r.map (document :: ·)) c' := by
  cases h with
  | completed hsession hunits hmade =>
    exact .completed (.cons rfl hsession) (by rw [List.map_cons, hunits]) (.cons hfirst hmade)
  | stopped hsession hunits hmade hdesk hfault =>
    refine .stopped (.cons rfl hsession) (congrArg (t.unit :: ·) hunits) ?_ hdesk hfault
    exact List.forall_mem_cons.2 ⟨⟨document, hfirst⟩, hmade⟩

/-- A call that brings no document leaves the cache alone. -/
theorem Turn.cache_of_error {t : Turn} {fault : GenerationFault}
    (h : (t.result s service).1 = .error fault) :
    (t.result s service).2.cache = t.desk.cache := by
  rcases t.cache_cases s service with ⟨-, hcache⟩ | ⟨text, moment, hsome, -⟩
  · exact hcache
  · rw [accepted?, h] at hsome
    cases hsome

end Docwright.Generation
