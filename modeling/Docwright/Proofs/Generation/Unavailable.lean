import Docwright.Proofs.Generation.Outcome
import Docwright.Proofs.Page.Fallback

/-!
# Generating without the service

When no answer about a unit is of any use, because the call fails in a way that may pass or because
the text does not pass review (`Useless`), the page of the unit is made from its symbols and the
cache stays as it is (`generate_of_unhelpful`). Nothing is asked of the service about other units:
whatever it answers there, it may be of use.
-/

namespace Docwright

/-- The document is made from the symbols of the unit, and names all of them between ticks. -/
structure Page.IsOutline (u : Page.PageUnit) (document : Page.Document) : Prop where
  made : ∃ reason position,
    document = u.document (Page.Fallback.page u (some reason)) position .outline
  names : ∀ o ∈ u.outlines, ∀ name ∈ o.symbolNames,
    (Page.Fallback.ticked name).toList <:+: document.body.toList

theorem Page.isOutline_document (u : Page.PageUnit) (reason : String) (position : Int) :
    IsOutline u (u.document (Fallback.page u (some reason)) position .outline) :=
  ⟨⟨reason, position, rfl⟩, fun _ ho _ hname ↦ Fallback.ticked_infix_page (some reason) ho hname⟩

namespace Generation

open Service

variable {s : GenerationSettings} {service : ServiceBehaviour} {job : Option String}
  {u : Page.PageUnit} {d : Desk} {a : Except (Failure Float) String}

/-- The answer is of no use for the page of a unit: the call fails in a way that may pass, be it for
too many calls, or the text does not pass review. -/
def Useless (s : GenerationSettings) (u : Page.PageUnit) (a : Except (Failure Float) String) :
    Prop :=
  (∃ failure, a = .error failure ∧ failure.isTransient = true) ∨
    ∃ text, a = .ok text ∧ Page.review (s.checks u) text ≠ []

/-- Whenever the service is asked about the unit, its answer is of no use. -/
def Unhelpful (s : GenerationSettings) (service : ServiceBehaviour) (u : Page.PageUnit) : Prop :=
  ∀ tier prompt, Prompt.build s.prompts tier u = .ok prompt →
    ∀ n, Useless s u (service n (questionOf prompt))

/-- An answer that is of no use leads on. -/
theorem Useless.exists_judge_eq_unusable (h : Useless s u a) {tier : Prompt.Tier} {d : Desk} :
    ∃ reason, (judge s job u tier a d).1 = .unusable reason := by
  rcases h with ⟨failure, rfl, htransient⟩ | ⟨text, rfl, hreview⟩
  · cases failure with
    | rateLimited message hint => exact ⟨_, rfl⟩
    | transient message status => exact ⟨_, rfl⟩
    | permanent message status => cases htransient
    | crashed crash => cases htransient
  · refine Generation.exists_judge_eq_unusable ?_ ?_ fun crash h ↦ (by cases h)
    · rintro ⟨text', heq, hreview'⟩
      cases heq
      exact hreview hreview'
    · rintro ⟨message, status, heq⟩
      cases heq

/-- Asking about a unit brings nothing that can be used, however often it is tried. -/
theorem exists_askTier_eq_unusable (hbudget : s.maxAttempts ≤ 1000)
    (hservice : Unhelpful s service u) {tier : Prompt.Tier} {prompt : Prompt}
    (hprompt : Prompt.build s.prompts tier u = .ok prompt) (job : Option String) (d : Desk) :
    ∃ reason, (askTier s service job u tier d).1 = .unusable reason := by
  obtain ⟨answers, last, hexchange⟩ := exists_exchange hbudget service job d hprompt
  obtain ⟨d', hjudge⟩ := hexchange.judged
  -- the answer that is judged is one of the service to the question of the prompt
  have hmem : last ∈ answers := List.mem_of_getLast? hexchange.ends
  rw [hexchange.attempts.answered] at hmem
  obtain ⟨n, -, rfl⟩ := List.mem_map.1 hmem
  rw [hjudge]
  exact (hservice tier prompt hprompt n).exists_judge_eq_unusable

/-- **Without the service the page of a unit is made from its symbols**, and the cache, in which the
unit was not found, stays as it is. -/
theorem generate_of_unhelpful (hbudget : s.maxAttempts ≤ 1000) (hservice : Unhelpful s service u)
    (hkind : u.kind = .group ∨ u.kind = .file) (job : Option String) (position : Int)
    (hmiss : d.cache.get? (keyOf u s.cachePrefixChars) = none) :
    (∃ document, (generate s service job position u d).1 = .ok document ∧
      Page.IsOutline u document) ∧ (generate s service job position u d).2.cache = d.cache := by
  obtain ⟨prompt, hprompt⟩ := exists_prompt_full s hkind
  obtain ⟨prompt', hprompt'⟩ := exists_prompt_simplified s u
  obtain ⟨reason, hfull⟩ := exists_askTier_eq_unusable hbudget hservice hprompt job d
  obtain ⟨reason', hsimplified⟩ := exists_askTier_eq_unusable hbudget hservice hprompt' job
    (askTier s service job u .full d).2
  rw [generate_of_get?_eq_none hmiss,
    generateAnew_of_unusable_unusable hfull rfl hsimplified]
  refine ⟨⟨_, rfl, Page.isOutline_document u reason' position⟩, ?_⟩
  exact (askTier_extends s service job u .simplified _).2.trans
    (askTier_extends s service job u .full d).2

end Generation

end Docwright
