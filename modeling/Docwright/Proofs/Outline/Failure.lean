import Docwright.Outline.SyntaxTree
import Mathlib.Logic.Basic

/-!
# When outlining fails

A declaration without a name is no symbol, and that is all that can go wrong while a tree is walked
over. `FailsWhen` says exactly when it does: the computation ends with that fault under a condition
and gives a result otherwise. Steps are put together by `FailsWhen.bind`, so what is said of a walk
follows from what is said of its steps.
-/

namespace Docwright.Outline

variable {α β : Type} {p q : Prop}

/-- The computation fails for want of a name exactly when the condition holds, and otherwise gives a
result. -/
def FailsWhen (p : Prop) (x : Except SymbolFault α) : Prop :=
  (p ∧ x = .error .unnamed) ∨ (¬p ∧ ∃ a, x = .ok a)

namespace FailsWhen

theorem ok (a : α) : FailsWhen False (.ok a) :=
  .inr ⟨not_false, a, rfl⟩

theorem congr {x : Except SymbolFault α} (h : FailsWhen p x) (hpq : p ↔ q) : FailsWhen q x := by
  rwa [← propext hpq]

/-- The condition may be put in other words where it does not hold at all. -/
theorem of_not {x : Except SymbolFault α} (h : FailsWhen False x) (hp : ¬p) : FailsWhen p x :=
  h.congr (iff_of_false not_false hp)

theorem eq_error {x : Except SymbolFault α} (h : FailsWhen p x) (hp : p) :
    x = .error .unnamed := by
  rcases h with ⟨_, hx⟩ | ⟨hnot, _⟩
  · exact hx
  · exact absurd hp hnot

theorem exists_ok {x : Except SymbolFault α} (h : FailsWhen p x) (hp : ¬p) : ∃ a, x = .ok a := by
  rcases h with ⟨hp', _⟩ | ⟨_, hx⟩
  · exact absurd hp' hp
  · exact hx

theorem not_of_ok {x : Except SymbolFault α} (h : FailsWhen p x) {a : α} (hx : x = .ok a) :
    ¬p := by
  intro hp
  rw [h.eq_error hp] at hx
  cases hx

/-- **Of two steps the first that fails decides.** -/
theorem bind {x : Except SymbolFault α} {f : α → Except SymbolFault β} (hx : FailsWhen p x)
    (hf : ∀ a, x = .ok a → FailsWhen q (f a)) : FailsWhen (p ∨ q) (x >>= f) := by
  rcases hx with ⟨hp, rfl⟩ | ⟨hp, a, rfl⟩
  · exact .inl ⟨.inl hp, rfl⟩
  · rcases hf a rfl with ⟨hq, hfa⟩ | ⟨hq, b, hfb⟩
    · exact .inl ⟨.inr hq, hfa⟩
    · exact .inr ⟨not_or.2 ⟨hp, hq⟩, b, hfb⟩

/-- A last step that cannot fail adds nothing. -/
theorem bind_ok {x : Except SymbolFault α} {f : α → Except SymbolFault β} (hx : FailsWhen p x)
    (hf : ∀ a, ∃ b, f a = .ok b) : FailsWhen p (x >>= f) := by
  refine (hx.bind (q := False) fun a _ ↦ ?_).congr (or_iff_left not_false)
  obtain ⟨b, hb⟩ := hf a
  rw [hb]
  exact .ok b

end FailsWhen

/-- A declaration whose kind may own what it owns is a symbol unless it has no name. -/
theorem failsWhen_declared {kind : SymbolKind} {name : String} {n : Node} {children : List Symbol}
    {exported : Option ExportTag} (hchildren : children = [] ∨ kind.isContainer = true) :
    FailsWhen (name = "") (declared kind name n children exported) := by
  rw [declared, Symbol.make]
  by_cases hname : name = ""
  · exact .inl ⟨hname, by rw [if_pos (by simp [hname])]⟩
  · have howns : ¬(!children.isEmpty && !kind.isContainer) = true := by
      rcases hchildren with h | h <;> simp [h]
    exact .inr ⟨hname, _, by rw [if_neg (by simpa using hname), if_neg howns]⟩

end Docwright.Outline
