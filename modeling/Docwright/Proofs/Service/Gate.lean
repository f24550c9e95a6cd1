import Docwright.Service.Gate
import Mathlib.Algebra.Order.Ring.Rat
import Mathlib.Data.List.Chain
import Mathlib.Data.Nat.Cast.Order.Ring
import Mathlib.Logic.Relation
import Mathlib.Order.Bounds.Defs
import Mathlib.Tactic.NormNum

/-!
# The gate keeps callers apart

The gate is locked while it is asked, so callers reserve their slots one after the other; but they
sleep outside the lock, so others may ask while they are asleep, and they wake in any order. A
`Crowd` is the gate with everyone who has asked so far and everyone who is still asleep, and
`Crowd.Step` is one thing that happens. What is reserved does not depend on who is asleep: the gate
remembers the slot of the last caller plus the cooldown and nothing else (`Crowd.Fair`), each caller
gets the least time that is left to it, and slots are as far apart as there are callers between them
(`fair_of_run`).

Times are exact here: the numbers of an ordered ring, such as the rationals or the reals.
-/

namespace Docwright.Service

variable {τ : Type} [Ring τ] [LinearOrder τ]

/-- Times that are exact numbers. Every power of two can be expressed. -/
abbrev Duration.exact (τ : Type) [Ring τ] [LinearOrder τ] : Duration τ where
  decidableLT := inferInstance
  twoPow? n := some (2 ^ n)

/-- What a caller is told. -/
structure Grant (τ : Type) where
  /-- When the caller asked. -/
  asked : τ
  /-- How long it has to wait. -/
  delay : τ

/-- The slot of a caller: when its wait is over. -/
def Grant.slot (g : Grant τ) : τ := g.asked + g.delay

namespace Gate

/-- What is told to a caller that asks at an exact time, and the gate after it. -/
def serve (g : Gate τ) (now : τ) : Grant τ × Gate τ :=
  let (delay, g) := @wait τ (.exact τ) g now
  (⟨now, delay⟩, g)

theorem later_eq_max (a b : τ) : @Duration.later τ (.exact τ) a b = max a b :=
  (max_def_lt a b).symm

/-- The slot is the present moment, or the free one if that is later. -/
theorem slot_serve (g : Gate τ) (now : τ) :
    (g.serve now).1.slot = g.nextSlot.elim now (max now) := by
  rw [Grant.slot, serve]
  simp only [wait, slotAt]
  rw [add_sub_cancel]
  cases g.nextSlot with
  | none => rfl
  | some next => exact later_eq_max now next

/-- After a caller the next slot is its own plus the cooldown. -/
theorem serve_snd (g : Gate τ) (now : τ) :
    (g.serve now).2 = ⟨g.cooldown, some ((g.serve now).1.slot + g.cooldown)⟩ := by
  rw [Grant.slot, serve]
  simp only [wait]
  rw [add_sub_cancel]

/-- **The slot is the least time that is left**: not before the caller asks, and not before the slot
that is free. -/
theorem isLeast_slot_serve (g : Gate τ) (now : τ) :
    IsLeast {t | now ≤ t ∧ ∀ free ∈ g.nextSlot, free ≤ t} (g.serve now).1.slot := by
  rw [slot_serve]
  cases g.nextSlot with
  | none => exact ⟨⟨le_rfl, by simp⟩, fun t ht ↦ ht.1⟩
  | some next =>
    exact ⟨⟨le_max_left now next, by simp⟩, fun t ht ↦ max_le ht.1 (ht.2 next rfl)⟩

end Gate

/-! ### Callers at the gate -/

/-- The gate and its callers. -/
structure Crowd (τ : Type) where
  gate : Gate τ
  /-- What callers were told, in the order in which they took the lock. -/
  grants : List (Grant τ)
  /-- What those were told who are still asleep. -/
  asleep : List (Grant τ)

namespace Crowd

/-- Nobody has come yet. -/
def start (g : Gate τ) : Crowd τ := ⟨g, [], []⟩

/-- A caller takes the lock, reads the clock and is told how long to wait. It falls asleep unless it
may go on at once. -/
def ask (c : Crowd τ) (now : τ) : Crowd τ :=
  let told := (c.gate.serve now).1
  { gate := (c.gate.serve now).2
    grants := c.grants ++ [told]
    asleep := if 0 < told.delay then c.asleep ++ [told] else c.asleep }

/-- One thing that happens at the gate. Nothing is required of the clock, nor of the order in which
sleepers wake, nor of when they do. -/
inductive Step : Crowd τ → Crowd τ → Prop
  /-- A caller asks. -/
  | ask (c : Crowd τ) (now : τ) : Step c (c.ask now)
  /-- A sleeper wakes. -/
  | wake {gate : Gate τ} {grants before after : List (Grant τ)} (sleeper : Grant τ) :
    Step ⟨gate, grants, before ++ sleeper :: after⟩ ⟨gate, grants, before ++ after⟩

/-- The second caller gets the least time that the first leaves to it. -/
def Follows (cooldown : τ) (first second : Grant τ) : Prop :=
  IsLeast {t | second.asked ≤ t ∧ first.slot + cooldown ≤ t} second.slot

/-- Callers have been served fairly by the gate that was `g` before they came: none is told a
negative time, each gets the least time that the one before leaves to it, and the gate remembers
what the last one leaves. -/
structure Fair (g : Gate τ) (c : Crowd τ) : Prop where
  cooldown : c.gate.cooldown = g.cooldown
  nextSlot : c.gate.nextSlot
    = c.grants.getLast?.elim g.nextSlot fun last ↦ some (last.slot + g.cooldown)
  nonneg : ∀ told ∈ c.grants, 0 ≤ told.delay
  first : ∀ told ∈ c.grants.head?,
    IsLeast {t | told.asked ≤ t ∧ ∀ free ∈ g.nextSlot, free ≤ t} told.slot
  chain : c.grants.IsChain (Follows g.cooldown)
  asleep : ∀ told ∈ c.asleep, told ∈ c.grants ∧ 0 < told.delay

variable {g : Gate τ} {c c' : Crowd τ}

theorem Fair.start (g : Gate τ) : Fair g (start g) where
  cooldown := rfl
  nextSlot := rfl
  nonneg := by simp [Crowd.start]
  first := by simp [Crowd.start]
  chain := .nil
  asleep := by simp [Crowd.start]

/-- What the last caller so far leaves to the next one. -/
theorem Fair.least (h : Fair g c) (now : τ) :
    ∀ last ∈ c.grants.getLast?, Follows g.cooldown last (c.gate.serve now).1 := by
  intro last hlast
  have hleast := c.gate.isLeast_slot_serve now
  rw [h.nextSlot, Option.mem_def.1 hlast] at hleast
  simpa [Follows, Gate.serve] using hleast

variable [IsStrictOrderedRing τ]

/-- **A caller that asks next is served fairly.** -/
theorem Fair.ask (h : Fair g c) (now : τ) : Fair g (c.ask now) where
  cooldown := by simp only [Crowd.ask, Gate.serve_snd, h.cooldown]
  nextSlot := by simp [Crowd.ask, Gate.serve_snd, h.cooldown]
  nonneg := by
    refine List.forall_mem_append.2 ⟨h.nonneg, List.forall_mem_singleton.2 ?_⟩
    have hslot : now ≤ now + (c.gate.serve now).1.delay := (c.gate.isLeast_slot_serve now).1.1
    exact le_add_iff_nonneg_right now |>.1 hslot
  first told htold := by
    simp only [Crowd.ask] at htold
    cases hgrants : c.grants with
    | nil =>
      have hleast := c.gate.isLeast_slot_serve now
      have hfree := h.nextSlot
      rw [hgrants] at hfree htold
      simp only [List.nil_append, List.head?_cons, Option.mem_some] at htold
      rw [← htold]
      rw [hfree] at hleast
      exact hleast
    | cons first rest =>
      refine h.first told ?_
      rw [hgrants] at htold ⊢
      exact htold
  chain := h.chain.append (.singleton _) fun last hlast told htold ↦ by
    simp only [List.head?_cons, Option.mem_some] at htold
    rw [← htold]
    exact h.least now last hlast
  asleep told htold := by
    simp only [Crowd.ask] at htold ⊢
    split at htold
    · rename_i hdelay
      rcases List.mem_append.1 htold with htold | htold
      · exact ⟨List.mem_append_left _ (h.asleep told htold).1, (h.asleep told htold).2⟩
      · rw [List.mem_singleton.1 htold]
        exact ⟨by simp, hdelay⟩
    · exact ⟨List.mem_append_left _ (h.asleep told htold).1, (h.asleep told htold).2⟩

/-- **Whatever happens next, callers stay served fairly.** -/
theorem Fair.step (h : Fair g c) (hstep : Step c c') : Fair g c' := by
  cases hstep with
  | ask now => exact h.ask _
  | wake sleeper =>
    refine ⟨h.cooldown, h.nextSlot, h.nonneg, h.first, h.chain, fun told htold ↦ h.asleep told ?_⟩
    rcases List.mem_append.1 htold with htold | htold
    · exact List.mem_append_left _ htold
    · exact List.mem_append_right _ (List.mem_cons_of_mem _ htold)

/-- **However callers and sleepers interleave, all are served fairly.** -/
theorem Fair.run (h : Relation.ReflTransGen Step (Crowd.start g) c) : Fair g c := by
  induction h with
  | refl => exact .start g
  | tail _ hstep ih => exact ih.step hstep

/-- **Slots are as far apart as there are callers between them.** -/
theorem Fair.spaced (h : Fair g c) (i n : Nat) (hn : i + n < c.grants.length) :
    c.grants[i].slot + n * g.cooldown ≤ c.grants[i + n].slot := by
  induction n with
  | zero => simp
  | succ n ih =>
    have hnext := (List.isChain_iff_getElem.1 h.chain (i + n) (by omega)).1.2
    calc c.grants[i].slot + (n + 1 : Nat) * g.cooldown
        = (c.grants[i].slot + n * g.cooldown) + g.cooldown := by
          rw [Nat.cast_succ, add_mul, one_mul, add_assoc]
      _ ≤ c.grants[i + n].slot + g.cooldown := by gcongr; exact ih (by omega)
      _ ≤ c.grants[i + n + 1].slot := hnext

end Crowd

/-- **The gate keeps callers apart, and nobody waits longer than needed**, in whatever order callers
ask and whoever is asleep meanwhile: nobody is told a negative time; the first caller gets the least
time that is not before it asks, nor before what was free when it came; each later one gets the
least time that is not before it asks, nor closer to the slot of the one before it than the
cooldown; so slots are granted in the order of asking, and any two are at least as many cooldowns
apart as there are steps between their callers. -/
theorem fair_of_run [IsStrictOrderedRing τ] {g : Gate τ} (hcooldown : 0 ≤ g.cooldown) {c : Crowd τ}
    (hrun : Relation.ReflTransGen Crowd.Step (Crowd.start g) c) :
    (∀ told ∈ c.grants, 0 ≤ told.delay) ∧
      (∀ told ∈ c.grants.head?,
        IsLeast {t | told.asked ≤ t ∧ ∀ free ∈ g.nextSlot, free ≤ t} told.slot) ∧
      (∀ i (_ : i + 1 < c.grants.length),
        IsLeast {t | c.grants[i + 1].asked ≤ t ∧ c.grants[i].slot + g.cooldown ≤ t}
          c.grants[i + 1].slot) ∧
      (c.grants.Pairwise fun first second ↦ first.slot ≤ second.slot) ∧
      ∀ i j (_ : i < j) (_ : j < c.grants.length),
        c.grants[i].slot + (j - i : Nat) * g.cooldown ≤ c.grants[j].slot := by
  have hfair := Crowd.Fair.run hrun
  have hspaced : ∀ i j (_ : i < j) (_ : j < c.grants.length),
      c.grants[i].slot + (j - i : Nat) * g.cooldown ≤ c.grants[j].slot := fun i j hij hj ↦ by
    obtain ⟨n, rfl⟩ := Nat.exists_eq_add_of_le hij.le
    rw [Nat.add_sub_cancel_left]
    exact hfair.spaced i n hj
  refine ⟨hfair.nonneg, hfair.first, List.isChain_iff_getElem.1 hfair.chain,
    List.pairwise_iff_getElem.2 fun i j hi hj hij ↦ ?_, hspaced⟩
  have hgap : 0 ≤ ((j - i : Nat) : τ) * g.cooldown := mul_nonneg (Nat.cast_nonneg _) hcooldown
  exact (le_add_of_nonneg_right hgap).trans (hspaced i j hij hj)

/-- Three callers at a gate with a cooldown of two: two ask at once, a third one while the second is
asleep. -/
def trio : List (Grant ℚ) := [⟨100, 0⟩, ⟨100, 2⟩, ⟨101, 3⟩]

/-- The second caller wakes up while the third one is asleep. -/
theorem run_trio : Relation.ReflTransGen Crowd.Step (Crowd.start ⟨(2 : ℚ), none⟩)
    ⟨⟨2, some 106⟩, trio, [⟨101, 3⟩]⟩ := by
  have hasked : (((Crowd.start ⟨(2 : ℚ), none⟩).ask 100).ask 100).ask 101
      = ⟨⟨2, some 106⟩, trio, [] ++ ⟨100, 2⟩ :: [⟨101, 3⟩]⟩ := by
    norm_num [Crowd.ask, Crowd.start, Gate.serve, Gate.wait, Gate.slotAt, Gate.later_eq_max, trio]
  have hwoken : Crowd.Step ⟨⟨(2 : ℚ), some 106⟩, trio, [] ++ ⟨100, 2⟩ :: [⟨101, 3⟩]⟩
      ⟨⟨2, some 106⟩, trio, [] ++ [⟨101, 3⟩]⟩ := .wake ⟨100, 2⟩
  rw [← hasked] at hwoken
  exact (((Relation.ReflTransGen.single (.ask _ 100)).tail (.ask _ 100)).tail (.ask _ 101)).tail
    hwoken

theorem fair_of_run_trio :
    (0 : ℚ) ≤ 2 ∧ Relation.ReflTransGen Crowd.Step (Crowd.start ⟨(2 : ℚ), none⟩)
        ⟨⟨2, some 106⟩, trio, [⟨101, 3⟩]⟩ ∧
      (∀ told ∈ trio, 0 ≤ told.delay) ∧
      (∀ told ∈ trio.head?,
        IsLeast {t | told.asked ≤ t ∧ ∀ free ∈ (none : Option ℚ), free ≤ t} told.slot) ∧
      (∀ i (_ : i + 1 < trio.length),
        IsLeast {t | trio[i + 1].asked ≤ t ∧ trio[i].slot + 2 ≤ t} trio[i + 1].slot) ∧
      (trio.Pairwise fun first second ↦ first.slot ≤ second.slot) ∧
      ∀ i j (_ : i < j) (_ : j < trio.length),
        trio[i].slot + (j - i : Nat) * 2 ≤ trio[j].slot :=
  ⟨by decide, run_trio, fair_of_run (g := ⟨2, none⟩) (by decide) run_trio⟩

end Docwright.Service
