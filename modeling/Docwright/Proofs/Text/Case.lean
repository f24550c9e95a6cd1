import Docwright.Text.Case
import Mathlib.Data.List.Basic

/-!
# Lower case is stable

A character is *small* when lower-casing leaves it alone in every context. Everything that `lower`
produces is small (`isSmall_of_mem_lower`), and a text of small characters is its own lower case
(`lower_eq_self`), so that lower-casing twice is lower-casing once.

That the produced characters are small is a fact about the table of case runs: no run contains what
a run maps to. It is checked run against run by comparing the interval that one run maps to with
the interval of the other (`CaseRun.avoids`), which `target?_eq_none_of_avoids` turns into the fact
about single code points. The capital I with a dot, which stands outside the table, is checked as a
run of its own.
-/

namespace Docwright.Text

/-- A character that lower-casing leaves alone, whatever stands around it. -/
def IsSmall (c : Char) : Prop :=
  c ≠ 'Σ' ∧ lowerChar c = [c]

instance (c : Char) : Decidable (IsSmall c) :=
  inferInstanceAs (Decidable (_ ∧ _))

/-! ### The table of runs -/

/-- All code points that lower-casing changes by table, and the one that it changes outside. -/
def capitals : List CaseRun := ⟨0x130, 0x130, 1, 0⟩ :: lowerRuns

/-- Whether a run holds none of the code points `low, low + step, …, high`: it lies to one side of
them, or both alternate and start at different parities. -/
def CaseRun.avoids (s : CaseRun) (low high step : Nat) : Bool :=
  Nat.blt high s.first || Nat.blt s.last low ||
    (Nat.beq s.step 2 && Nat.beq step 2 && Nat.beq ((low + s.first) % 2) 1)

/-- Whether a run maps to code points of characters that no run holds. -/
def CaseRun.settles (r : CaseRun) : Bool :=
  let low := Int.toNat (r.first + r.shift)
  let high := Int.toNat (r.last + r.shift)
  let step := if Nat.beq r.first r.last then 2 else r.step
  decide (0 ≤ r.first + r.shift) &&
    (Nat.blt high 0xD800 || (Nat.blt 0xDFFF low && Nat.blt high 0x110000)) &&
    capitals.all fun s ↦ s.avoids low high step

/-- The table is stable: the kernel compares every run with every other. -/
theorem settles_of_mem_lowerRuns {r : CaseRun} (h : r ∈ lowerRuns) : r.settles = true :=
  List.all_eq_true.1 (show lowerRuns.all CaseRun.settles = true by decide +kernel) r h

theorem target?_eq_none_of_avoids {s : CaseRun} {low high step n : Nat}
    (h : s.avoids low high step = true) (hlow : low ≤ n) (hhigh : n ≤ high)
    (hstep : (n - low) % step = 0) : s.target? n = none := by
  rw [CaseRun.target?, if_neg]
  rintro ⟨hfirst, hlast, hmod⟩
  simp only [CaseRun.avoids, Bool.or_eq_true, Bool.and_eq_true, Nat.blt_eq, Nat.beq_eq] at h
  rcases h with (h | h) | ⟨⟨hs, ht⟩, hparity⟩
  · omega
  · omega
  · rw [hs] at hmod
    rw [ht] at hstep
    omega

/-- What a run maps to lies between what it maps its ends to, at the distances of the run. -/
theorem bounds_of_target? {r : CaseRun} {m n : Nat} (h : r.target? m = some n)
    (hpos : 0 ≤ r.first + r.shift) :
    Int.toNat (r.first + r.shift) ≤ n ∧ n ≤ Int.toNat (r.last + r.shift) ∧
      (n - Int.toNat (r.first + r.shift)) % (if Nat.beq r.first r.last then 2 else r.step) = 0 := by
  unfold CaseRun.target? at h
  split at h
  · rename_i hm
    obtain ⟨hfirst, hlast, hmod⟩ := hm
    have hn : n = Int.toNat (m + r.shift) := (Option.some.inj h).symm
    refine ⟨by omega, by omega, ?_⟩
    have hdist : n - Int.toNat (r.first + r.shift) = m - r.first := by omega
    rw [hdist]
    by_cases hone : Nat.beq r.first r.last = true
    · rw [if_pos hone]
      have := Nat.beq_eq ▸ hone
      omega
    · rw [if_neg hone, hmod]
  · cases h

/-! ### Small characters -/

/-- An ASCII character is small unless it is a capital. -/
theorem isSmall_of_ascii {c : Char} (h : c.toNat < 128) (hc : ¬(65 ≤ c.toNat ∧ c.toNat ≤ 90)) :
    IsSmall c := by
  have hall : ∀ n < 128, ¬(65 ≤ n ∧ n ≤ 90) → (Char.ofNat n).toLower = Char.ofNat n := by decide
  have hlower : c.toLower = c := by simpa [Char.ofNat_toNat] using hall c.toNat h hc
  refine ⟨?_, by rw [lowerChar, if_pos h, hlower]⟩
  rintro rfl
  exact absurd h (by decide)

/-- What holds of the ten digits holds of every digit. -/
theorem forall_isDigit {p : Char → Prop} (h : ∀ n < 10, p (Char.ofNat (48 + n))) {c : Char}
    (hc : c.isDigit = true) : p c := by
  have hrange : 48 ≤ c.toNat ∧ c.toNat ≤ 57 := Char.isDigit_iff_toNat.1 hc
  have hp := h (c.toNat - 48) (by omega)
  rwa [show 48 + (c.toNat - 48) = c.toNat by omega, Char.ofNat_toNat] at hp

/-- A character that no run holds is small. -/
theorem isSmall_of_target?_eq_none {c : Char} (h : ∀ s ∈ capitals, s.target? c.toNat = none) :
    IsSmall c := by
  have htable : ∀ s ∈ lowerRuns, s.target? c.toNat = none := fun s hs ↦
    h s (List.mem_cons_of_mem _ hs)
  by_cases hascii : c.toNat < 128
  · refine isSmall_of_ascii hascii fun hupper ↦ ?_
    have hrun := htable ⟨65, 90, 1, 32⟩ List.mem_cons_self
    rw [CaseRun.target?, if_pos ⟨hupper.1, hupper.2, Nat.mod_one _⟩] at hrun
    cases hrun
  · refine ⟨?_, ?_⟩
    · rintro rfl
      have hrun := htable ⟨931, 939, 1, 32⟩ (List.mem_of_getElem? (i := 70) rfl)
      exact absurd hrun (by decide)
    · have hdot : ¬(c.toNat == 0x130) = true := fun hdot ↦ by
        have hrun := h ⟨0x130, 0x130, 1, 0⟩ List.mem_cons_self
        rw [beq_iff_eq.1 hdot] at hrun
        exact absurd hrun (by decide)
      rw [lowerChar, if_neg hascii, if_neg hdot, partner, List.findSome?_eq_none_iff.2 htable]

/-- **What a run maps to is small.** -/
theorem isSmall_of_target? {r : CaseRun} (hr : r ∈ lowerRuns) {m n : Nat}
    (h : r.target? m = some n) : IsSmall (Char.ofNat n) := by
  have hsettles := settles_of_mem_lowerRuns hr
  simp only [CaseRun.settles, Bool.and_eq_true, Bool.or_eq_true, decide_eq_true_eq, Nat.blt_eq,
    List.all_eq_true] at hsettles
  obtain ⟨⟨hpos, hvalid⟩, havoids⟩ := hsettles
  obtain ⟨hlow, hhigh, hstep⟩ := bounds_of_target? h hpos
  have hchar : (Char.ofNat n).toNat = n := by
    rw [Char.ofNat, dif_pos (show n.isValidChar by unfold Nat.isValidChar; omega)]
    rfl
  refine isSmall_of_target?_eq_none fun s hs ↦ ?_
  rw [hchar]
  exact target?_eq_none_of_avoids (havoids s hs) hlow hhigh hstep

theorem isSmall_of_mem_lowerChar {c d : Char} (hc : c ≠ 'Σ') (h : d ∈ lowerChar c) :
    IsSmall d := by
  unfold lowerChar at h
  split at h
  · rename_i hascii
    rw [List.mem_singleton.1 h]
    have hall : ∀ n < 128, (Char.ofNat n).toLower.toNat < 128 ∧
        ¬(65 ≤ (Char.ofNat n).toLower.toNat ∧ (Char.ofNat n).toLower.toNat ≤ 90) := by decide
    have hlower := hall c.toNat hascii
    rw [Char.ofNat_toNat] at hlower
    exact isSmall_of_ascii hlower.1 hlower.2
  · split at h
    · have hpair : IsSmall 'i' ∧ IsSmall (Char.ofNat 0x307) := by decide +kernel
      rcases List.mem_pair.1 h with rfl | rfl
      · exact hpair.1
      · exact hpair.2
    · rename_i hascii hdot
      rw [List.mem_singleton.1 h, partner]
      split
      · rename_i n hn
        obtain ⟨r, hr, htarget⟩ := List.exists_of_findSome?_eq_some hn
        exact isSmall_of_target? hr htarget
      · rename_i hnone
        refine ⟨hc, ?_⟩
        rw [lowerChar, if_neg hascii, if_neg hdot, partner, hnone]

/-! ### Whole texts -/

/-- **Lower case is small**, character by character. -/
theorem isSmall_of_mem_lowerFrom (cs : List Char) (cased : Bool) :
    ∀ c ∈ lowerFrom cased cs, IsSmall c := by
  induction cs generalizing cased with
  | nil => simp [lowerFrom]
  | cons c cs ih =>
    intro d hd
    rcases List.mem_append.1 hd with hd | hd
    · split at hd
      · have hpair : IsSmall 'ς' ∧ IsSmall 'σ' := by decide +kernel
        split at hd
        · exact List.mem_singleton.1 hd ▸ hpair.1
        · exact List.mem_singleton.1 hd ▸ hpair.2
      · rename_i hsigma
        exact isSmall_of_mem_lowerChar (by simpa using hsigma) hd
    · exact ih _ d hd

theorem isSmall_of_mem_lower {cs : List Char} {c : Char} (h : c ∈ lower cs) : IsSmall c :=
  isSmall_of_mem_lowerFrom cs false c h

/-- **A text of small characters is its own lower case.** -/
theorem lowerFrom_eq_self {cs : List Char} (h : ∀ c ∈ cs, IsSmall c) (cased : Bool) :
    lowerFrom cased cs = cs := by
  induction cs generalizing cased with
  | nil => rfl
  | cons c cs ih =>
    obtain ⟨hsigma, hlower⟩ := h c List.mem_cons_self
    rw [lowerFrom, ih fun d hd ↦ h d (List.mem_cons_of_mem _ hd), if_neg (by simpa using hsigma),
      hlower]
    rfl

theorem lower_eq_self {cs : List Char} (h : ∀ c ∈ cs, IsSmall c) : lower cs = cs :=
  lowerFrom_eq_self h false

end Docwright.Text
