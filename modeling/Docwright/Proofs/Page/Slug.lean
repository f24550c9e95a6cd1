import Docwright.Page.Slug
import Docwright.Proofs.Text.Case
import Mathlib.Data.List.Chain
import Mathlib.Data.List.DropRight

/-!
# Slugs are fixed points

`IsSlug` says without `slug` what a slug looks like: small characters that a slug keeps, no two
dashes in a row, no dash at either end. Every text has such a slug (`isSlug_slug`), and a text that
looks like a slug is its own slug (`slug_eq_self`), so that naming a page after a name that is one
already changes nothing.

Two slugs with a dash between them make one again (`IsSlug.append_dash`), which covers every name
that is derived from a slug by a word or a number at its end.
-/

namespace Docwright.Page

open Text

/-- A text that looks like a slug. -/
structure IsSlug (cs : List Char) : Prop where
  /-- Lower-casing changes nothing. -/
  small : ∀ c ∈ cs, IsSmall c
  /-- Only word characters and dashes. -/
  chars : ∀ c ∈ cs, isSlugChar c = true
  /-- No two dashes in a row. -/
  single : cs.IsChain fun a b ↦ ¬(a = '-' ∧ b = '-')
  /-- No dash at the start. -/
  head : cs.head? ≠ some '-'
  /-- No dash at the end. -/
  last : cs.getLast? ≠ some '-'

/-! ### The four steps, one at a time -/

theorem isSmall_of_mem_dashed {cs : List Char} (h : ∀ c ∈ cs, IsSmall c) :
    ∀ c ∈ dashed cs, IsSmall c := by
  intro c hc
  obtain ⟨d, hd, rfl⟩ := List.mem_map.1 hc
  split
  · exact h d hd
  · decide

theorem isSlugChar_of_mem_dashed (cs : List Char) : ∀ c ∈ dashed cs, isSlugChar c = true := by
  intro c hc
  obtain ⟨d, -, rfl⟩ := List.mem_map.1 hc
  split
  · assumption
  · decide

theorem dashed_eq_self {cs : List Char} (h : ∀ c ∈ cs, isSlugChar c = true) : dashed cs = cs :=
  (List.map_congr_left fun c hc ↦ if_pos (h c hc)).trans (List.map_id cs)

theorem squeezeDashes_cons (c : Char) (cs : List Char) :
    squeezeDashes (c :: cs) = if c == '-' && cs.head? == some '-' then squeezeDashes cs
      else c :: squeezeDashes cs :=
  foldrNext_cons _ _ _ _

theorem squeezeDashes_sublist (cs : List Char) : (squeezeDashes cs).Sublist cs := by
  induction cs with
  | nil => exact List.Sublist.refl _
  | cons c cs ih =>
    rw [squeezeDashes_cons]
    split
    · exact ih.cons c
    · exact ih.cons_cons c

theorem head?_squeezeDashes (cs : List Char) : (squeezeDashes cs).head? = cs.head? := by
  induction cs with
  | nil => rfl
  | cons c cs ih =>
    rw [squeezeDashes_cons]
    split
    · rename_i h
      simp only [Bool.and_eq_true, beq_iff_eq] at h
      rw [ih, h.2, h.1, List.head?_cons]
    · rw [List.head?_cons, List.head?_cons]

/-- After squeezing no dash stands behind a dash. -/
theorem isChain_squeezeDashes (cs : List Char) :
    (squeezeDashes cs).IsChain fun a b ↦ ¬(a = '-' ∧ b = '-') := by
  induction cs with
  | nil => exact List.isChain_nil
  | cons c cs ih =>
    rw [squeezeDashes_cons]
    split
    · exact ih
    · rename_i h
      refine ih.cons fun b hb hdash ↦ h ?_
      rw [head?_squeezeDashes, Option.mem_def] at hb
      simp [hdash.1, hb, hdash.2]

theorem squeezeDashes_eq_self {cs : List Char}
    (h : cs.IsChain fun a b ↦ ¬(a = '-' ∧ b = '-')) : squeezeDashes cs = cs := by
  induction cs with
  | nil => rfl
  | cons c cs ih =>
    obtain ⟨hnext, hrest⟩ := List.isChain_cons.1 h
    rw [squeezeDashes_cons, ih hrest, if_neg]
    simp only [Bool.and_eq_true, beq_iff_eq]
    exact fun hdash ↦ hnext '-' hdash.2 ⟨hdash.1, rfl⟩

/-- Trimming only takes characters off the ends. -/
theorem trimDashes_isInfix (cs : List Char) : trimDashes cs <:+: cs := by
  have hright := List.rdropWhile_prefix (· == '-') (cs.dropWhile (· == '-'))
  exact hright.isInfix.trans (List.dropWhile_suffix _).isInfix

theorem head?_trimDashes (cs : List Char) : (trimDashes cs).head? ≠ some '-' := by
  intro h
  obtain ⟨mid, hmid⟩ := List.head?_eq_some_iff.1 h
  obtain ⟨rest, hrest⟩ := List.rdropWhile_prefix (· == '-') (cs.dropWhile (· == '-'))
  have hhead : (cs.dropWhile (· == '-')).head? = some '-' := by
    rw [← hrest, show List.rdropWhile (· == '-') (cs.dropWhile (· == '-')) = '-' :: mid from hmid]
    rfl
  have hnot := List.head?_dropWhile_not (· == '-') cs
  rw [hhead] at hnot
  exact absurd hnot (by decide)

theorem getLast?_trimDashes (cs : List Char) : (trimDashes cs).getLast? ≠ some '-' := by
  intro h
  obtain ⟨init, hinit⟩ := List.getLast?_eq_some_iff.1 h
  have hne : List.rdropWhile (· == '-') (cs.dropWhile (· == '-')) ≠ [] := by
    rw [show List.rdropWhile (· == '-') (cs.dropWhile (· == '-')) = init ++ ['-'] from hinit]
    simp
  refine List.rdropWhile_last_not (· == '-') _ hne ?_
  rw [beq_iff_eq]
  exact Option.some.inj ((List.getLast?_eq_some_getLast hne).symm.trans h)

theorem trimDashes_eq_self {cs : List Char} (hhead : cs.head? ≠ some '-')
    (hlast : cs.getLast? ≠ some '-') : trimDashes cs = cs := by
  have hdrop : cs.dropWhile (· == '-') = cs := List.dropWhile_beq_eq_self_of_head?_ne hhead
  rw [trimDashes, hdrop]
  refine List.rdropWhile_eq_self_iff.2 fun hne hdash ↦ hlast ?_
  rw [List.getLast?_eq_some_getLast hne, beq_iff_eq.1 hdash]

/-! ### The slug of a text -/

/-- **Every slug looks like one.** -/
theorem isSlug_slug (cs : List Char) : IsSlug (slug cs) := by
  have hsub : ∀ c ∈ slug cs, c ∈ dashed (lower cs) := fun c hc ↦
    (squeezeDashes_sublist _).subset ((trimDashes_isInfix _).subset hc)
  exact {
    small := fun c hc ↦ isSmall_of_mem_dashed (fun _ hd ↦ isSmall_of_mem_lower hd) c (hsub c hc)
    chars := fun c hc ↦ isSlugChar_of_mem_dashed _ c (hsub c hc)
    single := List.IsChain.infix (isChain_squeezeDashes _) (trimDashes_isInfix _)
    head := head?_trimDashes _
    last := getLast?_trimDashes _ }

/-- **A text that looks like a slug is its own slug.** -/
theorem slug_eq_self {cs : List Char} (h : IsSlug cs) : slug cs = cs := by
  rw [slug, lower_eq_self h.small, dashed_eq_self h.chars, squeezeDashes_eq_self h.single,
    trimDashes_eq_self h.head h.last]

theorem slugOf_eq_self {s : String} (h : IsSlug s.toList) : slugOf s = s := by
  rw [slugOf, onChars, slug_eq_self h, String.ofList_toList]

theorem isSlug_slugOf (s : String) : IsSlug (slugOf s).toList := by
  rw [slugOf, onChars, String.toList_ofList]
  exact isSlug_slug _

/-! ### Slugs made of slugs -/

/-- **Two slugs with a dash between them make a slug.** -/
theorem IsSlug.append_dash {a b : List Char} (ha : IsSlug a) (hb : IsSlug b) (hane : a ≠ [])
    (hbne : b ≠ []) : IsSlug (a ++ '-' :: b) := by
  refine ⟨fun c hc ↦ ?_, fun c hc ↦ ?_, ?_, ?_, ?_⟩
  · rcases List.mem_append.1 hc with hc | hc
    · exact ha.small c hc
    · rcases List.mem_cons.1 hc with rfl | hc
      · decide
      · exact hb.small c hc
  · rcases List.mem_append.1 hc with hc | hc
    · exact ha.chars c hc
    · rcases List.mem_cons.1 hc with rfl | hc
      · decide
      · exact hb.chars c hc
  · have hdash : (('-' : Char) :: b).IsChain fun a b ↦ ¬(a = '-' ∧ b = '-') :=
      hb.single.cons fun c hc hcc ↦ hb.head (Option.mem_def.1 hc ▸ hcc.2 ▸ rfl)
    refine ha.single.append hdash fun c hc d _ hcd ↦ ha.last ?_
    rw [Option.mem_def.1 hc, hcd.1]
  · rw [List.head?_append_of_ne_nil _ hane]
    exact ha.head
  · rw [List.getLast?_append_of_ne_nil _ (List.cons_ne_nil _ _), List.getLast?_cons_of_ne_nil hbne]
    exact hb.last

/-- A word of small Latin letters is a slug. -/
theorem isSlug_of_letters {cs : List Char}
    (hletters : cs.all (fun c ↦ 97 ≤ c.toNat && c.toNat ≤ 122) = true) : IsSlug cs := by
  have h : ∀ c ∈ cs, 97 ≤ c.toNat ∧ c.toNat ≤ 122 := by simpa using hletters
  have hletter : ∀ n < 128, 97 ≤ n ∧ n ≤ 122 → isSlugChar (Char.ofNat n) = true := by decide
  have hdash : '-' ∉ cs := fun hmem ↦ absurd (h _ hmem) (by decide)
  refine ⟨fun c hc ↦ isSmall_of_ascii (by have := h c hc; omega) (by have := h c hc; omega),
    fun c hc ↦ ?_, ?_, fun hhead ↦ hdash (List.mem_of_mem_head? hhead),
    fun hlast ↦ hdash (List.mem_of_getLast? hlast)⟩
  · have hchar := hletter c.toNat (by have := h c hc; omega) (h c hc)
    rwa [Char.ofNat_toNat] at hchar
  · exact List.Pairwise.isChain (List.pairwise_of_forall_mem_list
      fun c hc _ _ hdashes ↦ hdash (hdashes.1 ▸ hc))

/-- A decimal digit may stand in a slug. -/
theorem isSmall_and_isSlugChar_of_isDigit {c : Char} (h : c.isDigit = true) :
    IsSmall c ∧ isSlugChar c = true ∧ c ≠ '-' := by
  have hrange : 48 ≤ c.toNat ∧ c.toNat ≤ 57 := Char.isDigit_iff_toNat.1 h
  refine ⟨isSmall_of_ascii (by omega) (by omega), ?_⟩
  exact forall_isDigit (p := fun d ↦ isSlugChar d = true ∧ d ≠ '-') (by decide) h

/-- The digits of a number are a slug. -/
theorem isSlug_toDigits (n : Nat) : IsSlug (Nat.toDigits 10 n) := by
  have hdigit : ∀ c ∈ Nat.toDigits 10 n, IsSmall c ∧ isSlugChar c = true ∧ c ≠ '-' :=
    fun c hc ↦ isSmall_and_isSlugChar_of_isDigit
      (Nat.isDigit_of_mem_toDigits (by decide) (by decide) hc)
  refine ⟨fun c hc ↦ (hdigit c hc).1, fun c hc ↦ (hdigit c hc).2.1, ?_, fun h ↦ ?_, fun h ↦ ?_⟩
  · refine List.Pairwise.isChain (List.pairwise_of_forall_mem_list fun c hc d _ hdash ↦ ?_)
    exact (hdigit c hc).2.2 hdash.1
  · exact (hdigit '-' (List.mem_of_mem_head? h)).2.2 rfl
  · exact (hdigit '-' (List.mem_of_getLast? h)).2.2 rfl

theorem IsSlug.not_mem {cs : List Char} (h : IsSlug cs) {c : Char} (hc : isSlugChar c = false) :
    c ∉ cs := fun hmem ↦ by
  rw [h.chars c hmem] at hc
  cases hc

end Docwright.Page
