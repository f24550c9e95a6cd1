import Docwright.Text.Blank
import Mathlib.Data.List.DropRight
import Mathlib.Data.List.Infix

/-!
# Taking blanks off and looking for pieces

Stripping a text whose ends are no blanks changes nothing, which is how values that stand between
other signs survive being stripped.
-/

namespace Docwright.Text

theorem stripLeft_cons {c : Char} (h : isBlank c = false) (cs : List Char) :
    stripLeft (c :: cs) = c :: cs :=
  List.dropWhile_cons_of_neg (by simp [h])

/-- **A text without blanks at its ends is stripped already.** -/
theorem strip_eq_self {cs : List Char} (hhead : ∀ c ∈ cs.head?, isBlank c = false)
    (hlast : ∀ c ∈ cs.getLast?, isBlank c = false) : strip cs = cs := by
  cases cs with
  | nil => rfl
  | cons c cs =>
    rw [strip, stripLeft_cons (hhead c rfl)]
    refine List.rdropWhile_eq_self_iff.2 fun hne ↦ ?_
    rw [hlast _ (List.getLast?_eq_some_getLast hne)]
    decide

theorem strip_space_cons (cs : List Char) : strip (' ' :: cs) = strip cs := by
  have hspace : stripLeft (' ' :: cs) = stripLeft cs :=
    List.dropWhile_cons_of_pos (by decide)
  rw [strip, hspace, ← strip]

/-- Stripping the end leaves the start, when the first character is no blank. -/
theorem stripRight_cons {c : Char} (h : isBlank c = false) (cs : List Char) :
    stripRight (c :: cs) = c :: stripRight cs := by
  rw [stripRight, dropRightWhile, List.reverse_cons, List.dropWhile_append]
  split
  · rename_i hall
    rw [List.dropWhile_cons_of_neg (by simp [h]), stripRight, dropRightWhile,
      List.isEmpty_iff.1 hall]
    rfl
  · rw [List.reverse_append]
    rfl

/-- A text whose end is stripped does not end with a blank. -/
theorem getLast?_stripRight_ne {c : Char} (h : isBlank c = true) (cs : List Char) :
    (stripRight cs).getLast? ≠ some c := by
  intro hlast
  obtain ⟨hne, hc⟩ := List.mem_getLast?_eq_getLast hlast
  exact List.rdropWhile_last_not isBlank cs hne (hc ▸ h)

theorem stripRight_prefix (cs : List Char) : stripRight cs <+: cs :=
  List.rdropWhile_prefix isBlank cs

theorem stripRight_concat {c : Char} (h : isBlank c = false) (cs : List Char) :
    stripRight (cs ++ [c]) = cs ++ [c] := by
  rw [stripRight, dropRightWhile, List.reverse_concat, List.dropWhile_cons_of_neg (by simp [h]),
    List.reverse_cons, List.reverse_reverse]

/-- Stripping the end of two texts concerns the second only, unless it has nothing but blanks. -/
theorem stripRight_append {cs ds : List Char} (h : ∃ c ∈ ds, isBlank c = false) :
    stripRight (cs ++ ds) = cs ++ stripRight ds := by
  obtain ⟨c, hc, hblank⟩ := h
  have hstop : ¬(ds.reverse.dropWhile isBlank).isEmpty = true := by
    rw [List.isEmpty_iff, List.dropWhile_eq_nil_iff]
    intro hall
    rw [hall c (List.mem_reverse.2 hc)] at hblank
    cases hblank
  rw [stripRight, dropRightWhile, List.reverse_append, List.dropWhile_append, if_neg hstop,
    List.reverse_append, List.reverse_reverse, stripRight, dropRightWhile]

theorem mem_of_mem_stripRight {c : Char} {cs : List Char} (h : c ∈ stripRight cs) : c ∈ cs := by
  rw [stripRight, dropRightWhile, List.mem_reverse] at h
  exact List.mem_reverse.1 ((List.dropWhile_suffix _).subset h)

theorem infix_dropWhile {p : Char → Bool} {part cs : List Char} (hne : part ≠ [])
    (hhead : ∀ c ∈ part.head?, p c = false) (h : part <:+: cs) : part <:+: cs.dropWhile p := by
  obtain ⟨before, after, rfl⟩ := h
  obtain ⟨c, part, rfl⟩ := List.exists_cons_of_ne_nil hne
  rw [List.append_assoc, List.dropWhile_append]
  split
  · rw [List.cons_append, List.dropWhile_cons_of_neg (by simp [hhead c rfl])]
    exact (List.prefix_append (c :: part) after).isInfix
  · exact ⟨_, after, List.append_assoc _ _ _⟩

/-- **A piece without blanks at its ends survives stripping.** -/
theorem infix_strip {part cs : List Char} (hne : part ≠ [])
    (hhead : ∀ c ∈ part.head?, isBlank c = false) (hlast : ∀ c ∈ part.getLast?, isBlank c = false)
    (h : part <:+: cs) : part <:+: strip cs := by
  have hleft : part <:+: stripLeft cs := infix_dropWhile hne hhead h
  rw [strip, stripRight, dropRightWhile, ← List.reverse_infix, List.reverse_reverse]
  refine infix_dropWhile (by simpa using hne) ?_ (List.reverse_infix.2 hleft)
  rwa [List.head?_reverse]

/-- Stripping takes nothing but blanks. -/
theorem mem_strip {c : Char} (h : isBlank c = false) {cs : List Char} (hc : c ∈ cs) :
    c ∈ strip cs := by
  rw [← List.singleton_infix_iff] at hc ⊢
  exact infix_strip (by simp) (by simpa using h) (by simpa using h) hc

/-- The field that is being read and those behind it, one character on. -/
def fieldStep (p : Char → Bool) (c : Char) (s : List Char × List (List Char)) :
    List Char × List (List Char) :=
  if p c then ([], if s.1.isEmpty then s.2 else s.1 :: s.2) else (c :: s.1, s.2)

theorem forall_mem_foldr_fieldStep (p : Char → Bool) (cs : List Char) :
    ∀ field ∈ (cs.foldr (fieldStep p) ([], [])).1 :: (cs.foldr (fieldStep p) ([], [])).2,
      ∀ c ∈ field, p c = false := by
  induction cs with
  | nil => simp
  | cons c cs ih =>
    obtain ⟨hfirst, hrest⟩ := List.forall_mem_cons.1 ih
    rw [List.foldr_cons, fieldStep]
    split
    · refine List.forall_mem_cons.2 ⟨by simp, ?_⟩
      split
      · exact hrest
      · exact ih
    · rename_i hc
      exact List.forall_mem_cons.2 ⟨List.forall_mem_cons.2 ⟨by simpa using hc, hfirst⟩, hrest⟩

/-- No field holds a character that parts them. -/
theorem not_of_mem_fieldsBy {p : Char → Bool} {cs field : List Char} (h : field ∈ fieldsBy p cs)
    {c : Char} (hc : c ∈ field) : p c = false := by
  refine forall_mem_foldr_fieldStep p cs field ?_ c hc
  change field ∈ if (cs.foldr (fieldStep p) ([], [])).1.isEmpty
    then (cs.foldr (fieldStep p) ([], [])).2
    else (cs.foldr (fieldStep p) ([], [])).1 :: (cs.foldr (fieldStep p) ([], [])).2 at h
  split at h
  · exact List.mem_cons_of_mem _ h
  · exact h

/-- The search for a piece finds exactly the texts that have it as a contiguous piece. -/
theorem occursIn_iff {part cs : List Char} : occursIn part cs = true ↔ part <:+: cs := by
  induction cs with
  | nil => rw [occursIn, List.isEmpty_iff, List.infix_nil]
  | cons c rest ih =>
    rw [occursIn, Bool.or_eq_true, ih, List.isPrefixOf_iff_prefix, List.infix_cons_iff]

end Docwright.Text
