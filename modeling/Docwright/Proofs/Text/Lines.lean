import Docwright.Text.Lines
import Mathlib.Data.List.Basic

/-!
# Cutting and joining lines

The cut at line feeds is the library's `List.splitOn`, whose inverse laws are used by name. What is
proved here is how the other two cuts act on texts that are put together: carriage returns are
unified piece by piece as long as no piece ends in the middle of a pair
(`unifyNewlines_append_of_getLast?`), and the text that `oneLine` makes holds no line boundary at
all (`isLineBreak_of_mem_oneLine`), so that it may stand on a line of any format.
-/

namespace Docwright.Text

/-! ### Cutting at one character -/

theorem consFirst_eq_modifyHead {c : Char} {parts : List (List Char)} (h : parts ≠ []) :
    consFirst c parts = parts.modifyHead (c :: ·) := by
  cases parts with
  | nil => exact absurd rfl h
  | cons part parts => rfl

/-- The cut at one character is the one of the library. -/
theorem splitOn_eq (sep : Char) (cs : List Char) : splitOn sep cs = cs.splitOn sep := by
  induction cs with
  | nil => rw [List.splitOn_nil, splitOn, List.foldr_nil]
  | cons c cs ih =>
    rw [List.splitOn_cons_eq_if_modifyHead, splitOn, List.foldr_cons, ← splitOn, ih]
    by_cases h : (c == sep) = true
    · rw [if_pos h, if_pos h]
    · rw [if_neg h, if_neg h, consFirst_eq_modifyHead (List.splitOn_ne_nil sep cs)]

theorem splitOn_append_cons {sep : Char} {line : List Char} (h : sep ∉ line) (rest : List Char) :
    splitOn sep (line ++ sep :: rest) = line :: splitOn sep rest := by
  rw [splitOn_eq, List.splitOn_append_cons_self_of_not_mem h, ← splitOn_eq]

/-- The parts of two texts with the separator between them. -/
theorem splitOn_append (sep : Char) (cs rest : List Char) :
    splitOn sep (cs ++ sep :: rest) = splitOn sep cs ++ splitOn sep rest := by
  rw [splitOn_eq, splitOn_eq, splitOn_eq, List.splitOn_append_cons_self]

/-- Lines that are each closed by the separator are found again, whatever follows them. -/
theorem splitOn_flatMap {sep : Char} {parts : List (List Char)} (h : ∀ part ∈ parts, sep ∉ part)
    (rest : List Char) :
    splitOn sep (parts.flatMap (· ++ [sep]) ++ rest) = parts ++ splitOn sep rest := by
  induction parts with
  | nil => rfl
  | cons part parts ih =>
    obtain ⟨hpart, hparts⟩ := List.forall_mem_cons.1 h
    rw [List.flatMap_cons, List.append_assoc, List.append_assoc, List.singleton_append,
      splitOn_append_cons hpart, ih hparts, List.cons_append]

theorem joinWith_splitOn (sep : Char) (cs : List Char) : joinWith [sep] (splitOn sep cs) = cs := by
  rw [joinWith, splitOn_eq, List.intercalate_splitOn]

theorem joinWith_cons_cons (sep : List Char) (c : Char) (part : List Char)
    (parts : List (List Char)) :
    joinWith sep ((c :: part) :: parts) = c :: joinWith sep (part :: parts) := by
  cases parts with
  | nil => simp [joinWith]
  | cons next parts => simp [joinWith, List.intercalate_cons_cons]

/-- A property of all characters of the parts and of the separator holds throughout the text that
is joined from them. -/
theorem forall_mem_joinWith {p : Char → Prop} {sep : List Char} {parts : List (List Char)}
    (hsep : ∀ c ∈ sep, p c) (hparts : ∀ part ∈ parts, ∀ c ∈ part, p c) :
    ∀ c ∈ joinWith sep parts, p c := by
  unfold joinWith
  induction parts with
  | nil => simp
  | cons part parts ih =>
    have hrest := ih fun q hq ↦ hparts q (List.mem_cons_of_mem _ hq)
    cases parts with
    | nil => simpa using hparts
    | cons next parts =>
      intro c hc
      rw [List.intercalate_cons_cons] at hc
      rcases List.mem_append.1 hc with hc | hc
      · rcases List.mem_append.1 hc with hc | hc
        · exact hparts part List.mem_cons_self c hc
        · exact hsep c hc
      · exact hrest c hc

theorem infix_joinWith {sep : List Char} {parts : List (List Char)} {part : List Char}
    (h : part ∈ parts) : part <:+: joinWith sep parts := by
  unfold joinWith
  induction parts with
  | nil => cases h
  | cons first parts ih =>
    cases parts with
    | nil => simp [List.mem_singleton.1 h]
    | cons next parts =>
      rw [List.intercalate_cons_cons]
      rcases List.mem_cons.1 h with rfl | h
      · rw [List.append_assoc]
        exact (List.prefix_append _ _).isInfix
      · exact (ih h).trans (List.suffix_append _ _).isInfix

theorem suffix_joinWith_concat (sep : List Char) (parts : List (List Char)) (part : List Char) :
    part <:+ joinWith sep (parts ++ [part]) := by
  unfold joinWith
  induction parts with
  | nil => simp
  | cons first parts ih =>
    have hne : parts ++ [part] ≠ [] := List.append_ne_nil_of_right_ne_nil _ (by simp)
    obtain ⟨next, rest, hrest⟩ := List.exists_cons_of_ne_nil hne
    rw [List.cons_append, hrest, List.intercalate_cons_cons, ← hrest]
    exact ih.trans (List.suffix_append _ _)

/-- The parts between separators hold no other characters than the text. -/
theorem mem_of_mem_splitOn {sep : Char} {cs part : List Char} (h : part ∈ splitOn sep cs) {c : Char}
    (hc : c ∈ part) : c ∈ cs := by
  rw [← joinWith_splitOn sep cs]
  exact (infix_joinWith h).subset hc

/-- Parts that do not hold the separator are found again when they have been joined. -/
theorem splitOn_joinWith {sep : Char} {parts : List (List Char)} (h : ∀ part ∈ parts, sep ∉ part)
    (hne : parts ≠ []) : splitOn sep (joinWith [sep] parts) = parts := by
  rw [splitOn_eq, joinWith, List.splitOn_intercalate sep h hne]

/-- Parts that are not empty and do not hold the separator are told apart by the joined text. -/
theorem joinWith_inj {sep : Char} {parts parts' : List (List Char)}
    (h : ∀ part ∈ parts, part ≠ [] ∧ sep ∉ part) (h' : ∀ part ∈ parts', part ≠ [] ∧ sep ∉ part) :
    joinWith [sep] parts = joinWith [sep] parts' ↔ parts = parts' := by
  have hempty {parts : List (List Char)} (h : ∀ part ∈ parts, part ≠ [] ∧ sep ∉ part)
      (hjoined : joinWith [sep] parts = []) : parts = [] := by
    refine List.eq_nil_iff_forall_not_mem.2 fun part hpart ↦ (h part hpart).1 ?_
    exact List.infix_nil.1 (hjoined ▸ infix_joinWith hpart)
  refine ⟨fun heq ↦ ?_, fun heq ↦ heq ▸ rfl⟩
  by_cases hnil : parts = []
  · rw [hnil] at heq
    rw [hnil, hempty h' heq.symm]
  · have hnil' : parts' ≠ [] := by
      rintro rfl
      exact hnil (hempty h heq)
    rw [← splitOn_joinWith (fun part hpart ↦ (h part hpart).2) hnil, heq,
      splitOn_joinWith (fun part hpart ↦ (h' part hpart).2) hnil']

/-! ### Carriage returns -/

theorem pairsToNewline_cons (c : Char) (cs : List Char) :
    pairsToNewline (c :: cs) = if c == '\r' && cs.head? == some '\n' then pairsToNewline cs
      else c :: pairsToNewline cs :=
  foldrNext_cons _ _ _ _

/-- What follows a text is treated on its own, unless the text ends in the middle of a pair. -/
theorem pairsToNewline_append_of_getLast? {cs : List Char} (h : cs.getLast? ≠ some '\r')
    (rest : List Char) :
    pairsToNewline (cs ++ rest) = pairsToNewline cs ++ pairsToNewline rest := by
  induction cs with
  | nil => rfl
  | cons c cs ih =>
    rw [List.cons_append, pairsToNewline_cons, pairsToNewline_cons]
    cases cs with
    | nil =>
      have hc : (c == '\r') = false := by simpa using h
      simp [hc, pairsToNewline]
    | cons d cs =>
      rw [ih (by rwa [List.getLast?_cons_cons] at h)]
      by_cases hpair : (c == '\r' && d == '\n') = true
      · simp [hpair]
      · simp [hpair]

theorem pairsToNewline_eq_self {cs : List Char} (h : '\r' ∉ cs) : pairsToNewline cs = cs := by
  induction cs with
  | nil => rfl
  | cons c cs ih =>
    have hc : ¬(c = '\r') := fun hc ↦ h (hc ▸ List.mem_cons_self)
    rw [pairsToNewline_cons, ih fun hr ↦ h (List.mem_cons_of_mem _ hr)]
    simp [hc]

theorem pairsToNewline_append {cs : List Char} (h : '\r' ∉ cs) (rest : List Char) :
    pairsToNewline (cs ++ rest) = cs ++ pairsToNewline rest := by
  rw [pairsToNewline_append_of_getLast? fun hlast ↦ h (List.mem_of_getLast? hlast),
    pairsToNewline_eq_self h]

/-- **Unifying pairs replaces each of them by a line feed**: the parts of the text between them are
joined by line feeds. -/
theorem exists_pairsToNewline_eq (cs : List Char) :
    ∃ parts, cs = joinWith ['\r', '\n'] parts ∧ (∀ part ∈ parts, ¬['\r', '\n'] <:+: part) ∧
      pairsToNewline cs = joinWith ['\n'] parts := by
  suffices h : ∃ first parts, cs = joinWith ['\r', '\n'] (first :: parts) ∧
      (∀ part ∈ first :: parts, ¬['\r', '\n'] <:+: part) ∧
      pairsToNewline cs = joinWith ['\n'] (first :: parts) by
    obtain ⟨first, parts, h⟩ := h
    exact ⟨first :: parts, h⟩
  induction cs with
  | nil => exact ⟨[], [], rfl, by simp, rfl⟩
  | cons c cs ih =>
    obtain ⟨first, parts, hcs, hparts, hunified⟩ := ih
    obtain ⟨hfirst, hrest⟩ := List.forall_mem_cons.1 hparts
    rw [pairsToNewline_cons]
    by_cases hpair : c = '\r' ∧ cs.head? = some '\n'
    case pos =>
      -- the line feed is the first character of the first part, and the pair ends a part before it
      obtain ⟨rfl, hhead⟩ := hpair
      obtain ⟨part, rfl⟩ : ∃ part, first = '\n' :: part := by
        cases first with
        | nil =>
          cases parts with
          | nil => simp [hcs, joinWith] at hhead
          | cons next parts => simp [hcs, joinWith, List.intercalate_cons_cons] at hhead
        | cons d part =>
          rw [hcs, joinWith_cons_cons, List.head?_cons, Option.some_inj] at hhead
          exact ⟨part, by rw [hhead]⟩
      rw [joinWith_cons_cons] at hcs hunified
      refine ⟨[], part :: parts, ?_, ?_, ?_⟩
      · rw [hcs]
        rfl
      · have hpart : ¬['\r', '\n'] <:+: part := fun h ↦
          hfirst (h.trans (List.suffix_cons _ _).isInfix)
        exact List.forall_mem_cons.2 ⟨by simp, List.forall_mem_cons.2 ⟨hpart, hrest⟩⟩
      · rw [if_pos (by simp [hhead]), hunified]
        rfl
    case neg =>
      refine ⟨c :: first, parts, ?_, List.forall_mem_cons.2 ⟨fun h ↦ ?_, hrest⟩, ?_⟩
      · rw [joinWith_cons_cons, ← hcs]
      · rcases List.infix_cons_iff.1 h with hprefix | hinfix
        · obtain ⟨rfl, hnext⟩ := List.cons_prefix_cons.1 hprefix
          obtain ⟨part, rfl⟩ := hnext
          exact hpair ⟨rfl, by rw [hcs, List.singleton_append, joinWith_cons_cons]; rfl⟩
        · exact hfirst hinfix
      · rw [if_neg (by simpa using hpair), hunified, joinWith_cons_cons]

theorem mem_of_mem_pairsToNewline {c : Char} {cs : List Char} (h : c ∈ pairsToNewline cs) :
    c ∈ cs := by
  induction cs with
  | nil => exact h
  | cons d cs ih =>
    rw [pairsToNewline_cons] at h
    split at h
    · exact List.mem_cons_of_mem _ (ih h)
    · rcases List.mem_cons.1 h with rfl | h
      · exact List.mem_cons_self
      · exact List.mem_cons_of_mem _ (ih h)

theorem map_newline_eq_self {cs : List Char} (h : '\r' ∉ cs) :
    (cs.map fun c ↦ if c == '\r' then '\n' else c) = cs := by
  refine (List.map_congr_left fun c hc ↦ ?_).trans (List.map_id cs)
  rw [if_neg]
  · rfl
  · simpa using fun hr : c = '\r' ↦ h (hr ▸ hc)

/-- What follows a text is unified on its own, unless the text ends in the middle of a pair. -/
theorem unifyNewlines_append_of_getLast? {cs : List Char} (h : cs.getLast? ≠ some '\r')
    (rest : List Char) : unifyNewlines (cs ++ rest) = unifyNewlines cs ++ unifyNewlines rest := by
  rw [unifyNewlines, pairsToNewline_append_of_getLast? h, List.map_append, ← unifyNewlines,
    ← unifyNewlines]

theorem unifyNewlines_eq_self {cs : List Char} (h : '\r' ∉ cs) : unifyNewlines cs = cs := by
  rw [unifyNewlines, pairsToNewline_eq_self h, map_newline_eq_self h]

theorem unifyNewlines_append {cs : List Char} (h : '\r' ∉ cs) (rest : List Char) :
    unifyNewlines (cs ++ rest) = cs ++ unifyNewlines rest := by
  rw [unifyNewlines_append_of_getLast? fun hlast ↦ h (List.mem_of_getLast? hlast),
    unifyNewlines_eq_self h]

/-- **The lines of joined parts are the lines of each part**, as long as none of them ends in the
middle of a pair. -/
theorem splitOn_unifyNewlines_joinWith {parts : List (List Char)} (hne : parts ≠ [])
    (h : ∀ part ∈ parts, part.getLast? ≠ some '\r') :
    splitOn '\n' (unifyNewlines (joinWith ['\n'] parts))
      = parts.flatMap fun part ↦ splitOn '\n' (unifyNewlines part) := by
  induction parts with
  | nil => exact absurd rfl hne
  | cons part parts ih =>
    obtain ⟨hpart, hparts⟩ := List.forall_mem_cons.1 h
    cases parts with
    | nil => simp [joinWith]
    | cons next parts =>
      have hbreak : unifyNewlines ('\n' :: joinWith ['\n'] (next :: parts))
          = '\n' :: unifyNewlines (joinWith ['\n'] (next :: parts)) :=
        @unifyNewlines_append ['\n'] (by decide) _
      rw [joinWith, List.intercalate_cons_cons, ← joinWith, List.append_assoc,
        unifyNewlines_append_of_getLast? hpart, List.singleton_append, hbreak, splitOn_append,
        ih (List.cons_ne_nil _ _) hparts]
      simp only [List.flatMap_cons]

theorem not_mem_unifyNewlines (cs : List Char) : '\r' ∉ unifyNewlines cs := by
  intro h
  obtain ⟨c, -, hc⟩ := List.mem_map.1 h
  split at hc
  · exact absurd hc (by decide)
  · simp_all

/-! ### One line -/

theorem lines_cons (c : Char) (cs : List Char) :
    lines (c :: cs) = if c == '\r' && cs.head? == some '\n' then lines cs
      else if isLineBreak c then [] :: lines cs else consFirst c (lines cs) :=
  foldrNext_cons _ _ _ _

theorem forall_mem_consFirst {p : Char → Prop} {c : Char} {parts : List (List Char)} (hc : p c)
    (h : ∀ part ∈ parts, ∀ d ∈ part, p d) : ∀ part ∈ consFirst c parts, ∀ d ∈ part, p d := by
  cases parts with
  | nil => simpa [consFirst] using hc
  | cons part parts =>
    intro q hq d hd
    rcases List.mem_cons.1 hq with rfl | hq
    · rcases List.mem_cons.1 hd with rfl | hd
      · exact hc
      · exact h part List.mem_cons_self d hd
    · exact h q (List.mem_cons_of_mem _ hq) d hd

/-- No line of a text holds a line boundary. -/
theorem isLineBreak_of_mem_lines (cs : List Char) :
    ∀ line ∈ lines cs, ∀ c ∈ line, isLineBreak c = false := by
  induction cs with
  | nil => simp [lines]
  | cons c cs ih =>
    rw [lines_cons]
    split
    · exact ih
    · split
      · simpa using ih
      · rename_i hc
        exact forall_mem_consFirst (by simpa using hc) ih

/-- **A text on one line holds no line boundary.** -/
theorem isLineBreak_of_mem_oneLine (cs : List Char) : ∀ c ∈ oneLine cs, isLineBreak c = false :=
  forall_mem_joinWith (List.forall_mem_singleton.2 (by decide)) (isLineBreak_of_mem_lines cs)

/-- A text without line boundaries is its only line. -/
theorem lines_eq_singleton {cs : List Char} (hne : cs ≠ [])
    (h : ∀ c ∈ cs, isLineBreak c = false) : lines cs = [cs] := by
  induction cs with
  | nil => exact absurd rfl hne
  | cons c cs ih =>
    obtain ⟨hc, hcs⟩ := List.forall_mem_cons.1 h
    have hreturn : c ≠ '\r' := by
      rintro rfl
      cases hc
    rw [lines_cons, if_neg (by simp [hreturn]), if_neg (by simp [hc])]
    cases cs with
    | nil => rfl
    | cons d cs => rw [ih (List.cons_ne_nil _ _) hcs, consFirst]

theorem oneLine_eq_self {cs : List Char} (h : ∀ c ∈ cs, isLineBreak c = false) :
    oneLine cs = cs := by
  by_cases hne : cs = []
  · rw [hne]
    rfl
  · rw [oneLine, lines_eq_singleton hne h, joinWith, List.intercalate_singleton]

/-- No part holds the separator. -/
theorem not_mem_of_mem_splitOn {sep : Char} {cs part : List Char} (h : part ∈ splitOn sep cs) :
    sep ∉ part := by
  have hall : ∀ part ∈ splitOn sep cs, ∀ c ∈ part, c ≠ sep := by
    clear h
    induction cs with
    | nil => simp [splitOn]
    | cons c cs ih =>
      rw [splitOn, List.foldr_cons, ← splitOn]
      split
      · simpa using ih
      · rename_i hc
        exact forall_mem_consFirst (by simpa using hc) ih
  exact fun hmem ↦ hall part h sep hmem rfl

end Docwright.Text
