import Docwright.Json.Reader
import Mathlib.Data.List.Basic
import Mathlib.Data.List.Infix
import Mathlib.Data.List.TakeWhile

/-!
# Texts that are too much to read

Reading structured data fails in two ways that are no departure from the format: a whole number has
too many digits, or values are nested too deeply. Both leave their mark on the text (`Accounts`):
the digits stand in it one after the other, and it has more opening brackets than values may be
nested.

`accounts_parse` is read off one fact about all readers, `goesOn_readValue`: a reader leaves a rest
of its text, or fails for a reason that its text accounts for. What accounts for a failure in a rest
of a text does so in the text.
-/

namespace Docwright.Json

/-- How many arrays and objects a text can open. -/
def openings (cs : List Char) : Nat :=
  cs.countP fun c ↦ c == '[' || c == '\x7b'

/-- A text accounts for a failure to read it with at most `depth` levels. -/
def Accounts (depth : Nat) (cs : List Char) : Fault → Prop
  | .malformed _ => True
  | .tooLong digits => Number.digitLimit < digits ∧
      ∃ run, run <:+: cs ∧ run.length = digits ∧ ∀ c ∈ run, Number.isDigit c
  | .tooDeep _ => depth < openings cs

/-- A reader leaves a rest of its text, or fails for a reason that the text accounts for. -/
def GoesOn {α : Type} (depth : Nat) (cs : List Char) : Except Fault (α × List Char) → Prop
  | .ok (_, rest) => rest <:+ cs
  | .error fault => Accounts depth cs fault

variable {depth : Nat} {cs rest : List Char} {α β : Type}

theorem openings_le_of_suffix (h : rest <:+ cs) : openings rest ≤ openings cs :=
  h.sublist.countP_le

/-- What accounts for a failure in a rest of a text does so in the text. -/
theorem Accounts.of_suffix {fault : Fault} (h : Accounts depth rest fault) (hrest : rest <:+ cs) :
    Accounts depth cs fault := by
  cases fault with
  | malformed left => trivial
  | tooLong digits =>
    obtain ⟨hmany, run, hrun, hlength, hdigits⟩ := h
    exact ⟨hmany, run, hrun.trans hrest.isInfix, hlength, hdigits⟩
  | tooDeep kind => exact Nat.lt_of_lt_of_le h (openings_le_of_suffix hrest)

theorem GoesOn.of_suffix {r : Except Fault (α × List Char)} (h : GoesOn depth rest r)
    (hrest : rest <:+ cs) : GoesOn depth cs r := by
  cases r with
  | error fault => exact Accounts.of_suffix h hrest
  | ok read => exact List.IsSuffix.trans h hrest

theorem skipGap_suffix (cs : List Char) : skipGap cs <:+ cs :=
  List.dropWhile_suffix _

/-! ### Parts of a value -/

/-- The second half of a character is missing or departs from the format. -/
theorem pairAfter?_eq_error {high : Nat} {fault : Fault} :
    pairAfter? high cs = .error fault → ∃ left, fault = .malformed left := by
  fun_cases pairAfter? high cs
  case case1 =>
    rintro ⟨⟩
    exact ⟨_, rfl⟩
  all_goals exact fun h ↦ by cases h

/-- Reading a text value goes on, at any depth. -/
theorem goesOn_readText (depth opening : Nat) (found cs : List Char) :
    GoesOn depth cs (readText opening found cs) := by
  fun_induction readText opening found cs
  case case2 => exact List.suffix_cons _ _
  case case5 a b c d after rest _ _ fault hpair =>
    obtain ⟨left, rfl⟩ := pairAfter?_eq_error hpair
    trivial
  case case6 a b c d after rest _ _ _ ih =>
    exact ih.of_suffix ⟨['\\', 'u', a, b, c, d], rfl⟩
  case case7 a b c d after rest _ _ _ _ ih =>
    refine ih.of_suffix ((List.drop_suffix 5 rest).trans ?_)
    exact ⟨['\\', 'u', a, b, c, d, after], rfl⟩
  case case8 c rest _ _ _ ih => exact ih.of_suffix ⟨['\\', c], rfl⟩
  case case12 ih => exact ih.of_suffix (List.suffix_cons _ _)
  all_goals trivial

/-- What a run of characters leaves is a rest of the text. -/
theorem span_suffix {keep : Char → Bool} {run : List Char} (h : cs.span keep = (run, rest)) :
    rest <:+ cs := by
  rw [List.span_eq_takeWhile_dropWhile] at h
  obtain rfl := (Prod.mk.inj h).2
  exact List.dropWhile_suffix _

theorem splitMinus_suffix {negative : Bool} {body : List Char} :
    splitMinus cs = (negative, body) → body <:+ cs := by
  fun_cases splitMinus cs
  case case1 rest =>
    rintro ⟨⟩
    exact List.suffix_cons _ _
  case case2 =>
    rintro ⟨⟩
    exact List.suffix_refl _

/-- The digits of a whole number stand at the start of its text. -/
theorem wholeDigits?_eq_append {digits : List Char} :
    wholeDigits? cs = some (digits, rest) →
      cs = digits ++ rest ∧ ∀ c ∈ digits, Number.isDigit c := by
  fun_cases wholeDigits? cs
  case case1 rest =>
    rintro ⟨⟩
    exact ⟨rfl, List.forall_mem_singleton.mpr (by decide)⟩
  case case2 c rest _ _ =>
    rw [Option.some_inj, List.span_eq_takeWhile_dropWhile]
    rintro ⟨⟩
    exact ⟨List.takeWhile_append_dropWhile.symm, fun c hc ↦ List.mem_takeWhile_imp hc⟩
  all_goals exact fun h ↦ by cases h

theorem fractionDigits?_suffix (cs : List Char) :
    ((fractionDigits? cs).getD ([], cs)).2 <:+ cs := by
  fun_cases fractionDigits? cs
  case case2 hspan _ => exact (span_suffix hspan).trans (List.suffix_cons _ _)
  all_goals exact List.suffix_refl _

theorem exponentDigits?_suffix (cs : List Char) :
    ((exponentDigits? cs).getD ([], cs)).2 <:+ cs := by
  fun_cases exponentDigits? cs
  case case2 e rest _ sign body hsign _ _ hspan _ =>
    have hbody : body <:+ rest := by
      split at hsign
      · cases hsign
        exact List.suffix_cons _ _
      · cases hsign
        exact List.suffix_cons _ _
      · cases hsign
        exact List.suffix_refl _
    exact ((span_suffix hspan).trans hbody).trans (List.suffix_cons _ _)
  all_goals exact List.suffix_refl _

/-- What is left of a number once its parts have been read is a rest of its text. -/
theorem suffix_of_parts {digits fraction power whole after : List Char}
    (hwhole : wholeDigits? cs = some (digits, whole))
    (hfraction : (fractionDigits? whole).getD ([], whole) = (fraction, after))
    (hpower : (exponentDigits? after).getD ([], after) = (power, rest)) : rest <:+ cs := by
  have hafter := fractionDigits?_suffix whole
  have hrest := exponentDigits?_suffix after
  rw [hfraction] at hafter
  rw [hpower] at hrest
  rw [(wholeDigits?_eq_append hwhole).1]
  exact (hrest.trans hafter).trans (List.suffix_append _ _)

/-- Reading a number goes on, at any depth. -/
theorem goesOn_readNumber (depth : Nat) (cs : List Char) : GoesOn depth cs (readNumber cs) := by
  fun_cases readNumber cs
  case case2 _ body hbody digits whole hwhole _ _ _ _ _ _ _ hmany =>
    obtain ⟨happend, hdigits⟩ := wholeDigits?_eq_append hwhole
    have hprefix : digits <+: body := happend ▸ List.prefix_append _ _
    have hinfix := hprefix.isInfix.trans (splitMinus_suffix hbody).isInfix
    exact ⟨hmany, digits, hinfix, rfl, hdigits⟩
  case case3 hbody _ _ hwhole _ _ hfraction _ _ hpower _ _ _ =>
    exact (suffix_of_parts hwhole hfraction hpower).trans (splitMinus_suffix hbody)
  case case4 hbody _ _ hwhole _ _ hfraction _ _ hpower _ _ _ =>
    exact (suffix_of_parts hwhole hfraction hpower).trans (splitMinus_suffix hbody)
  all_goals trivial

theorem goesOn_readScalar (depth : Nat) (cs : List Char) : GoesOn depth cs (readScalar cs) := by
  rw [readScalar]
  split
  · exact List.drop_suffix _ _
  · exact goesOn_readNumber depth cs

/-! ### Whole values -/

theorem GoesOn.cases {r : Except Fault (α × List Char)} (h : GoesOn depth cs r) :
    (∃ fault, r = .error fault ∧ Accounts depth cs fault) ∨
      ∃ a rest, r = .ok (a, rest) ∧ rest <:+ cs := by
  rcases r with fault | ⟨a, rest⟩
  · exact .inl ⟨fault, rfl, h⟩
  · exact .inr ⟨a, rest, rfl, h⟩

theorem suffix_of_skipGap {c : Char} {after : List Char} (h : skipGap rest = c :: after)
    (hrest : rest <:+ cs) : after <:+ cs :=
  ((List.suffix_cons c after).trans (h ▸ skipGap_suffix rest)).trans hrest

/-- Opening an array or an object takes one of the levels and one of the opening brackets. -/
theorem Accounts.cons {c : Char} {fault : Fault} (hc : (c == '[' || c == '\x7b') = true)
    (h : Accounts depth cs fault) : Accounts (depth + 1) (c :: cs) fault := by
  cases fault with
  | malformed left => trivial
  | tooLong digits => exact Accounts.of_suffix h (List.suffix_cons c cs)
  | tooDeep kind =>
    have hcount : openings (c :: cs) = openings cs + 1 := List.countP_cons_of_pos hc
    have hdeep : depth < openings cs := h
    show depth + 1 < openings (c :: cs)
    omega

theorem GoesOn.cons {c : Char} {r : Except Fault (α × List Char)}
    (hc : (c == '[' || c == '\x7b') = true) (h : GoesOn depth rest r) (hrest : rest <:+ cs) :
    GoesOn (depth + 1) (c :: cs) r := by
  rcases h.cases with ⟨fault, rfl, hfault⟩ | ⟨a, left, rfl, hleft⟩
  · exact Accounts.cons hc (hfault.of_suffix hrest)
  · exact (hleft.trans hrest).trans (List.suffix_cons c cs)

section Step

/-! What one step more reads, given what is known of the steps before it. -/

variable {fuel : Nat}
  (hvalue : ∀ depth cs, GoesOn depth cs (readValue fuel depth cs))
  (hitems : ∀ depth found cs, GoesOn depth cs (readItems fuel depth found cs))
  (hfields : ∀ depth found cs, GoesOn depth cs (readFields fuel depth found cs))

include hitems hfields in
theorem goesOn_readValue_succ (depth : Nat) (cs : List Char) :
    GoesOn depth cs (readValue (fuel + 1) depth cs) := by
  rw [readValue.eq_def]
  dsimp only
  split
  case h_1 rest =>
    rcases (goesOn_readText depth ('"' :: rest).length [] rest).cases with
      ⟨fault, htext, hfault⟩ | ⟨s, after, htext, hafter⟩
    · rw [htext]
      exact hfault.of_suffix (List.suffix_cons _ _)
    · rw [htext]
      exact hafter.trans (List.suffix_cons _ _)
  case h_2 rest =>
    cases depth with
    | zero =>
      exact List.countP_pos_iff.mpr ⟨'\x7b', List.mem_cons_self, by decide⟩
    | succ depth =>
      dsimp only
      split
      case h_1 after hafter =>
        exact (suffix_of_skipGap hafter (List.suffix_refl rest)).trans (List.suffix_cons _ _)
      case h_2 => exact (hfields depth [] _).cons (by decide) (skipGap_suffix rest)
  case h_3 rest =>
    cases depth with
    | zero => exact List.countP_pos_iff.mpr ⟨'[', List.mem_cons_self, by decide⟩
    | succ depth =>
      dsimp only
      split
      case h_1 after hafter =>
        exact (suffix_of_skipGap hafter (List.suffix_refl rest)).trans (List.suffix_cons _ _)
      case h_2 => exact (hitems depth [] _).cons (by decide) (skipGap_suffix rest)
  case h_4 => exact goesOn_readScalar depth cs

include hvalue hitems in
theorem goesOn_readItems_succ (depth : Nat) (found : List Json) (cs : List Char) :
    GoesOn depth cs (readItems (fuel + 1) depth found cs) := by
  rw [readItems]
  rcases (hvalue depth cs).cases with ⟨fault, hread, hfault⟩ | ⟨item, rest, hread, hrest⟩
  · rw [hread]
    exact hfault
  · rw [hread]
    dsimp only
    split
    case h_1 after hafter => exact suffix_of_skipGap hafter hrest
    case h_2 after hafter =>
      exact (hitems depth _ _).of_suffix
        ((skipGap_suffix after).trans (suffix_of_skipGap hafter hrest))
    case h_3 => trivial

include hvalue hfields in
theorem goesOn_readFields_succ (depth : Nat) (found : List (String × Json)) (cs : List Char) :
    GoesOn depth cs (readFields (fuel + 1) depth found cs) := by
  rw [readFields.eq_def]
  dsimp only
  split
  case h_2 => trivial
  case h_1 rest =>
    have hopen : rest <:+ '"' :: rest := List.suffix_cons _ _
    rcases (goesOn_readText depth ('"' :: rest).length [] rest).cases with
      ⟨fault, htext, hfault⟩ | ⟨name, after, htext, hafter⟩
    · rw [htext]
      exact hfault.of_suffix hopen
    · rw [htext]
      dsimp only
      split
      case h_2 => trivial
      case h_1 body hbody =>
        have hbody := (skipGap_suffix body).trans (suffix_of_skipGap hbody (hafter.trans hopen))
        rcases (hvalue depth (skipGap body)).cases with
          ⟨fault, hread, hfault⟩ | ⟨value, left, hread, hleft⟩
        · rw [hread]
          exact hfault.of_suffix hbody
        · rw [hread]
          dsimp only
          split
          case h_1 after hafter => exact suffix_of_skipGap hafter (hleft.trans hbody)
          case h_2 after hafter =>
            exact (hfields depth _ _).of_suffix
              ((skipGap_suffix after).trans (suffix_of_skipGap hafter (hleft.trans hbody)))
          case h_3 => trivial

end Step

/-- **A reader leaves a rest of its text, or fails for a reason that the text accounts for.** The
induction is on the steps that are left, for the three readers at once. -/
theorem goesOn_readers (fuel : Nat) :
    (∀ depth cs, GoesOn depth cs (readValue fuel depth cs)) ∧
      (∀ depth found cs, GoesOn depth cs (readItems fuel depth found cs)) ∧
      ∀ depth found cs, GoesOn depth cs (readFields fuel depth found cs) := by
  induction fuel with
  | zero => exact ⟨fun _ _ ↦ trivial, fun _ _ _ ↦ trivial, fun _ _ _ ↦ trivial⟩
  | succ fuel ih =>
    obtain ⟨hvalue, hitems, hfields⟩ := ih
    exact ⟨goesOn_readValue_succ hitems hfields, goesOn_readItems_succ hvalue hitems,
      goesOn_readFields_succ hvalue hfields⟩

/-- The text accounts for every failure to read it as one value. -/
theorem accounts_parse {fault : Fault} :
    parse cs = .error fault → Accounts depthLimit cs fault := by
  show parseWithin depthLimit cs = .error fault → _
  fun_cases parseWithin depthLimit cs
  case case2 found hread =>
    rintro ⟨⟩
    have hgap := (goesOn_readers (2 * cs.length + 1)).1 depthLimit (skipGap cs)
    rw [hread] at hgap
    exact Accounts.of_suffix hgap (skipGap_suffix cs)
  case case3 => exact fun h ↦ by cases h
  all_goals
    rintro ⟨⟩
    trivial

/-- A text that is not too much to read: few digits stand one after the other, and it has few
opening brackets. -/
structure Moderate (cs : List Char) : Prop where
  length_le : ∀ run, run <:+: cs → (∀ c ∈ run, Number.isDigit c = true) →
    run.length ≤ Number.digitLimit
  openings_le : openings cs ≤ depthLimit

/-- Failing to read such a text means that it departs from the format. -/
theorem Moderate.eq_malformed {fault : Fault} (h : Moderate cs) (hparse : parse cs = .error fault) :
    ∃ left, fault = .malformed left := by
  have hfault := accounts_parse hparse
  cases fault with
  | malformed left => exact ⟨left, rfl⟩
  | tooLong digits =>
    obtain ⟨hmany, run, hrun, rfl, hdigits⟩ := hfault
    exact absurd (h.length_le run hrun hdigits) (Nat.not_le.mpr hmany)
  | tooDeep kind => exact absurd h.openings_le (Nat.not_le.mpr hfault)

end Docwright.Json
