import Docwright.Proofs.Page.Lint

/-!
# What linting makes of the lines of a text

Linting takes one line at a time with three things in mind: the fence that is open, whether the line
before was blank, and the lines so far. What comes out of it is said here without any of them, by
comparing the lines before and after (`Tidied`): the lines that are not blank stay as they were, and
of the blank lines between two of them only the number changes, inside a fenced block not even that.

Which lines are inside a fenced block is a fact about the text alone (`openAfter`). Blank lines have
no say in it, and no others are lost, so the fences of the linted text are those of the text and the
one that closes the last (`Tidied.closed`).
-/

namespace Docwright.Page.Lint

open Text

variable {s : State} {body line a c : List Char} {lines before after : List (List Char)}
  {ticks n : Nat}

/-! ### Fences -/

/-- The fence that is open after a line, when `opened` is open before it. A fence is closed by one
that has at least as many ticks and nothing behind them. -/
def fenceAfter (opened : Option Nat) (line : List Char) : Option Nat :=
  match opened, fence? line with
  | none, none => none
  | none, some (ticks, _) => some ticks
  | some ticks, none => some ticks
  | some ticks, some (found, info) =>
    if ticks ≤ found && (strip info).isEmpty then none else some ticks

/-- The fence that lines leave open. -/
def openAfter (lines : List (List Char)) : Option Nat :=
  lines.foldl fenceAfter none

/-- The line that closes a fence, if one is open. -/
def closing (opened : Option Nat) : List (List Char) :=
  match opened with
  | none => []
  | some ticks => [List.replicate ticks '`']

/-- The lines that are not empty. -/
def solid (lines : List (List Char)) : List (List Char) :=
  lines.filter fun line ↦ !line.isEmpty

@[simp] theorem solid_append (a b : List (List Char)) : solid (a ++ b) = solid a ++ solid b :=
  List.filter_append ..

theorem solid_cons (h : line ≠ []) (lines : List (List Char)) :
    solid (line :: lines) = line :: solid lines :=
  List.filter_cons_of_pos (by simpa using h)

theorem fence?_nil : fence? [] = none := rfl

/-- A heading is no fence. -/
theorem fence?_of_head? (h : line.head? = some '#') : fence? line = none := by
  obtain ⟨rest, rfl⟩ := List.head?_eq_some_iff.1 h
  rw [fence?, stripLeft_cons (by decide)]
  rfl

theorem three_le_of_fence? {info : List Char} (h : fence? line = some (ticks, info)) :
    3 ≤ ticks := by
  simp only [fence?] at h
  split at h
  · rename_i hticks
    cases h
    exact hticks
  · cases h

/-- Three ticks or more are a fence, and what follows them stands behind it. -/
theorem fence?_replicate_append (h : 3 ≤ ticks) {word : List Char} (hword : '`' ∉ word) :
    fence? (List.replicate ticks '`' ++ word) = some (ticks, word) := by
  have hleft : stripLeft (List.replicate ticks '`' ++ word) = List.replicate ticks '`' ++ word := by
    obtain ⟨m, rfl⟩ := Nat.exists_eq_succ_of_ne_zero (show ticks ≠ 0 by omega)
    exact stripLeft_cons (by decide) _
  have hnone : word.takeWhile (· == '`') = [] := by
    cases word with
    | nil => rfl
    | cons c word =>
      refine List.takeWhile_cons_of_neg fun hc ↦ hword ?_
      rw [← beq_iff_eq.1 hc]
      exact List.mem_cons_self
  have htake : (List.replicate ticks '`' ++ word).takeWhile (· == '`')
      = List.replicate ticks '`' := by
    rw [List.takeWhile_append_of_pos fun x hx ↦ by simp [List.eq_of_mem_replicate hx], hnone,
      List.append_nil]
  simp [fence?, hleft, htake, h]

theorem fence?_replicate (h : 3 ≤ ticks) :
    fence? (List.replicate ticks '`') = some (ticks, []) := by
  simpa using fence?_replicate_append h List.not_mem_nil

theorem fenceAfter_nil (opened : Option Nat) : fenceAfter opened [] = opened := by
  cases opened <;> rfl

/-- Blank lines open and close no fence. -/
theorem foldl_fenceAfter_solid (lines : List (List Char)) (opened : Option Nat) :
    (solid lines).foldl fenceAfter opened = lines.foldl fenceAfter opened := by
  induction lines generalizing opened with
  | nil => rfl
  | cons line lines ih =>
    by_cases hline : line = []
    · rw [hline, List.foldl_cons, fenceAfter_nil]
      exact ih opened
    · rw [solid_cons hline, List.foldl_cons, List.foldl_cons, ih]

theorem openAfter_concat (lines : List (List Char)) (line : List Char) :
    openAfter (lines ++ [line]) = fenceAfter (openAfter lines) line := by
  rw [openAfter, List.foldl_append]
  rfl

/-- A fence that is open has three ticks at least. -/
theorem three_le_of_openAfter (h : openAfter lines = some ticks) : 3 ≤ ticks := by
  induction lines using List.reverseRecOn generalizing ticks with
  | nil => cases h
  | append_singleton lines line ih =>
    rw [openAfter_concat, fenceAfter.eq_def] at h
    split at h
    case h_1 => cases h
    case h_2 hfence =>
      cases h
      exact three_le_of_fence? hfence
    case h_3 hopen _ =>
      cases h
      exact ih hopen
    case h_4 hopen _ =>
      split at h
      · cases h
      · cases h
        exact ih hopen

/-- **The closing line closes what is open.** -/
theorem openAfter_append_closing (lines : List (List Char)) :
    openAfter (lines ++ closing (openAfter lines)) = none := by
  cases hopen : openAfter lines with
  | none => rw [closing, List.append_nil, hopen]
  | some ticks =>
    show openAfter (lines ++ [List.replicate ticks '`']) = none
    simp only [openAfter_concat, hopen, fenceAfter, fence?_replicate (three_le_of_openAfter hopen),
      Nat.le_refl, decide_true, Bool.true_and]
    rfl

/-! ### Single lines -/

theorem stripRight_stripRight (cs : List Char) : stripRight (stripRight cs) = stripRight cs :=
  List.rdropWhile_idempotent isBlank cs

namespace State

theorem step_stripRight (s : State) (raw : List Char) : s.step (stripRight raw) = s.step raw := by
  simp only [step, stripRight_stripRight]

theorem openFence_prose (s : State) (line : List Char) :
    (s.prose line).openFence = s.openFence := by
  unfold prose
  split
  · split <;> rfl
  · rfl

theorem openFence_step (s : State) (raw : List Char) :
    (s.step raw).openFence = fenceAfter s.openFence (stripRight raw) := by
  rw [step, fenceAfter.eq_def]
  split
  case h_1 hopen hfence => simp only [hopen, hfence]
  case h_2 hopen hfence => simp only [openFence_prose, hopen, hfence]
  case h_3 hopen hfence =>
    simp only [hopen, hfence]
    split <;> rfl
  case h_4 hopen hfence => simp only [hopen, hfence]

theorem suffix_found_step (s : State) (raw : List Char) : s.found <:+ (s.step raw).found := by
  rcases s.found_step_cases raw with ⟨-, h⟩ | h | h
  · exact h ▸ List.suffix_refl _
  · exact h ▸ List.suffix_cons _ _
  · exact h ▸ (List.suffix_cons _ _).trans (List.suffix_cons _ _)

theorem filter_found_step {keep : List Char → Bool} (hempty : keep [] = false) (s : State)
    (raw : List Char) :
    (s.step raw).found.filter keep = [stripRight raw].filter keep ++ s.found.filter keep := by
  have hnil (lines : List (List Char)) : ([] :: lines).filter keep = lines.filter keep :=
    List.filter_cons_of_neg (by simp [hempty])
  rcases s.found_step_cases raw with ⟨hline, h⟩ | h | h
  · rw [h, hline, hnil, List.filter_nil, List.nil_append]
  · rw [h, ← List.singleton_append, List.filter_append]
  · rw [h, ← List.singleton_append, List.filter_append, hnil]

/-- An empty line in a fenced block. -/
theorem step_nil_of_open (hopen : s.openFence = some ticks) :
    s.step [] = ⟨[] :: s.found, some ticks, false⟩ := by
  have hstrip : stripRight [] = [] := rfl
  simp only [step, hstrip, fence?_nil, hopen]

/-- An empty line outside. -/
theorem step_nil_of_none (hopen : s.openFence = none) :
    s.step [] = if s.afterBlank || s.found.isEmpty then s
      else { s with found := [] :: s.found, afterBlank := true } := by
  have hstrip : stripRight [] = [] := rfl
  simp only [step, hstrip, fence?_nil, hopen]
  rw [prose, hopen]
  rfl

/-- A line that is not empty. The line before it is an empty one that is new if a heading would else
follow another line. -/
theorem step_of_ne_nil (s : State) (hline : stripRight line = line) (hne : line ≠ []) :
    (s.step line).afterBlank = false ∧ (s.step line).found = line ::
      if s.openFence = none ∧ line.head? = some '#' ∧ s.atBreak = false then [] :: s.found
      else s.found := by
  simp only [step, hline]
  split
  case h_1 hopen hfence =>
    refine ⟨rfl, ?_⟩
    rw [if_neg]
    rintro ⟨-, hhead, -⟩
    rw [fence?_of_head? hhead] at hfence
    cases hfence
  case h_2 hopen hfence =>
    simp [prose, hopen, hne]
  case h_3 hopen hfence =>
    rw [hopen]
    split
    · exact ⟨rfl, rfl⟩
    · exact ⟨rfl, rfl⟩
  case h_4 hopen hfence =>
    rw [hopen]
    exact ⟨rfl, rfl⟩

/-- A line that is not empty is put before the lines so far, up to empty ones. -/
theorem exists_found_step (s : State) (hline : stripRight line = line) (hne : line ≠ []) :
    ∃ lines, (s.step line).found = line :: lines ∧ solid lines = solid s.found := by
  rcases s.found_step_cases line with ⟨h, -⟩ | h | h
  · exact absurd (hline.symm.trans h) hne
  · exact ⟨s.found, by rw [h, hline], rfl⟩
  · exact ⟨[] :: s.found, by rw [h, hline], rfl⟩

/-! ### Several lines -/

theorem openFence_foldl_step (h : ∀ line ∈ lines, stripRight line = line) (s : State) :
    (lines.foldl step s).openFence = lines.foldl fenceAfter s.openFence := by
  induction lines generalizing s with
  | nil => rfl
  | cons line lines ih =>
    obtain ⟨hline, hlines⟩ := List.forall_mem_cons.1 h
    rw [List.foldl_cons, List.foldl_cons, ih hlines, openFence_step, hline]

theorem suffix_found_foldl_step (lines : List (List Char)) (s : State) :
    s.found <:+ (lines.foldl step s).found := by
  induction lines generalizing s with
  | nil => exact List.suffix_refl _
  | cons line lines ih => exact (s.suffix_found_step line).trans (ih _)

theorem filter_found_foldl_step {keep : List Char → Bool} (hempty : keep [] = false)
    (h : ∀ line ∈ lines, stripRight line = line) (s : State) :
    (lines.foldl step s).found.filter keep
      = (lines.filter keep).reverse ++ s.found.filter keep := by
  induction lines generalizing s with
  | nil => rfl
  | cons line lines ih =>
    obtain ⟨hline, hlines⟩ := List.forall_mem_cons.1 h
    rw [List.foldl_cons, ih hlines, filter_found_step hempty, hline]
    by_cases hkeep : keep line = true
    · simp [hkeep]
    · simp [hkeep]

/-- Empty lines in a fenced block are all kept. -/
theorem foldl_step_blanks_of_open (hopen : s.openFence = some ticks) (n : Nat) :
    ((List.replicate n []).foldl step s).found = List.replicate n [] ++ s.found ∧
      ((List.replicate n []).foldl step s).openFence = some ticks := by
  induction n generalizing s with
  | zero => exact ⟨rfl, hopen⟩
  | succ n ih =>
    rw [List.replicate_succ, List.foldl_cons, step_nil_of_open hopen]
    obtain ⟨hfound, hfence⟩ := @ih ⟨[] :: s.found, some ticks, false⟩ rfl
    refine ⟨?_, hfence⟩
    rw [hfound, ← List.replicate_succ, List.replicate_succ', List.append_assoc]
    rfl

/-- Outside they count as one, and not at all at the start. -/
theorem foldl_step_blanks_of_none (hopen : s.openFence = none)
    (h : s.afterBlank = true ∨ s.found = []) (n : Nat) :
    (List.replicate n []).foldl step s = s := by
  induction n with
  | zero => rfl
  | succ n ih =>
    have hstep : s.step [] = s := by
      rw [step_nil_of_none hopen]
      exact if_pos (by simpa using h)
    rw [List.replicate_succ, List.foldl_cons, hstep, ih]

/-- **The empty lines between two others.** -/
theorem exists_found_between (hfound : s.found = a :: lines) (ha : a ≠ [])
    (hblank : s.afterBlank = false) (hline : stripRight c = c) (hc : c ≠ []) (n : Nat) :
    ∃ n', ((List.replicate n [] ++ [c]).foldl step s).found
        = c :: (List.replicate n' [] ++ s.found) ∧
      (s.openFence.isSome → n' = n) ∧
      (s.openFence = none → 0 < n → n' = 1) ∧
      (s.openFence = none → n = 0 → n' = if c.head? = some '#' then 1 else 0) := by
  rw [List.foldl_append, List.foldl_cons, List.foldl_nil]
  cases hopen : s.openFence with
  | some ticks =>
    obtain ⟨hblanks, hstill⟩ := foldl_step_blanks_of_open hopen n
    refine ⟨n, ?_, fun _ ↦ rfl, nofun, nofun⟩
    rw [(step_of_ne_nil _ hline hc).2, hstill, if_neg nofun, hblanks]
  | none =>
    cases n with
    | zero =>
      have hbreak : s.atBreak = false := by simp [atBreak, hfound, ha]
      refine ⟨if c.head? = some '#' then 1 else 0, ?_, nofun, fun _ h ↦ absurd h (by simp),
        fun _ _ ↦ rfl⟩
      rw [List.replicate_zero, List.foldl_nil, (step_of_ne_nil _ hline hc).2]
      by_cases hhead : c.head? = some '#'
      · rw [if_pos ⟨hopen, hhead, hbreak⟩, if_pos hhead]
        rfl
      · rw [if_neg fun h ↦ hhead h.2.1, if_neg hhead]
        rfl
    | succ n =>
      -- the first empty line is put down, and the others find it there
      have hfirst : s.step [] = { s with found := [] :: s.found, afterBlank := true } := by
        rw [step_nil_of_none hopen, if_neg (by simp [hblank, hfound])]
      refine ⟨1, ?_, nofun, fun _ _ ↦ rfl, fun _ h ↦ absurd h (by simp)⟩
      rw [List.replicate_succ, List.foldl_cons, hfirst,
        foldl_step_blanks_of_none (s := { s with found := [] :: s.found, afterBlank := true })
          hopen (.inl rfl), (step_of_ne_nil _ hline hc).2, if_neg]
      · rfl
      · simp [atBreak]

/-- What has been found behind a line that is not empty is not touched at the end. -/
theorem exists_finish_eq (hsuffix : c :: lines <:+ s.found) (hc : c ≠ []) :
    ∃ tail, s.finish = (c :: lines).reverse ++ tail := by
  have hkept {found : List (List Char)} (h : c :: lines <:+ found) :
      c :: lines <:+ found.dropWhile List.isEmpty := by
    obtain ⟨front, rfl⟩ := h
    rw [List.dropWhile_append]
    split
    · rw [List.dropWhile_cons_of_neg (by simpa using hc)]
    · exact List.suffix_append _ _
  have hclosed : c :: lines <:+ s.closed := by
    unfold closed
    split
    · exact hsuffix
    · exact (hkept hsuffix).trans (List.suffix_cons _ _)
  obtain ⟨front, hfront⟩ := hkept hclosed
  exact ⟨front.reverse, by rw [finish, ← hfront, List.reverse_append]⟩

theorem closed_eq (s : State) :
    s.closed = closing s.openFence ++
      if s.openFence.isSome then s.found.dropWhile List.isEmpty else s.found := by
  unfold closed closing
  cases s.openFence <;> rfl

end State

/-! ### All lines -/

/-- Empty lines at the end are not looked for. -/
theorem filter_dropWhile_isEmpty {keep : List Char → Bool} (hempty : keep [] = false)
    (lines : List (List Char)) :
    (lines.dropWhile List.isEmpty).filter keep = lines.filter keep := by
  induction lines with
  | nil => rfl
  | cons line lines ih =>
    cases line with
    | nil => rw [List.dropWhile_cons_of_pos rfl, ih, List.filter_cons_of_neg (by simp [hempty])]
    | cons c cs => rw [List.dropWhile_cons_of_neg (by simp)]

/-- The lines of a text: what stands between its line feeds, without blanks at the end. -/
def sourceOf (body : List Char) : List (List Char) :=
  (splitOn '\n' body).map stripRight

theorem stripRight_of_mem_sourceOf : ∀ line ∈ sourceOf body, stripRight line = line := by
  intro line hline
  obtain ⟨raw, -, rfl⟩ := List.mem_map.1 hline
  exact stripRight_stripRight raw

theorem linesOf_eq (body : List Char) :
    linesOf body = ((sourceOf body).foldl State.step State.start).finish := by
  rw [linesOf, sourceOf, List.foldl_map]
  simp only [State.step_stripRight]

/-- The state after all lines. -/
theorem openFence_sourceOf (body : List Char) :
    ((sourceOf body).foldl State.step State.start).openFence = openAfter (sourceOf body) :=
  State.openFence_foldl_step stripRight_of_mem_sourceOf State.start

/-- **The lines that are looked for stay**, and a fence that is left open is closed by one more. -/
theorem filter_linesOf {keep : List Char → Bool} (hempty : keep [] = false) (body : List Char) :
    (linesOf body).filter keep
      = (sourceOf body ++ closing (openAfter (sourceOf body))).filter keep := by
  have hfilter : ((sourceOf body).foldl State.step State.start).found.filter keep
      = ((sourceOf body).filter keep).reverse := by
    rw [State.filter_found_foldl_step hempty stripRight_of_mem_sourceOf]
    exact List.append_nil _
  rw [linesOf_eq, State.finish, List.filter_reverse, filter_dropWhile_isEmpty hempty,
    State.closed_eq, openFence_sourceOf]
  cases openAfter (sourceOf body) with
  | none =>
    rw [closing, List.nil_append, List.append_nil, Option.isSome_none,
      if_neg Bool.false_ne_true, hfilter, List.reverse_reverse]
  | some ticks =>
    rw [Option.isSome_some, if_pos rfl, List.filter_append, filter_dropWhile_isEmpty hempty,
      hfilter, List.reverse_append, List.reverse_reverse, List.filter_append, ← List.filter_reverse]
    rfl

/-- What linting makes of lines. -/
structure Tidied (source result : List (List Char)) : Prop where
  /-- The lines that are not empty stay as they are and in their order, and a fence that is left
  open is closed by one line more. -/
  solid : solid result = solid source ++ closing (openAfter source)
  /-- Take two lines that only `n` empty ones stand between. In a fenced block these are all kept.
  Outside there is one afterwards if there was one, or if the second line is a heading, and else
  there is none. -/
  between : ∀ before a n c after, source = before ++ a :: (List.replicate n [] ++ c :: after) →
    a ≠ [] → c ≠ [] →
    ∃ before' n' after', result = before' ++ a :: (List.replicate n' [] ++ c :: after') ∧
      Lint.solid before' = Lint.solid before ∧
      ((openAfter (before ++ [a])).isSome → n' = n) ∧
      (openAfter (before ++ [a]) = none → 0 < n → n' = 1) ∧
      (openAfter (before ++ [a]) = none → n = 0 → n' = if c.head? = some '#' then 1 else 0)
  /-- The line that closes a fence follows another line at once. -/
  closing : ∀ ticks, openAfter source = some ticks →
    ∃ before a, a ≠ [] ∧ result = before ++ [a, List.replicate ticks '`']
  /-- No line has blanks at its end. -/
  trimmed : ∀ line ∈ result, stripRight line = line
  /-- No fence is left open. -/
  closed : openAfter result = none
  /-- The first and the last line are not empty. -/
  ends : result.head? ≠ some [] ∧ result.getLast? ≠ some []

theorem solid_linesOf (body : List Char) :
    solid (linesOf body) = solid (sourceOf body) ++ closing (openAfter (sourceOf body)) := by
  have hclosing : solid (closing (openAfter (sourceOf body)))
      = closing (openAfter (sourceOf body)) := by
    refine List.filter_eq_self.2 fun line hline ↦ ?_
    cases hopen : openAfter (sourceOf body) with
    | none => simp [hopen, closing] at hline
    | some ticks =>
      have hticks := three_le_of_openAfter hopen
      rw [hopen] at hline
      rw [List.mem_singleton.1 hline]
      simp only [List.isEmpty_replicate, Bool.not_eq_true', decide_eq_false_iff_not]
      omega
  rw [solid, filter_linesOf rfl, List.filter_append]
  exact congrArg _ hclosing

/-- Lines start with empty ones, and there may be nothing else. -/
theorem exists_blanks_append (lines : List (List Char)) :
    ∃ n rest, lines = List.replicate n [] ++ rest ∧ rest.head? ≠ some [] := by
  induction lines with
  | nil => exact ⟨0, [], rfl, nofun⟩
  | cons line lines ih =>
    by_cases hline : line = []
    · obtain ⟨n, rest, rfl, hrest⟩ := ih
      exact ⟨n + 1, rest, by rw [hline, List.replicate_succ, List.cons_append], hrest⟩
    · exact ⟨0, line :: lines, rfl, by simpa using hline⟩

/-- The first linted line is the first that is not empty. -/
theorem head?_linesOf (body : List Char) : (linesOf body).head? ≠ some [] := by
  obtain ⟨n, rest, hsource, hrest⟩ := exists_blanks_append (sourceOf body)
  rw [linesOf_eq, hsource, List.foldl_append,
    State.foldl_step_blanks_of_none (s := State.start) rfl (.inr rfl)]
  cases rest with
  | nil => exact nofun
  | cons c rest =>
    have hc : c ≠ [] := by simpa using hrest
    have hmem : c ∈ sourceOf body := hsource ▸ List.mem_append_right _ List.mem_cons_self
    have hstrip : stripRight c = c := stripRight_of_mem_sourceOf c hmem
    have hfound : (State.start.step c).found = [c] := by
      rw [(State.step_of_ne_nil _ hstrip hc).2, if_neg (by simp [State.atBreak, State.start])]
      rfl
    obtain ⟨tail, htail⟩ := State.exists_finish_eq
      (hfound ▸ State.suffix_found_foldl_step rest (State.start.step c)) hc
    rw [List.foldl_cons, htail]
    simpa using hc

theorem getLast?_finish (s : State) : s.finish.getLast? ≠ some [] := by
  rw [State.finish, List.getLast?_reverse]
  intro hlast
  have hhead := List.head?_dropWhile_not List.isEmpty s.closed
  rw [hlast] at hhead
  simp at hhead

/-- **Two neighbours among the lines that are not empty stay neighbours**, and what is between them
depends on the fence that is open there. -/
theorem exists_between_linesOf (hsource : sourceOf body
      = before ++ a :: (List.replicate n [] ++ c :: after)) (ha : a ≠ []) (hc : c ≠ []) :
    ∃ before' n' after', linesOf body = before' ++ a :: (List.replicate n' [] ++ c :: after') ∧
      solid before' = solid before ∧
      ((openAfter (before ++ [a])).isSome → n' = n) ∧
      (openAfter (before ++ [a]) = none → 0 < n → n' = 1) ∧
      (openAfter (before ++ [a]) = none → n = 0 → n' = if c.head? = some '#' then 1 else 0) := by
  have hstripped : ∀ line ∈ sourceOf body, stripRight line = line := stripRight_of_mem_sourceOf
  simp only [hsource, List.forall_mem_append, List.forall_mem_cons] at hstripped
  obtain ⟨hbefore, hstripa, -, hstripc, -⟩ := hstripped
  let s₁ := before.foldl State.step State.start
  -- the state in which the empty lines are met
  obtain ⟨hblank, -⟩ := s₁.step_of_ne_nil hstripa ha
  obtain ⟨lines, hfound, hlines⟩ := s₁.exists_found_step hstripa ha
  have hopen : (s₁.step a).openFence = openAfter (before ++ [a]) := by
    rw [State.openFence_step, hstripa, openAfter_concat, State.openFence_foldl_step hbefore]
    rfl
  obtain ⟨n', hbetween, hcount⟩ := State.exists_found_between hfound ha hblank hstripc hc n
  rw [hopen] at hcount
  rw [hfound] at hbetween
  have hsolid : solid lines.reverse = solid before := by
    have hfilter : solid s₁.found = (solid before).reverse := by
      rw [solid, State.filter_found_foldl_step rfl hbefore]
      exact List.append_nil _
    rw [solid, List.filter_reverse, ← solid, hlines, hfilter, List.reverse_reverse]
  have hsuffix := State.suffix_found_foldl_step after
    ((List.replicate n [] ++ [c]).foldl State.step (s₁.step a))
  rw [hbetween] at hsuffix
  obtain ⟨tail, htail⟩ := State.exists_finish_eq hsuffix hc
  refine ⟨lines.reverse, n', tail, ?_, hsolid, hcount⟩
  have hsplit : before ++ a :: (List.replicate n [] ++ c :: after)
      = before ++ ([a] ++ ((List.replicate n [] ++ [c]) ++ after)) := by simp
  rw [linesOf_eq, hsource, hsplit, List.foldl_append, List.foldl_append, List.foldl_append]
  refine htail.trans ?_
  simp

/-- **The line that closes a fence follows another line at once.** -/
theorem exists_linesOf_eq_of_open (hopen : openAfter (sourceOf body) = some ticks) :
    ∃ before a, a ≠ [] ∧ linesOf body = before ++ [a, List.replicate ticks '`'] := by
  let s := (sourceOf body).foldl State.step State.start
  have hfilter : solid s.found = (solid (sourceOf body)).reverse := by
    rw [solid, State.filter_found_foldl_step rfl stripRight_of_mem_sourceOf]
    exact List.append_nil _
  -- there is a line that opens the fence
  have hne : s.found.dropWhile List.isEmpty ≠ [] := by
    intro hnil
    have hsolid : solid (sourceOf body) = [] := by
      rw [← List.reverse_eq_nil_iff, ← hfilter, solid, ← filter_dropWhile_isEmpty rfl, hnil]
      rfl
    rw [openAfter, ← foldl_fenceAfter_solid, hsolid] at hopen
    cases hopen
  obtain ⟨a, lines, hlines⟩ := List.exists_cons_of_ne_nil hne
  have ha := List.head?_dropWhile_not List.isEmpty s.found
  rw [hlines] at ha
  refine ⟨lines.reverse, a, by simpa using ha, ?_⟩
  have hticks : (List.replicate ticks '`').isEmpty = false := by
    have hthree := three_le_of_openAfter hopen
    rw [List.isEmpty_replicate, decide_eq_false_iff_not]
    omega
  rw [linesOf_eq, State.finish, State.closed_eq, openFence_sourceOf, hopen, Option.isSome_some,
    if_pos rfl, hlines]
  show (List.dropWhile List.isEmpty (List.replicate ticks '`' :: a :: lines)).reverse = _
  rw [List.dropWhile_cons_of_neg (by simp [hticks])]
  simp

/-- **Linted lines** are the lines of the text, tidied. -/
theorem tidied_linesOf (body : List Char) : Tidied (sourceOf body) (linesOf body) where
  solid := solid_linesOf body
  between _ _ _ _ _ := exists_between_linesOf
  closing _ := exists_linesOf_eq_of_open
  trimmed := by
    refine forall_mem_linesOf rfl (fun ticks ↦ ?_) fun raw _ ↦ stripRight_stripRight raw
    refine List.rdropWhile_eq_self_iff.2 fun hne ↦ ?_
    rw [List.getLast_replicate]
    decide
  closed := by
    rw [openAfter, ← foldl_fenceAfter_solid, solid_linesOf, List.foldl_append,
      foldl_fenceAfter_solid, ← List.foldl_append]
    exact openAfter_append_closing _
  ends := ⟨head?_linesOf body, linesOf_eq body ▸ getLast?_finish _⟩

/-! ### The linted text -/

theorem newline_not_mem_linesOf (body : List Char) : ∀ line ∈ linesOf body, '\n' ∉ line :=
  forall_mem_linesOf List.not_mem_nil (not_mem_replicate_tick (by decide)) fun _ hraw hmem ↦
    not_mem_of_mem_splitOn hraw (mem_of_mem_stripRight hmem)

/-- Lines of which the last is not empty end with one line feed, once it is put behind them. -/
theorem exists_joinWith_eq {lines : List (List Char)} (hne : lines ≠ [])
    (hlines : ∀ line ∈ lines, '\n' ∉ line) (hlast : lines.getLast? ≠ some []) :
    ∃ front c, joinWith ['\n'] lines = front ++ [c] ∧ c ≠ '\n' := by
  obtain ⟨init, line, rfl⟩ := List.eq_nil_or_concat' lines |>.resolve_left hne
  have hline : line ≠ [] := by simpa using hlast
  obtain ⟨front, c, rfl⟩ := List.eq_nil_or_concat' line |>.resolve_left hline
  obtain ⟨before, hbefore⟩ := suffix_joinWith_concat ['\n'] init (front ++ [c])
  refine ⟨before ++ front, c, by rw [← hbefore, List.append_assoc], ?_⟩
  rintro rfl
  exact hlines (front ++ ['\n']) (by simp) (by simp)

/-- **What linting makes of a text.** The text without its front matter has its lines tidied: none
that says anything is lost or moved, fenced blocks keep their empty lines and are closed, and
outside them paragraphs are parted by single empty lines, of which headings have one before them.
The lines are each closed by a line feed, and nothing follows the last. -/
theorem lint_tidied (cs : List Char) :
    ∃ result, lint cs = joinWith ['\n'] result ++ ['\n'] ∧ (∀ line ∈ result, '\n' ∉ line) ∧
      Tidied (sourceOf (bodyOf cs)) result ∧
      (lint cs = ['\n'] ∨ ∃ front c, lint cs = front ++ [c, '\n'] ∧ c ≠ '\n') := by
  have htidied := tidied_linesOf (bodyOf cs)
  have hlines := newline_not_mem_linesOf (bodyOf cs)
  refine ⟨linesOf (bodyOf cs), rfl, hlines, htidied, ?_⟩
  by_cases hne : linesOf (bodyOf cs) = []
  · left
    rw [lint, hne]
    rfl
  · right
    obtain ⟨front, c, hjoined, hc⟩ := exists_joinWith_eq hne hlines htidied.ends.2
    refine ⟨front, c, ?_, hc⟩
    rw [lint, hjoined, List.append_assoc]
    rfl

/-- A shorter fence inside a block is a line of it, and so are what looks like a heading and the
empty lines around. -/
example : lint "\n\na \n# b\n\n\n````ts\n```\n\n\n# c\n".toList
    = "a\n\n# b\n\n````ts\n```\n\n\n# c\n````\n".toList := by
  decide +kernel

end Docwright.Page.Lint
