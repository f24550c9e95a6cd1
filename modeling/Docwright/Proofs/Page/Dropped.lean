import Docwright.Proofs.Page.Opening
import Docwright.Proofs.Page.Prose

/-!
# What linting drops

Linting works on what splitting leaves of a text, so the lines that get lost are those of the block
that the text opens with (`parts_of_opens`), and where there is none they are all kept
(`parts_of_not_opens`). `Parts` says which lines these are by comparing the text with the result:
blank lines aside, the lines of the text are those that are dropped and then those that are kept,
and the result has the latter and perhaps one line that closes a fence.

Splitting reads the fields of the block, and linting does not look at them. So a text whose block
holds no field, because it stands between two rules, loses it all the same: `Spares` says that only
front matter gets lost, and `spares_iff` for which texts this is so.
-/

namespace Docwright.Page.Lint

open Text FrontMatter

variable {cs closer : List Char} {block rest dropped kept : List (List Char)}

/-! ### The text that is linted -/

/-- The lines of a text behind the line feeds at its start. -/
def textLines (cs : List Char) : List (List Char) :=
  splitOn '\n' ((unifyNewlines cs).dropWhile (· == '\n'))

theorem solid_nil_cons (lines : List (List Char)) : solid ([] :: lines) = solid lines :=
  List.filter_cons_of_neg (by simp)

/-- The line feeds at the start of a text only add blank lines to it. -/
theorem solid_sourceOf_dropWhile (cs : List Char) :
    solid (sourceOf (cs.dropWhile (· == '\n'))) = solid (sourceOf cs) := by
  induction cs with
  | nil => rfl
  | cons c cs ih =>
    by_cases hc : c = '\n'
    · have hsplit : splitOn '\n' (c :: cs) = [] :: splitOn '\n' cs := by
        rw [hc]
        exact splitOn_append_cons List.not_mem_nil cs
      rw [List.dropWhile_cons_of_pos (by simpa using hc), ih, sourceOf, sourceOf, hsplit,
        List.map_cons]
      exact (solid_nil_cons _).symm
    · rw [List.dropWhile_cons_of_neg (by simpa using hc)]

theorem solid_sourceOf_joinWith {lines : List (List Char)} (h : ∀ line ∈ lines, '\n' ∉ line) :
    solid (sourceOf (joinWith ['\n'] lines)) = solid (lines.map stripRight) := by
  cases lines with
  | nil => rfl
  | cons line lines => rw [sourceOf, splitOn_joinWith h (List.cons_ne_nil _ _)]

theorem not_mem_dropWhile_unifyNewlines (cs : List Char) :
    '\r' ∉ (unifyNewlines cs).dropWhile (· == '\n') :=
  fun hmem ↦ not_mem_unifyNewlines cs ((List.dropWhile_suffix _).subset hmem)

/-- Without a block at its start the text is linted as a whole. -/
theorem bodyOf_of_not_opens (h : ∀ block closer rest, ¬Opens (textLines cs) block closer rest) :
    bodyOf cs = (unifyNewlines cs).dropWhile (· == '\n') := by
  rw [bodyOf, split_of_not_opens]
  rwa [pairsToNewline_eq_self (not_mem_dropWhile_unifyNewlines cs)]

/-- Of a text with a block at its start the rest is linted. -/
theorem solid_sourceOf_bodyOf (h : Opens (textLines cs) block closer rest) :
    solid (sourceOf (bodyOf cs)) = solid (rest.map stripRight) := by
  have hbody : bodyOf cs = joinWith ['\n'] rest := by
    rw [textLines, ← pairsToNewline_eq_self (not_mem_dropWhile_unifyNewlines cs)] at h
    rw [bodyOf, split_of_opens h]
  rw [hbody, solid_sourceOf_joinWith]
  intro line hline
  have hmem : line ∈ textLines cs := by
    rw [h.eq]
    simp [hline]
  exact not_mem_of_mem_splitOn hmem

/-- Cutting a linted text at its line feeds gives the linted lines, blank ones aside. -/
theorem solid_splitOn_lint (cs : List Char) :
    solid (splitOn '\n' (lint cs)) = solid (linesOf (bodyOf cs)) :=
  filter_splitOn_joinWith rfl (newline_not_mem_linesOf _)

theorem solid_lint (cs : List Char) :
    solid (splitOn '\n' (lint cs)) = solid (sourceOf (bodyOf cs)) ++
      closing (openAfter (solid (sourceOf (bodyOf cs)))) := by
  have hopen : openAfter (solid (sourceOf (bodyOf cs))) = openAfter (sourceOf (bodyOf cs)) :=
    foldl_fenceAfter_solid _ none
  rw [solid_splitOn_lint, solid_linesOf, hopen]

/-! ### Lines that are dropped and lines that are kept -/

/-- The lines of a text, blank ones aside, are those that linting drops, followed by those that it
keeps; to these it adds nothing but the line that closes a fence. -/
structure Parts (cs : List Char) (dropped kept : List (List Char)) : Prop where
  source : solid (sourceOf (unifyNewlines cs)) = dropped ++ kept
  result : solid (splitOn '\n' (lint cs)) = kept ++ closing (openAfter kept)

/-- The lines of a block with the two around it, blank ones aside. -/
def framed (block : List (List Char)) (closer : List Char) : List (List Char) :=
  solid ((delimiter :: (block ++ [closer])).map stripRight)

/-- **A block that a text opens with is dropped**, and everything behind it is kept. -/
theorem parts_of_opens (h : Opens (textLines cs) block closer rest) :
    Parts cs (framed block closer) (solid (rest.map stripRight)) where
  source := by
    have hlines : sourceOf ((unifyNewlines cs).dropWhile (· == '\n'))
        = (delimiter :: (block ++ [closer])).map stripRight ++ rest.map stripRight := by
      rw [sourceOf, ← textLines, h.eq]
      simp
    rw [← solid_sourceOf_dropWhile, hlines, solid_append]
    rfl
  result := by rw [solid_lint, solid_sourceOf_bodyOf h]

/-- **A text that opens with none keeps all its lines.** -/
theorem parts_of_not_opens (h : ∀ block closer rest, ¬Opens (textLines cs) block closer rest) :
    Parts cs [] (solid (sourceOf (unifyNewlines cs))) where
  source := rfl
  result := by rw [solid_lint, bodyOf_of_not_opens h, solid_sourceOf_dropWhile]

theorem stripRight_ne_nil_of_closes (h : closes closer = true) : stripRight closer ≠ [] := by
  intro hnil
  have hblank : ∀ c ∈ closer, isBlank c = true := List.rdropWhile_eq_nil_iff.1 hnil
  exact absurd (hblank '-' (dash_mem_of_closes h)) (by decide)

/-- A block takes two lines at least. -/
theorem two_le_length_framed (h : closes closer = true) : 2 ≤ (framed block closer).length := by
  have hfirst : stripRight delimiter = delimiter := by decide
  rw [framed, List.map_cons, List.map_append, List.map_singleton, hfirst,
    solid_cons (by decide), solid_append, solid_cons (stripRight_ne_nil_of_closes h)]
  simp only [List.length_cons, List.length_append]
  omega

theorem length_closing_le (opened : Option Nat) : (closing opened).length ≤ 1 := by
  cases opened <;> simp [closing]

/-- Whoever drops a block cannot do without it: the lines of the result are too few. -/
theorem Parts.ne_nil_of_opens (h : Opens (textLines cs) block closer rest)
    (hparts : Parts cs dropped kept) : dropped ≠ [] := by
  rintro rfl
  obtain ⟨hsource, hresult⟩ := parts_of_opens h
  have hkept := hparts.source.symm.trans hsource
  have hlength := congrArg List.length (hparts.result.symm.trans hresult)
  have htwo : 2 ≤ (framed block closer).length := two_le_length_framed h.closed
  have hone := length_closing_le (openAfter (solid (rest.map stripRight)))
  rw [List.nil_append] at hkept
  rw [hkept] at hlength
  simp only [List.length_append] at hlength
  omega

/-! ### Front matter -/

/-- Linting drops nothing but front matter: all lines that get lost are lines of a block at the
start of the text, and a line of the block is read as a field. -/
def Spares (cs : List Char) : Prop :=
  ∃ dropped kept, Parts cs dropped kept ∧
    (dropped ≠ [] → ∃ block closer rest, Opens (textLines cs) block closer rest ∧
      dropped <+: framed block closer ∧ ∃ line ∈ block, (field? line).isSome)

/-- **What linting drops**, for every text. If the text opens with a block, exactly the lines of the
block get lost, and if it does not, none. So nothing but front matter gets lost if and only if the
block, where there is one, holds a field. -/
theorem spares_iff (cs : List Char) :
    (∃ dropped kept, Parts cs dropped kept ∧
      ((dropped = [] ∧ ∀ block closer rest, ¬Opens (textLines cs) block closer rest) ∨
        ∃ block closer rest, Opens (textLines cs) block closer rest ∧
          dropped = framed block closer)) ∧
      (Spares cs ↔ ∀ block closer rest, Opens (textLines cs) block closer rest →
        ∃ line ∈ block, (field? line).isSome) := by
  by_cases hopens : ∃ block closer rest, Opens (textLines cs) block closer rest
  case pos =>
    obtain ⟨block, closer, rest, h⟩ := hopens
    have hparts := parts_of_opens h
    refine ⟨⟨_, _, hparts, .inr ⟨block, closer, rest, h, rfl⟩⟩, ?_, fun hfield ↦ ?_⟩
    · rintro ⟨dropped, kept, hother, hlost⟩ block' closer' rest' h'
      obtain ⟨block'', closer'', rest'', h'', -, hfield⟩ := hlost (hother.ne_nil_of_opens h)
      rwa [(h'.eq_of_opens h'').1]
    · exact ⟨_, _, hparts, fun _ ↦ ⟨block, closer, rest, h, List.prefix_refl _, hfield _ _ _ h⟩⟩
  case neg =>
    simp only [not_exists] at hopens
    have hparts := parts_of_not_opens hopens
    exact ⟨⟨_, _, hparts, .inl ⟨rfl, hopens⟩⟩, fun _ block closer rest h ↦
      absurd h (hopens block closer rest), fun _ ↦ ⟨_, _, hparts, fun hne ↦ absurd rfl hne⟩⟩

/-- A page that begins with a rule, and has another one further down. -/
def ruled : List Char := "---\n\nIntro\n\n---\n\nBody\n".toList

/-- What stands between the two rules gets lost. -/
theorem not_spares_ruled : lint ruled = "Body\n".toList ∧ ¬Spares ruled := by
  have hopens : Opens (textLines ruled) [[], "Intro".toList, []] delimiter
      [[], "Body".toList, []] :=
    ⟨by decide +kernel, by decide +kernel, by decide +kernel⟩
  refine ⟨by decide +kernel, fun hspares ↦ ?_⟩
  obtain ⟨line, hline, hfield⟩ := (spares_iff ruled).2.1 hspares _ _ _ hopens
  have hnone : ∀ line ∈ [[], "Intro".toList, []], field? line = none := by decide +kernel
  rw [hnone line hline] at hfield
  cases hfield

end Docwright.Page.Lint
