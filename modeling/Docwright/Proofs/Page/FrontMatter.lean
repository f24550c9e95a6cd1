import Docwright.Page.FrontMatter
import Docwright.Proofs.Page.Slug
import Docwright.Proofs.Text.Blank
import Docwright.Proofs.Text.Lines
import Mathlib.Data.List.TakeDrop

/-!
# Front matter reads back

`split_blockText`: whatever block is written, and whatever text follows it, `split` takes exactly
that block off and reads the three fields back, the title on one line. A block is written for every
id and every title, but only for places of at most 4300 digits (`render_readsBack`).

The block is three lines between delimiters, so reading it falls apart into one fact about lines
(`field?_line`) and one about values: `unescape_escape`, dropping the backslashes that were put in.
The writer escapes first and puts the title on one line afterwards; no line boundary is escaped and
none is produced, so the two steps commute (`value_eq`), and it is the title on one line whose
backslashes come and go.
-/

namespace Docwright.Page.FrontMatter

open Text

/-! ### Values -/

theorem ne_newline_of_mem_escaped {c : Char} (hc : c ∈ escaped) : c ≠ '\n' := fun h ↦
  absurd (h ▸ hc) (by decide)

theorem escape_cons_of_mem {c : Char} (hc : c ∈ escaped) (cs : List Char) :
    escape (c :: cs) = '\\' :: c :: escape cs := by
  rw [escape, List.flatMap_cons, if_pos (by simpa using hc)]
  rfl

theorem escape_cons_of_not_mem {c : Char} (hc : c ∉ escaped) (cs : List Char) :
    escape (c :: cs) = c :: escape cs := by
  rw [escape, List.flatMap_cons, if_neg (by simpa using hc)]
  rfl

theorem escape_append (a b : List Char) : escape (a ++ b) = escape a ++ escape b :=
  List.flatMap_append

/-- **Dropping the backslashes gives the text back.** -/
theorem unescape_escape (cs : List Char) : unescape (escape cs) = cs := by
  induction cs with
  | nil => rfl
  | cons c cs ih =>
    by_cases hc : c ∈ escaped
    · rw [escape_cons_of_mem hc, unescape, if_pos (by simp [ne_newline_of_mem_escaped hc]), ih]
    · have hslash : c ≠ '\\' := by
        rintro rfl
        exact hc (by decide)
      rw [escape_cons_of_not_mem hc]
      cases hrest : escape cs with
      | nil =>
        rw [hrest] at ih
        rw [unescape, ← ih, unescape]
      | cons d ds =>
        rw [hrest] at ih
        rw [unescape, if_neg (by simp [hslash]), ih]

theorem unescape_eq_self {cs : List Char} (h : '\\' ∉ cs) : unescape cs = cs := by
  fun_induction unescape cs with
  | case1 => rfl
  | case2 c => rfl
  | case3 c d rest hc ih => simp_all
  | case4 c d rest hc ih => rw [ih fun hmem ↦ h (List.mem_cons_of_mem _ hmem)]

/-- No line feed appears at the start by escaping, and none is hidden. -/
theorem head?_escape_eq_newline (cs : List Char) :
    ((escape cs).head? == some '\n') = (cs.head? == some '\n') := by
  cases cs with
  | nil => rfl
  | cons c cs =>
    by_cases hc : c ∈ escaped
    · simp [escape_cons_of_mem hc, ne_newline_of_mem_escaped hc]
    · simp [escape_cons_of_not_mem hc]

theorem consFirst_map_escape {c : Char} (hc : c ∉ escaped) (parts : List (List Char)) :
    consFirst c (parts.map escape) = (consFirst c parts).map escape := by
  cases parts with
  | nil => rw [consFirst, List.map_singleton, escape_cons_of_not_mem hc]; rfl
  | cons part parts => simp [consFirst, escape_cons_of_not_mem hc]

theorem consFirst_slash_map_escape {c : Char} (hc : c ∈ escaped) (parts : List (List Char)) :
    consFirst '\\' (consFirst c (parts.map escape)) = (consFirst c parts).map escape := by
  cases parts with
  | nil => rw [consFirst, List.map_singleton, escape_cons_of_mem hc]; rfl
  | cons part parts => simp [consFirst, escape_cons_of_mem hc]

/-- Escaping changes no line boundary, so the lines of an escaped text are the escaped lines. -/
theorem lines_escape (cs : List Char) : lines (escape cs) = (lines cs).map escape := by
  induction cs with
  | nil => rfl
  | cons c cs ih =>
    rw [lines_cons c cs]
    -- an escaped sign is no line boundary, so its line gets both characters at its head
    by_cases hc : c ∈ escaped
    · have hplain : escaped.all (fun d ↦ !isLineBreak d && d != '\r') = true := by decide
      obtain ⟨hbreak, hreturn⟩ : isLineBreak c = false ∧ (c == '\r') = false := by
        simpa using List.all_eq_true.1 hplain c hc
      rw [escape_cons_of_mem hc, lines_cons, lines_cons, ih]
      simp only [hbreak, hreturn, Bool.false_and, Bool.false_eq_true, if_false]
      rw [← consFirst_slash_map_escape hc]
      rfl
    · rw [escape_cons_of_not_mem hc, lines_cons, head?_escape_eq_newline, ih]
      by_cases hpair : (c == '\r' && cs.head? == some '\n') = true
      · rw [if_pos hpair, if_pos hpair]
      · rw [if_neg hpair, if_neg hpair]
        by_cases hbreak : isLineBreak c = true
        · rw [if_pos hbreak, if_pos hbreak]
          rfl
        · rw [if_neg hbreak, if_neg hbreak, consFirst_map_escape hc]

theorem escape_joinWith (parts : List (List Char)) :
    escape (joinWith [' '] parts) = joinWith [' '] (parts.map escape) := by
  unfold joinWith
  induction parts with
  | nil => rfl
  | cons part parts ih =>
    cases parts with
    | nil => simp
    | cons next parts =>
      rw [List.intercalate_cons_cons, escape_append, escape_append, ih, List.map_cons,
        List.map_cons, List.map_cons, List.intercalate_cons_cons]
      rfl

/-- **Escaping and putting on one line commute.** -/
theorem value_eq (cs : List Char) : value cs = escape (oneLine cs) := by
  rw [value, oneLine, oneLine, lines_escape, escape_joinWith]

theorem unescape_value (cs : List Char) : unescape (value cs) = oneLine cs := by
  rw [value_eq, unescape_escape]

/-- A value stands on one line. -/
theorem isLineBreak_of_mem_value (cs : List Char) : ∀ c ∈ value cs, isLineBreak c = false :=
  isLineBreak_of_mem_oneLine _

/-- Quotes around a value are no part of it. -/
theorem unquote_quoted (cs : List Char) : unquote ('"' :: (cs ++ ['"'])) = cs := by
  simp [unquote]

/-! ### Lines of the block -/

/-- **A line with a name and a value is read as that name and value.** The name is not to hold a
colon, and neither is to have blanks at its ends. -/
theorem field?_line {name raw : List Char} (hcolon : ':' ∉ name) (hne : name ≠ [])
    (hname : strip name = name) (hraw : strip raw = raw) :
    field? (name ++ ':' :: ' ' :: raw)
      = some (String.ofList name, String.ofList (unescape (unquote raw))) := by
  -- the first colon is the one behind the name
  have hspan : (name ++ ':' :: ' ' :: raw).span (· != ':') = (name, ':' :: ' ' :: raw) := by
    have hall : ∀ c ∈ name, (c != ':') = true := fun c hc ↦ by
      simpa using fun h : c = ':' ↦ hcolon (h ▸ hc)
    rw [List.span_eq_takeWhile_dropWhile, List.takeWhile_append_of_pos hall,
      List.dropWhile_append_of_pos hall]
    simp
  rw [field?, hspan]
  simp only [hname, strip_space_cons, hraw]
  rw [if_neg (by simpa using hne)]

/-- The line of a quoted value. -/
theorem strip_quoted (cs : List Char) : strip ('"' :: (cs ++ ['"'])) = '"' :: (cs ++ ['"']) := by
  refine strip_eq_self (fun c hc ↦ ?_) fun c hc ↦ ?_
  · rw [← Option.some.inj hc]
    decide
  · rw [show '"' :: (cs ++ ['"']) = ('"' :: cs) ++ ['"'] from rfl, List.getLast?_concat] at hc
    rw [← Option.some.inj hc]
    decide

/-- What the decimal form of a whole number is made of. -/
theorem mem_toList_toString {n : Int} {c : Char} (h : c ∈ (toString n).toList) :
    c.isDigit = true ∨ c = '-' := by
  have hnat : ∀ m : Nat, c ∈ m.repr.toList → c.isDigit = true := fun m hm ↦ by
    rw [Nat.toList_repr] at hm
    exact Nat.isDigit_of_mem_toDigits (by decide) (by decide) hm
  cases n with
  | ofNat m => exact Or.inl (hnat m h)
  | negSucc m =>
    rw [show toString (Int.negSucc m) = "-" ++ (m + 1).repr from rfl, String.toList_append] at h
    rcases List.mem_append.1 h with h | h
    · exact Or.inr (by simpa using h)
    · exact Or.inl (hnat _ h)

theorem strip_toString (n : Int) : strip (toString n).toList = (toString n).toList := by
  have hblank : ∀ c ∈ (toString n).toList, isBlank c = false := fun c hc ↦ by
    rcases mem_toList_toString hc with h | rfl
    · exact forall_isDigit (p := fun d ↦ isBlank d = false) (by decide) h
    · decide
  exact strip_eq_self (fun c hc ↦ hblank c (List.mem_of_mem_head? hc))
    fun c hc ↦ hblank c (List.mem_of_getLast? hc)

theorem unquote_toString (n : Int) : unquote (toString n).toList = (toString n).toList := by
  cases hcs : (toString n).toList with
  | nil => rfl
  | cons c cs =>
    have hquote : c ≠ '"' ∧ c ≠ '\'' := by
      rcases mem_toList_toString (hcs ▸ List.mem_cons_self : c ∈ (toString n).toList) with h | rfl
      · constructor <;> rintro rfl <;> cases h
      · decide
    simp [unquote, hquote.1, hquote.2]

/-! ### The whole block -/

/-- The line of a field: its name, a colon, a blank and its value. -/
def fieldLine (name raw : List Char) : List Char :=
  name ++ ':' :: ' ' :: raw

/-- The three lines that stand between the delimiters. -/
def block (id title : String) (position : Int) : List (List Char) :=
  [fieldLine "id".toList ('"' :: (slug id.toList ++ ['"'])),
    fieldLine "title".toList ('"' :: (value title.toList ++ ['"'])),
    fieldLine "sidebar_position".toList (toString position).toList]

/-- The text of the block: its lines between two delimiters, each with a line feed. -/
theorem blockText_eq (id title : String) (position : Int) :
    blockText id title position
      = (delimiter :: (block id title position ++ [delimiter])).flatMap (· ++ ['\n']) := by
  simp [blockText, block, fieldLine]

/-- A field's line is on one line if its value is. -/
theorem not_mem_fieldLine {name raw : List Char} {c : Char} (hname : c ∉ name) (hcolon : c ≠ ':')
    (hspace : c ≠ ' ') (hraw : c ∉ raw) : c ∉ fieldLine name raw := by
  simp [fieldLine, hname, hcolon, hspace, hraw]

/-- A line with a colon does not close the block. -/
theorem closes_fieldLine (name raw : List Char) : closes (fieldLine name raw) = false := by
  have hcolon : ':' ∈ strip (fieldLine name raw) :=
    mem_strip (by decide) (by simp [fieldLine])
  have hdelimiter : ':' ∉ delimiter := by decide
  rw [closes, beq_eq_false_iff_ne]
  exact fun h ↦ hdelimiter (h ▸ hcolon)

/-- No line of the block holds a line feed or a carriage return. -/
theorem not_mem_of_mem_block {id title : String} {position : Int} {c : Char}
    (hc : c = '\n' ∨ c = '\r') : ∀ line ∈ block id title position, c ∉ line := by
  have hbreak : isLineBreak c = true := by rcases hc with rfl | rfl <;> decide
  have hslug : c ∉ slug id.toList :=
    (isSlug_slug _).not_mem (by rcases hc with rfl | rfl <;> decide)
  have hvalue : c ∉ value title.toList := fun hmem ↦ by
    rw [isLineBreak_of_mem_value _ c hmem] at hbreak
    cases hbreak
  have hnumber : c ∉ (toString position).toList := fun hmem ↦ by
    rcases mem_toList_toString hmem with h | h <;> rcases hc with rfl | rfl <;> cases h
  have hplain : c ∉ "id".toList ∧ c ∉ "title".toList ∧ c ∉ "sidebar_position".toList ∧ c ≠ ':' ∧
      c ≠ ' ' ∧ c ≠ '"' := by
    rcases hc with rfl | rfl <;> decide
  obtain ⟨hid, htitle, hposition, hcolon, hspace, hquote⟩ := hplain
  simp only [block, List.forall_mem_cons, List.not_mem_nil, false_imp_iff, implies_true, and_true]
  exact ⟨not_mem_fieldLine hid hcolon hspace (by simp [hslug, hquote]),
    not_mem_fieldLine htitle hcolon hspace (by simp [hvalue, hquote]),
    not_mem_fieldLine hposition hcolon hspace hnumber⟩

/-- The fields that the block is read as. -/
theorem fieldsOf_block (id title : String) (position : Int) :
    fieldsOf (block id title position)
      = [("id", slugOf id), ("title", String.ofList (oneLine title.toList)),
        ("sidebar_position", toString position)] := by
  have hid : field? (fieldLine "id".toList ('"' :: (slug id.toList ++ ['"'])))
      = some ("id", slugOf id) := by
    rw [fieldLine, field?_line (by decide) (by decide) (by decide) (strip_quoted _),
      unquote_quoted, unescape_eq_self ((isSlug_slug _).not_mem (by decide)), String.ofList_toList]
    rfl
  have htitle : field? (fieldLine "title".toList ('"' :: (value title.toList ++ ['"'])))
      = some ("title", String.ofList (oneLine title.toList)) := by
    rw [fieldLine, field?_line (by decide) (by decide) (by decide) (strip_quoted _),
      unquote_quoted, unescape_value, String.ofList_toList]
  have hposition : field? (fieldLine "sidebar_position".toList (toString position).toList)
      = some ("sidebar_position", toString position) := by
    rw [fieldLine, field?_line (by decide) (by decide) (by decide) (strip_toString _),
      unquote_toString, unescape_eq_self, String.ofList_toList, String.ofList_toList]
    exact fun h ↦ by rcases mem_toList_toString h with h | h <;> cases h
  rw [fieldsOf, block, List.filterMap_cons_some hid, List.filterMap_cons_some htitle,
    List.filterMap_cons_some hposition, List.filterMap_nil]
  simp [setField]

/-- No line of the whole block, delimiters included, holds a line feed or a carriage return. -/
theorem not_mem_of_mem_lines {id title : String} {position : Int} {c : Char}
    (hc : c = '\n' ∨ c = '\r') :
    ∀ line ∈ delimiter :: (block id title position ++ [delimiter]), c ∉ line := by
  have hdelimiter : c ∉ delimiter := by rcases hc with rfl | rfl <;> decide
  simp only [List.forall_mem_cons, List.forall_mem_append]
  exact ⟨hdelimiter, not_mem_of_mem_block hc, hdelimiter, by simp⟩

theorem not_mem_blockText (id title : String) (position : Int) :
    '\r' ∉ blockText id title position := by
  rw [blockText_eq, List.mem_flatMap]
  rintro ⟨line, hline, hmem⟩
  exact not_mem_of_mem_lines (Or.inr rfl) line hline (by simpa using hmem)

/-- **The block that was written is taken off and its fields are read back**, whatever follows. -/
theorem split_blockText (id title : String) (position : Int) (rest : List Char) :
    split (blockText id title position ++ rest)
      = ([("id", slugOf id), ("title", String.ofList (oneLine title.toList)),
        ("sidebar_position", toString position)], pairsToNewline rest) := by
  have hclosed : closes delimiter = true := by decide
  -- no line of the block closes it, so the first delimiter behind it does
  have hspan : (block id title position ++ delimiter :: splitOn '\n' (pairsToNewline rest)).span
      (fun line ↦ !closes line)
        = (block id title position, delimiter :: splitOn '\n' (pairsToNewline rest)) := by
    have hopen : ∀ line ∈ block id title position, (!closes line) = true := by
      simp [block, closes_fieldLine]
    rw [List.span_eq_takeWhile_dropWhile, List.takeWhile_append_of_pos hopen,
      List.dropWhile_append_of_pos hopen]
    simp [hclosed]
  rw [split, pairsToNewline_append (not_mem_blockText id title position), blockText_eq,
    splitOn_flatMap (not_mem_of_mem_lines (Or.inl rfl))]
  simp only [List.cons_append, List.append_assoc, List.nil_append, beq_self_eq_true, Bool.true_and]
  rw [if_pos (by simp [block]), hspan]
  simp only [fieldsOf_block, joinWith_splitOn]

/-- Writing an id that is a slug already, and a title that is on one line, makes no difference. -/
theorem blockText_slugOf_oneLine (id title : String) (position : Int) :
    blockText (slugOf id) (String.ofList (oneLine title.toList)) position
      = blockText id title position := by
  have hid : slug (slugOf id).toList = slug id.toList := by
    rw [slug_eq_self (isSlug_slugOf id), slugOf, onChars, String.toList_ofList]
  have htitle : value (String.ofList (oneLine title.toList)).toList = value title.toList := by
    rw [String.toList_ofList, value_eq, value_eq, oneLine_eq_self (isLineBreak_of_mem_oneLine _)]
  rw [blockText, hid, htitle, ← blockText]

/-! ### Writing and reading back -/

theorem render_of_le {position : Int} (h : Nat.pow 10 Number.digitLimit ≤ position.natAbs)
    (id title : String) : render id title position = .error .tooLongToWrite :=
  if_pos (Number.isTooLong_iff.mpr h)

/-- From the first number that is too long, places are not written. -/
theorem render_ofNat_of_le {n : Nat} (h : Nat.pow 10 Number.digitLimit ≤ n) (id title : String) :
    render id title (Int.ofNat n) = .error .tooLongToWrite := by
  have hlong : Nat.pow 10 Number.digitLimit ≤ (Int.ofNat n).natAbs := h
  exact render_of_le hlong id title

theorem render_of_lt {position : Int} (h : position.natAbs < Nat.pow 10 Number.digitLimit)
    (id title : String) : render id title position = .ok (blockText id title position) :=
  if_neg (mt Number.isTooLong_iff.mp (Nat.not_le.mpr h))

/-- **What is written reads back**, for every id, title and place and every text behind the block.
Nothing is written for a place of more than 4300 digits. Otherwise there are exactly three fields:
the id as a slug, the title with single spaces between its lines, and the place in decimal form. The
text comes back with a line feed in place of each carriage return that has one behind it. Nothing
else is lost: writing the fields again gives the same block. -/
theorem render_readsBack (id title : String) (position : Int) (text : List Char) :
    (Nat.pow 10 Number.digitLimit ≤ position.natAbs →
      render id title position = .error .tooLongToWrite) ∧
    (position.natAbs < Nat.pow 10 Number.digitLimit →
      ∃ written parts, render id title position = .ok written ∧
        text = joinWith ['\r', '\n'] parts ∧ (∀ part ∈ parts, ¬['\r', '\n'] <:+: part) ∧
        split (written ++ text)
          = ([("id", slugOf id), ("title", String.ofList (joinWith [' '] (lines title.toList))),
            ("sidebar_position", toString position)], joinWith ['\n'] parts) ∧
        render (slugOf id) (String.ofList (joinWith [' '] (lines title.toList))) position
          = .ok written) := by
  refine ⟨fun hlong ↦ render_of_le hlong id title, fun hshort ↦ ?_⟩
  obtain ⟨parts, htext, hparts, hunified⟩ := exists_pairsToNewline_eq text
  refine ⟨blockText id title position, parts, render_of_lt hshort id title, htext, hparts, ?_, ?_⟩
  · rw [split_blockText, hunified, oneLine]
  · rw [render_of_lt hshort]
    exact congrArg Except.ok (blockText_slugOf_oneLine id title position)

/-- A title with quotes, backslashes, a colon, a delimiter and blanks at its ends. -/
theorem render_readsBack_quotes :
    ∃ written, render "My Doc" "\n\\\"a\": [\\n]\r\n---\n b " (-3) = .ok written ∧
      (split (written ++ "x\r\ny".toList)).1
        = [("id", "my-doc"), ("title", " \\\"a\": [\\n] ---  b "), ("sidebar_position", "-3")] := by
  have hpow (n : Nat) : n < Nat.pow 10 n := Nat.lt_pow_self (by decide)
  have hshort : (-3 : Int).natAbs < Nat.pow 10 Number.digitLimit :=
    Nat.lt_trans (by decide : 3 < Number.digitLimit) (hpow Number.digitLimit)
  obtain ⟨written, parts, hwritten, -, -, hsplit, -⟩ :=
    (render_readsBack "My Doc" "\n\\\"a\": [\\n]\r\n---\n b " (-3) "x\r\ny".toList).2 hshort
  have hfields : [("id", slugOf "My Doc"),
      ("title", String.ofList (joinWith [' '] (lines "\n\\\"a\": [\\n]\r\n---\n b ".toList))),
      ("sidebar_position", toString (-3))]
        = [("id", "my-doc"), ("title", " \\\"a\": [\\n] ---  b "), ("sidebar_position", "-3")] := by
    decide +kernel
  refine ⟨written, hwritten, ?_⟩
  rw [hsplit]
  exact hfields

/-- **A place that is too long is not written**, whatever the id and the title. -/
theorem render_longest :
    render "a" "b" (Int.ofNat (Nat.pow 10 Number.digitLimit)) = .error .tooLongToWrite ∧
      ¬∃ written, render "a" "b" (Int.ofNat (Nat.pow 10 Number.digitLimit)) = .ok written := by
  have hcrash : render "a" "b" (Int.ofNat (Nat.pow 10 Number.digitLimit))
      = .error .tooLongToWrite :=
    render_ofNat_of_le (Nat.le_refl _) "a" "b"
  refine ⟨hcrash, ?_⟩
  rintro ⟨written, hwritten⟩
  rw [hcrash] at hwritten
  cases hwritten

/-- Splitting adds no characters to what it leaves, except line feeds. -/
theorem mem_of_mem_split {c : Char} (hc : c ≠ '\n') {cs : List Char} (h : c ∈ (split cs).2) :
    c ∈ cs := by
  simp only [split] at h
  split at h
  · rename_i first rest hlines
    split at h
    · split at h
      · rename_i block closing body hspan
        rw [List.span_eq_takeWhile_dropWhile, Prod.mk.injEq] at hspan
        have hbody : ∀ part ∈ body, part ∈ splitOn '\n' (pairsToNewline cs) := fun part hpart ↦ by
          have hdrop := List.dropWhile_suffix (l := rest) fun line ↦ !closes line
          rw [hspan.2] at hdrop
          rw [hlines]
          exact List.mem_cons_of_mem _ (hdrop.subset (List.mem_cons_of_mem _ hpart))
        by_contra hnot
        refine forall_mem_joinWith (p := (· ≠ c)) (by simpa using hc.symm)
          (fun part hpart d hd hdc ↦ hnot ?_) c h rfl
        exact mem_of_mem_pairsToNewline (hdc ▸ mem_of_mem_splitOn (hbody part hpart) hd)
      · exact h
    · exact h
  · exact h

end Docwright.Page.FrontMatter
