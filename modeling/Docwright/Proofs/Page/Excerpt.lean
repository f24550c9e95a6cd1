import Docwright.Proofs.Page.Dropped
import Docwright.Proofs.Page.Fallback
import Docwright.Proofs.Page.Fence
import Docwright.Proofs.Site.Overview

/-!
# The page of a file without the service

The page of a file is made from its symbols and the start of its source, and it is linted like any
other page. What comes out of that is said by `endsFenced_lint_page`: the excerpt is the only fenced
block and the end of the page, its lines are those of the source up to the blanks at their ends, and
before it the symbols stand as bullets, in the order of the walk and indented by level.

The page is put together from lines, so the proof goes through them (`splitOn_page`). All but the
excerpt are a line each, because what they show of the unit is (`onOneLine_introLines`). None of the
lines before the excerpt is a fence, and only the bullets look like bullets (`fence?_introLine`,
`filter_isBullet_introLines`). The rest is the block, for which any text will do.
-/

namespace Docwright.Page.Fallback

open Text Lint
open Site (OnOneLine)

variable {u : PageUnit} {reason : Option String} {path : String} {files : List String}

/-! ### Parts of the page -/

/-- What is shown of the source: its start without the blanks at the end. -/
def excerptOf (u : PageUnit) : List Char :=
  stripRight (u.content.toList.take excerptLength)

/-- The number of ticks around the excerpt. -/
def excerptTicks (u : PageUnit) : Nat :=
  max 3 (longestTicks (excerptOf u) + 1)

/-- The lines between the fences: those of the excerpt and dots when there is more of the source. -/
def innerLines (u : PageUnit) : List (List Char) :=
  sourceOf (unifyNewlines (excerptOf u)) ++
    if excerptLength < u.content.toList.length then [['.', '.', '.']] else []

/-- The lines before the fence of the excerpt. -/
def introLines (u : PageUnit) (reason : Option String) : List String :=
  headLines u reason ++ u.outlines.flatMap fileLines ++ ["", "## Source Excerpt", ""]

theorem pageLines_of_file (hkind : u.kind = .file) (hfiles : u.files = path :: files) :
    pageLines u reason = introLines u reason ++
      [fenceFor (excerptOf u) ++ Source.fenceWord (Source.languageName path),
        String.ofList (excerptOf u)] ++
      (if excerptLength < u.content.toList.length then ["..."] else []) ++
      [fenceFor (excerptOf u)] := by
  rw [pageLines, hkind, hfiles]
  simp only [excerptLines, introLines, excerptOf, List.append_assoc, List.cons_append,
    List.nil_append]

/-- A character put behind a text some times. -/
theorem toList_pushn (c : Char) (n : Nat) : ("".pushn c n).toList = List.replicate n c := by
  rw [String.pushn_eq_repeat_push]
  induction n with
  | zero => rfl
  | succ n ih => rw [Nat.repeat, String.toList_push, ih, List.replicate_succ']

theorem toList_fenceFor (cs : List Char) :
    (fenceFor cs).toList = List.replicate (max 3 (longestTicks cs + 1)) '`' :=
  toList_pushn _ _

/-! ### Each line on its own -/

/-- A text on one line is its only line. -/
theorem splitOn_unifyNewlines_of_onOneLine {line : String} (h : OnOneLine line) :
    splitOn '\n' (unifyNewlines line.toList) = [line.toList] := by
  have hreturn : '\r' ∉ line.toList := fun hmem ↦ (h _ hmem).1 rfl
  have hbreak : '\n' ∉ line.toList := fun hmem ↦ (h _ hmem).2 rfl
  rw [unifyNewlines_eq_self hreturn]
  simpa [joinWith] using
    splitOn_joinWith (List.forall_mem_singleton.2 hbreak) (List.cons_ne_nil _ _)

theorem getLast?_ne_of_onOneLine {line : String} (h : OnOneLine line) :
    line.toList.getLast? ≠ some '\r' :=
  fun hlast ↦ (h _ (List.mem_of_getLast? hlast)).1 rfl

theorem onOneLine_toString_int (n : Int) : OnOneLine (toString n) := fun c hc ↦ by
  rcases FrontMatter.mem_toList_toString hc with h | rfl
  · constructor <;> rintro rfl <;> cases h
  · decide

theorem onOneLine_spanText (s : Symbol) : OnOneLine (spanText s) := by
  have hline : OnOneLine "line " := by decide
  have hlines : OnOneLine "lines " := by decide
  rw [spanText]
  split
  · exact hline.append (onOneLine_toString_int _)
  · exact ((hlines.append (onOneLine_toString_int _)).append (by decide)).append
      (onOneLine_toString_int _)

theorem onOneLine_label (s : Symbol) : OnOneLine s.label := by
  have hkind : OnOneLine s.kind.name := by
    cases s.kind <;> decide
  have hmain : OnOneLine "default_exported_" := by decide
  have hnamed : OnOneLine "exported_" := by decide
  rw [Symbol.label]
  split
  · exact hmain.append hkind
  · exact hnamed.append hkind
  · exact hkind

theorem onOneLine_bullet (depth : Nat) {s : Symbol} (h : OnOneLine s.name) :
    OnOneLine (bullet depth s) := by
  have hindent : OnOneLine ("".pushn ' ' (2 * depth)) := fun c hc ↦ by
    rw [toList_pushn] at hc
    rw [List.eq_of_mem_replicate hc]
    decide
  have hlabel : OnOneLine
      (String.ofList (s.label.toList.map fun c ↦ if c == '_' then ' ' else c)) := by
    rw [OnOneLine, String.toList_ofList, List.forall_mem_map]
    intro c hc
    split
    · decide
    · exact onOneLine_label s c hc
  have hstart : OnOneLine "- `" := by decide
  exact hindent.append <| (((((hstart.append h).append (by decide)).append hlabel).append
    (by decide)).append (onOneLine_spanText s)).append (by decide)

theorem onOneLine_reasonText (text : String) : OnOneLine (String.ofList (reasonText text)) := by
  have hjoined : ∀ c ∈ joinWith [' '] (words text.toList), c ≠ '\r' ∧ c ≠ '\n' := by
    refine forall_mem_joinWith (by simp) fun word hword c hc ↦ ?_
    have hblank : isBlank c = false := not_of_mem_fieldsBy hword hc
    constructor <;> rintro rfl <;> cases hblank
  have hdots : ∀ c ∈ ['.', '.', '.'], c ≠ '\r' ∧ c ≠ '\n' := by simp
  rw [OnOneLine, String.toList_ofList]
  intro c hc
  have hcut := (List.rdropWhile_prefix _ _).subset hc
  split at hcut
  · rcases List.mem_append.1 hcut with hcut | hcut
    · exact hjoined c (List.mem_of_mem_take (mem_of_mem_stripRight hcut))
    · exact hdots c hcut
  · exact hjoined c hcut

/-- What the page shows of the unit, the source apart, is on one line. -/
structure Lined (u : PageUnit) : Prop where
  label : OnOneLine u.label
  path : ∀ o ∈ u.outlines, OnOneLine o.path
  name : ∀ o ∈ u.outlines, ∀ name ∈ o.symbolNames, OnOneLine name

theorem onOneLine_headLines (h : OnOneLine u.label) (reason : Option String) :
    ∀ line ∈ headLines u reason, OnOneLine line := by
  have hheading : OnOneLine "# " := by decide
  have hthis : OnOneLine "This " := by decide
  have hnote : OnOneLine "_Generation note: " := by decide
  have hnoun : OnOneLine (if u.kind == .group then "feature" else "file") := by
    split <;> decide
  rw [headLines]
  refine List.forall_mem_append.2 ⟨?_, ?_⟩
  · simp only [List.forall_mem_cons]
    refine ⟨hheading.append h, by decide, by decide, by decide, ?_, List.forall_mem_nil _⟩
    exact ((hthis.append hnoun).append (by decide)).append (by decide)
  · split
    · exact List.forall_mem_nil _
    · refine List.forall_mem_cons.2 ⟨by decide, List.forall_mem_singleton.2 ?_⟩
      refine (hnote.append ?_).append (by decide)
      cases reason with
      | none => decide
      | some text => exact onOneLine_reasonText text

theorem onOneLine_fileLines {o : Outline} (hpath : OnOneLine o.path)
    (hname : ∀ name ∈ o.symbolNames, OnOneLine name) : ∀ line ∈ fileLines o, OnOneLine line := by
  have hheading : OnOneLine "## `" := by decide
  rw [fileLines]
  refine List.forall_mem_append.2 ⟨?_, ?_⟩
  · simp only [List.forall_mem_cons]
    exact ⟨by decide, (hheading.append hpath).append (by decide), by decide, List.forall_mem_nil _⟩
  · rw [bulletsAll_eq, List.forall_mem_map]
    refine fun p hp ↦ onOneLine_bullet p.1 (hname _ ?_)
    rw [Outline.symbolNames, ← Symbol.map_snd_walkAllAt 0, List.map_map]
    exact List.mem_map_of_mem hp

/-- **Every line before the fence is a line of its own.** -/
theorem onOneLine_introLines (h : Lined u) (reason : Option String) :
    ∀ line ∈ introLines u reason, OnOneLine line := by
  rw [introLines]
  refine List.forall_mem_append.2 ⟨List.forall_mem_append.2 ⟨?_, ?_⟩, by decide⟩
  · exact onOneLine_headLines h.label reason
  · intro line hline
    obtain ⟨o, ho, hline⟩ := List.mem_flatMap.1 hline
    exact onOneLine_fileLines (h.path o ho) (h.name o ho) line hline

/-! ### Bullets and other lines -/

/-- A line that starts as bullets do. -/
def isBullet (line : List Char) : Bool :=
  ['-', ' ', '`'].isPrefixOf (stripLeft line)

/-- A line that starts with another sign than blanks, bullets and fences do. -/
def isPlain (line : String) : Bool :=
  line.toList.head?.any fun c ↦ !isBlank c && c != '-' && c != '`'

theorem isPlain_append {a : String} (h : isPlain a = true) (b : String) :
    isPlain (a ++ b) = true := by
  rw [isPlain, Option.any_eq_true] at h ⊢
  obtain ⟨c, hc, hplain⟩ := h
  refine ⟨c, ?_, hplain⟩
  rw [String.toList_append, List.head?_append, hc]
  rfl

/-- An empty line and a plain one are neither fences nor bullets. -/
theorem fence?_and_isBullet_of_isPlain {line : String} (h : line = "" ∨ isPlain line = true) :
    fence? (stripRight line.toList) = none ∧ isBullet (stripRight line.toList) = false := by
  rcases h with rfl | h
  case inl => decide
  case inr =>
    rw [isPlain, Option.any_eq_true] at h
    obtain ⟨c, hc, hplain⟩ := h
    obtain ⟨rest, hline⟩ := List.head?_eq_some_iff.1 hc
    obtain ⟨⟨hblank, hdash⟩, htick⟩ : (isBlank c = false ∧ c ≠ '-') ∧ c ≠ '`' := by
      simpa using hplain
    rw [hline, stripRight_cons hblank, fence?, isBullet, stripLeft_cons hblank]
    refine ⟨?_, ?_⟩
    · rw [List.takeWhile_cons_of_neg (by simpa using htick)]
      rfl
    · simp [List.isPrefixOf, Ne.symm hdash]

/-- A bullet is indented by two spaces for each level. -/
theorem toList_bullet (depth : Nat) (s : Symbol) :
    (bullet depth s).toList = List.replicate (2 * depth) ' ' ++ (bullet 0 s).toList := by
  have hnone : "".pushn ' ' (2 * 0) = "" := rfl
  unfold bullet
  rw [String.toList_append, toList_pushn, hnone, String.empty_append]

/-- Behind the indent a bullet starts with its sign and ends with a bracket. -/
theorem exists_toList_bullet (s : Symbol) :
    ∃ middle, (bullet 0 s).toList = '-' :: ' ' :: '`' :: (middle ++ [')']) := by
  let label := String.ofList (s.label.toList.map fun c ↦ if c == '_' then ' ' else c)
  refine ⟨s.name.toList ++ s!"` ({label}, {spanText s}".toList, ?_⟩
  simp [bullet, label, ToString.toString, String.pushn_eq_repeat_push, Nat.repeat]

theorem stripLeft_bullet (depth : Nat) (s : Symbol) :
    stripLeft (bullet depth s).toList = (bullet 0 s).toList := by
  obtain ⟨middle, hmiddle⟩ := exists_toList_bullet s
  rw [toList_bullet, hmiddle, stripLeft, List.dropWhile_append_of_pos fun c hc ↦ by
    rw [List.eq_of_mem_replicate hc]; decide]
  exact stripLeft_cons (by decide) _

theorem stripRight_bullet (depth : Nat) (s : Symbol) :
    stripRight (bullet depth s).toList = (bullet depth s).toList := by
  obtain ⟨middle, hmiddle⟩ := exists_toList_bullet s
  have hend : (bullet depth s).toList
      = (List.replicate (2 * depth) ' ' ++ '-' :: ' ' :: '`' :: middle) ++ [')'] := by
    rw [toList_bullet, hmiddle]
    simp
  rw [hend, stripRight_concat (by decide)]

/-- A bullet is one, and no fence. -/
theorem fence?_and_isBullet_bullet (depth : Nat) (s : Symbol) :
    fence? (bullet depth s).toList = none ∧ isBullet (bullet depth s).toList = true := by
  obtain ⟨middle, hmiddle⟩ := exists_toList_bullet s
  rw [fence?, isBullet, stripLeft_bullet, hmiddle]
  exact ⟨rfl, rfl⟩

theorem isPlain_headLines (u : PageUnit) (reason : Option String) :
    ∀ line ∈ headLines u reason, line = "" ∨ isPlain line = true := by
  have hheading : isPlain "# " = true := by decide
  have hthis : isPlain "This " = true := by decide
  have hnote : isPlain "_Generation note: " = true := by decide
  rw [headLines]
  refine List.forall_mem_append.2 ⟨?_, ?_⟩
  · simp only [List.forall_mem_cons]
    refine ⟨.inr (isPlain_append hheading _), .inl trivial, .inr (by decide), .inl trivial,
      .inr ?_, List.forall_mem_nil _⟩
    exact isPlain_append (isPlain_append (isPlain_append hthis _) _) _
  · split
    · exact List.forall_mem_nil _
    · refine List.forall_mem_cons.2 ⟨.inl rfl, List.forall_mem_singleton.2 (.inr ?_)⟩
      exact isPlain_append (isPlain_append hnote _) _

/-- The section of a file is plain lines and then its bullets. -/
theorem exists_fileLines_eq (o : Outline) :
    ∃ heading, (∀ line ∈ heading, line = "" ∨ isPlain line = true) ∧
      fileLines o = heading ++ bulletsAll 0 o.symbols := by
  have hheading : isPlain "## `" = true := by decide
  refine ⟨_, ?_, rfl⟩
  simp only [List.forall_mem_cons]
  exact ⟨.inl trivial, .inr (isPlain_append (isPlain_append hheading _) _), .inl trivial,
    List.forall_mem_nil _⟩

/-- A line as linting leaves it. -/
def trimmed (line : String) : List Char :=
  stripRight line.toList

/-- **No line before the fence is one.** -/
theorem fence?_introLine (u : PageUnit) (reason : Option String) :
    ∀ line ∈ introLines u reason, fence? (trimmed line) = none := by
  have hplain {lines : List String} (h : ∀ line ∈ lines, line = "" ∨ isPlain line = true) :
      ∀ line ∈ lines, fence? (trimmed line) = none :=
    fun line hline ↦ (fence?_and_isBullet_of_isPlain (h line hline)).1
  rw [introLines]
  refine List.forall_mem_append.2 ⟨List.forall_mem_append.2 ⟨?_, ?_⟩, ?_⟩
  · exact hplain (isPlain_headLines u reason)
  · intro line hline
    obtain ⟨o, -, hline⟩ := List.mem_flatMap.1 hline
    obtain ⟨heading, hheading, hlines⟩ := exists_fileLines_eq o
    rw [hlines, bulletsAll_eq] at hline
    rcases List.mem_append.1 hline with hline | hline
    · exact hplain hheading line hline
    · obtain ⟨p, -, rfl⟩ := List.mem_map.1 hline
      rw [trimmed, stripRight_bullet]
      exact (fence?_and_isBullet_bullet _ _).1
  · exact hplain (by decide)

theorem filter_isBullet_of_isPlain {lines : List String}
    (h : ∀ line ∈ lines, line = "" ∨ isPlain line = true) :
    (lines.map trimmed).filter isBullet = [] := by
  rw [List.filter_eq_nil_iff, List.forall_mem_map]
  intro line hline
  rw [trimmed, (fence?_and_isBullet_of_isPlain (h line hline)).2]
  exact Bool.false_ne_true

theorem filter_isBullet_fileLines (o : Outline) :
    ((fileLines o).map trimmed).filter isBullet
      = (Symbol.walkAllAt 0 o.symbols).map fun p ↦ (bullet p.1 p.2).toList := by
  have hbullets : ((bulletsAll 0 o.symbols).map trimmed)
      = (Symbol.walkAllAt 0 o.symbols).map fun p ↦ (bullet p.1 p.2).toList := by
    rw [bulletsAll_eq, List.map_map]
    exact List.map_congr_left fun p _ ↦ stripRight_bullet p.1 p.2
  obtain ⟨heading, hheading, hlines⟩ := exists_fileLines_eq o
  rw [hlines, List.map_append, List.filter_append, filter_isBullet_of_isPlain hheading, hbullets,
    List.nil_append, List.filter_eq_self, List.forall_mem_map]
  exact fun p _ ↦ (fence?_and_isBullet_bullet _ _).2

/-- **The bullets before the fence are those of the symbols**, in the order of the walk. -/
theorem filter_isBullet_introLines (u : PageUnit) (reason : Option String) :
    ((introLines u reason).map trimmed).filter isBullet
      = (u.outlines.flatMap fun o ↦ Symbol.walkAllAt 0 o.symbols).map
          fun p ↦ (bullet p.1 p.2).toList := by
  have hlast : (["", "## Source Excerpt", ""].map trimmed).filter isBullet = [] :=
    filter_isBullet_of_isPlain (by decide)
  rw [introLines, List.map_append, List.map_append, List.filter_append, List.filter_append, hlast,
    filter_isBullet_of_isPlain (isPlain_headLines u reason), List.map_flatMap, List.map_flatMap,
    List.filter_flatMap, List.nil_append, List.append_nil]
  simp only [filter_isBullet_fileLines]

/-! ### The lines of the page -/

/-- The words behind a fence. -/
theorem fenceWord_mem (language : String) : Source.fenceWord language
    ∈ ["javascript", "jsx", "typescript", "tsx", "python", "text"] := by
  unfold Source.fenceWord
  split <;> simp

/-- The fence of the excerpt as linting leaves it. -/
theorem trimmed_opener (cs : List Char) (language : String) :
    trimmed (fenceFor cs ++ Source.fenceWord language)
      = List.replicate (max 3 (longestTicks cs + 1)) '`' ++ (Source.fenceWord language).toList := by
  have hword : ∀ word ∈ ["javascript", "jsx", "typescript", "tsx", "python", "text"],
      word.toList.any (!isBlank ·) = true ∧ stripRight word.toList = word.toList := by
    decide
  obtain ⟨hsolid, hstrip⟩ := hword _ (fenceWord_mem language)
  have hends : ∃ c ∈ (Source.fenceWord language).toList, isBlank c = false := by
    simpa using hsolid
  rw [trimmed, String.toList_append, toList_fenceFor, stripRight_append hends, hstrip]

theorem trimmed_fenceFor (cs : List Char) :
    trimmed (fenceFor cs) = List.replicate (max 3 (longestTicks cs + 1)) '`' := by
  obtain ⟨n, hn⟩ := Nat.exists_eq_succ_of_ne_zero (show max 3 (longestTicks cs + 1) ≠ 0 by omega)
  rw [trimmed, toList_fenceFor, hn, List.replicate_succ', stripRight_concat (by decide)]

theorem exists_joinWith_pageLines_eq (u : PageUnit) (reason : Option String) :
    ∃ rest, joinWith ['\n'] ((pageLines u reason).map String.toList) = '#' :: rest := by
  obtain ⟨lines, hlines⟩ : ∃ lines, pageLines u reason = ("# " ++ u.label) :: lines := ⟨_, rfl⟩
  rw [hlines, List.map_cons, String.toList_append]
  exact ⟨_, joinWith_cons_cons _ _ _ _⟩

theorem getLast?_joinWith_pageLines (hkind : u.kind = .file) (hfiles : u.files = path :: files)
    (reason : Option String) :
    (joinWith ['\n'] ((pageLines u reason).map String.toList)).getLast? = some '`' := by
  obtain ⟨before, hbefore⟩ := suffix_joinWith_concat ['\n']
    ((introLines u reason ++
      [fenceFor (excerptOf u) ++ Source.fenceWord (Source.languageName path),
        String.ofList (excerptOf u)] ++
      (if excerptLength < u.content.toList.length then ["..."] else [])).map String.toList)
    (fenceFor (excerptOf u)).toList
  obtain ⟨n, hn⟩ := Nat.exists_eq_succ_of_ne_zero
    (show max 3 (longestTicks (excerptOf u) + 1) ≠ 0 by omega)
  rw [pageLines_of_file hkind hfiles, List.map_append, List.map_singleton, ← hbefore,
    toList_fenceFor, hn, List.replicate_succ', ← List.append_assoc, List.getLast?_concat]

/-- The page starts with its heading and ends with a fence, so nothing is taken off it. -/
theorem toList_page (hkind : u.kind = .file) (hfiles : u.files = path :: files)
    (reason : Option String) : (page u reason).toList
      = joinWith ['\n'] ((pageLines u reason).map String.toList) ++ ['\n'] := by
  rw [page, String.toList_ofList, strip_eq_self]
  · obtain ⟨rest, hrest⟩ := exists_joinWith_pageLines_eq u reason
    simpa [hrest] using show isBlank '#' = false by decide
  · simpa [getLast?_joinWith_pageLines hkind hfiles] using show isBlank '`' = false by decide

/-- Lines that are each a line of their own are found again. -/
theorem flatMap_splitOn_of_onOneLine {lines : List String} (h : ∀ line ∈ lines, OnOneLine line) :
    (lines.map String.toList).flatMap (fun part ↦ splitOn '\n' (unifyNewlines part))
      = lines.map String.toList := by
  induction lines with
  | nil => rfl
  | cons line lines ih =>
    obtain ⟨hline, hlines⟩ := List.forall_mem_cons.1 h
    rw [List.map_cons, List.flatMap_cons, splitOn_unifyNewlines_of_onOneLine hline, ih hlines,
      List.singleton_append]

/-- **The page of a file, line by line**: what stands before the fence, the fence, the excerpt cut
at its line breaks, and the fence. -/
theorem sourceOf_unifyNewlines_page (h : Lined u) (hkind : u.kind = .file)
    (hfiles : u.files = path :: files) (reason : Option String) :
    sourceOf (unifyNewlines (page u reason).toList)
      = (introLines u reason).map trimmed ++
          (List.replicate (excerptTicks u) '`' ++
            (Source.fenceWord (Source.languageName path)).toList) ::
          (innerLines u ++ [List.replicate (excerptTicks u) '`']) ++ [[]] := by
  let opener := fenceFor (excerptOf u) ++ Source.fenceWord (Source.languageName path)
  let dots := if excerptLength < u.content.toList.length then ["..."] else []
  have hfence : OnOneLine (fenceFor (excerptOf u)) := fun c hc ↦ by
    rw [toList_fenceFor] at hc
    rw [List.eq_of_mem_replicate hc]
    decide
  have hopener : OnOneLine opener := by
    have hword : ∀ word ∈ ["javascript", "jsx", "typescript", "tsx", "python", "text"],
        OnOneLine word := by decide
    exact hfence.append (hword _ (fenceWord_mem _))
  have hdots : ∀ line ∈ dots, OnOneLine line := by
    unfold dots
    split <;> decide
  have hintro := onOneLine_introLines h reason
  have hparts : (pageLines u reason).map String.toList = (introLines u reason).map String.toList ++
      opener.toList :: excerptOf u :: (dots.map String.toList ++
        [(fenceFor (excerptOf u)).toList]) := by
    rw [pageLines_of_file hkind hfiles]
    simp [opener, dots]
  have hlines : splitOn '\n' (unifyNewlines
      (joinWith ['\n'] ((pageLines u reason).map String.toList)))
        = (introLines u reason).map String.toList ++ opener.toList ::
          (splitOn '\n' (unifyNewlines (excerptOf u)) ++ (dots.map String.toList ++
            [(fenceFor (excerptOf u)).toList])) := by
    rw [splitOn_unifyNewlines_joinWith, hparts]
    · rw [List.flatMap_append, flatMap_splitOn_of_onOneLine hintro, List.flatMap_cons,
        splitOn_unifyNewlines_of_onOneLine hopener, List.flatMap_cons, List.flatMap_append,
        flatMap_splitOn_of_onOneLine hdots, List.flatMap_singleton,
        splitOn_unifyNewlines_of_onOneLine hfence, List.singleton_append]
    · rw [hparts]
      simp
    · rw [hparts]
      simp only [List.forall_mem_append, List.forall_mem_cons, List.forall_mem_map]
      exact ⟨fun line hline ↦ getLast?_ne_of_onOneLine (hintro line hline),
        getLast?_ne_of_onOneLine hopener, getLast?_stripRight_ne (by decide) _,
        fun line hline ↦ getLast?_ne_of_onOneLine (hdots line hline),
        getLast?_ne_of_onOneLine hfence, List.forall_mem_nil _⟩
  have hlast : (joinWith ['\n'] ((pageLines u reason).map String.toList)).getLast? ≠ some '\r' := by
    rw [getLast?_joinWith_pageLines hkind hfiles]
    decide
  have hdotted : (dots.map String.toList).map stripRight
      = if excerptLength < u.content.toList.length then [['.', '.', '.']] else [] := by
    unfold dots
    split <;> decide
  have hbreak : unifyNewlines ['\n'] = ['\n'] := by decide
  have hnone : (splitOn '\n' []).map stripRight = [[]] := by decide
  rw [sourceOf, toList_page hkind hfiles, unifyNewlines_append_of_getLast? hlast, hbreak,
    splitOn_append, hlines, List.map_append, hnone, List.map_append, List.map_cons,
    List.map_append, List.map_append, List.map_singleton, hdotted, List.map_map]
  show (introLines u reason).map trimmed ++ trimmed opener :: (sourceOf _ ++
    (_ ++ [trimmed (fenceFor (excerptOf u))])) ++ [[]] = _
  rw [trimmed_opener, trimmed_fenceFor, ← List.append_assoc (sourceOf _), ← innerLines,
    ← excerptTicks]

/-- The page does not open with a block of fields, so it is linted as a whole. -/
theorem bodyOf_page (hkind : u.kind = .file) (hfiles : u.files = path :: files)
    (reason : Option String) :
    bodyOf (page u reason).toList = unifyNewlines (page u reason).toList := by
  obtain ⟨rest, hrest⟩ : ∃ rest, unifyNewlines (page u reason).toList = '#' :: rest := by
    obtain ⟨rest, hrest⟩ := exists_joinWith_pageLines_eq u reason
    rw [toList_page hkind hfiles, hrest]
    exact ⟨_, @unifyNewlines_append ['#'] (by decide) _⟩
  have hstart : (unifyNewlines (page u reason).toList).dropWhile (· == '\n')
      = unifyNewlines (page u reason).toList := by
    rw [hrest]
    rfl
  rw [bodyOf_of_not_opens, hstart]
  intro block closer after hopens
  have hjoined := joinWith_splitOn '\n' (unifyNewlines (page u reason).toList)
  rw [textLines, hstart] at hopens
  rw [hopens.eq, FrontMatter.delimiter, joinWith_cons_cons, hrest] at hjoined
  exact absurd (List.cons.inj hjoined).1 (by decide)

/-! ### The linted page -/

/-- The lines of the page have the excerpt as their only block: none before it is a fence, and none
of the excerpt has a run of as many ticks. -/
theorem endsFenced_introLines (u : PageUnit) (reason : Option String) (path : String) :
    EndsFenced ((introLines u reason).map trimmed ++
      (List.replicate (excerptTicks u) '`' ++
        (Source.fenceWord (Source.languageName path)).toList) ::
      (innerLines u ++ [List.replicate (excerptTicks u) '`'])) ((introLines u reason).map trimmed)
      (excerptTicks u) (Source.fenceWord (Source.languageName path)).toList (innerLines u) where
  eq := rfl
  three_le := Nat.le_max_left _ _
  word := by
    have hword : ∀ word ∈ ["javascript", "jsx", "typescript", "tsx", "python", "text"],
        '`' ∉ word.toList := by decide
    exact hword _ (fenceWord_mem _)
  outside := List.forall_mem_map.2 (fence?_introLine u reason)
  inside line hline found info hfence := by
    rcases List.mem_append.1 hline with hline | hline
    · have hle := le_longestTicks_of_mem_sourceOf hline hfence
      rw [excerptTicks]
      omega
    · split at hline
      · rw [List.mem_singleton.1 hline] at hfence
        cases hfence
      · cases hline

/-- **The linted page of a file ends with the excerpt, and has no other fenced block.** The fence is
longer than any run of ticks in the excerpt, and the ticks that close it are the last line. Between
them stand the lines of the excerpt without the blanks at their ends, and dots exactly if the source
goes on. Before the fence the bullets are those of all symbols of the unit, each once and before
those that it owns, indented by two spaces for each level. -/
theorem endsFenced_lint_page (h : Lined u) (hkind : u.kind = .file)
    (hfiles : u.files = path :: files) (reason : Option String) :
    ∃ lines before, lint (page u reason).toList = joinWith ['\n'] lines ++ ['\n'] ∧
      (∀ line ∈ lines, '\n' ∉ line) ∧
      EndsFenced lines before (excerptTicks u)
        (Source.fenceWord (Source.languageName path)).toList (innerLines u) ∧
      before.filter isBullet = (u.outlines.flatMap fun o ↦ Symbol.walkAllAt 0 o.symbols).map
        (fun p ↦ List.replicate (2 * p.1) ' ' ++ (bullet 0 p.2).toList) ∧
      (u.outlines.flatMap fun o ↦ Symbol.walkAllAt 0 o.symbols).map Prod.snd
        = u.outlines.flatMap fun o ↦ Symbol.walkAll o.symbols := by
  have hsource := sourceOf_unifyNewlines_page h hkind hfiles reason
  rw [← bodyOf_page hkind hfiles reason] at hsource
  obtain ⟨before, hblock, hkeep⟩ := (endsFenced_introLines u reason path).exists_linesOf hsource
  refine ⟨linesOf (bodyOf (page u reason).toList), before, rfl, newline_not_mem_linesOf _, hblock,
    ?_, ?_⟩
  · rw [hkeep isBullet rfl, filter_isBullet_introLines]
    exact List.map_congr_left fun p _ ↦ toList_bullet p.1 p.2
  · rw [List.map_flatMap]
    simp only [Symbol.map_snd_walkAllAt]

/-- A file whose source opens fences of its own, in lines that are broken in every way. -/
def ticksUnit : PageUnit :=
  .ofFile ⟨"a/ticks.py", [.mk .classKind "A" 1 3 [.mk .method "f" 2 2 [] none] none], none⟩
    "x = 1 \r\n````\r\r# y\n```\n \n" "Misc"

/-- Its excerpt stands between five ticks, with all its lines. -/
theorem endsFenced_lint_page_ticks :
    Lined ticksUnit ∧ ticksUnit.kind = .file ∧ ticksUnit.files = ["a/ticks.py"] ∧
      ∃ lines before, lint (page ticksUnit none).toList = joinWith ['\n'] lines ++ ['\n'] ∧
        EndsFenced lines before 5 "python".toList
          ["x = 1".toList, "````".toList, [], "# y".toList, "```".toList] ∧
        before.filter isBullet
          = ["- `A` (class, lines 1-3)".toList, "  - `f` (method, line 2)".toList] := by
  have hlined : Lined ticksUnit := ⟨by decide, by decide, by decide⟩
  have hkind : ticksUnit.kind = .file := rfl
  have hfiles : ticksUnit.files = ["a/ticks.py"] := rfl
  obtain ⟨lines, before, hpage, -, hblock, hbullets, -⟩ :=
    endsFenced_lint_page hlined hkind hfiles none
  have hticks : excerptTicks ticksUnit = 5 := by decide +kernel
  have hword : Source.fenceWord (Source.languageName "a/ticks.py") = "python" := by
    decide +kernel
  have hinner : innerLines ticksUnit
      = ["x = 1".toList, "````".toList, [], "# y".toList, "```".toList] := by
    decide +kernel
  rw [hticks, hword, hinner] at hblock
  exact ⟨hlined, hkind, hfiles, lines, before, hpage, hblock, hbullets.trans (by decide +kernel)⟩

end Docwright.Page.Fallback
