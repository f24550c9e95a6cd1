import Docwright.Proofs.Page.Prose
import Docwright.Proofs.Site.Navigation

/-!
# What the overview lists

On the overview each category with a written page has one heading, and under it stands one entry for
each page of the category, in order of position (`Sections`). The pages come sorted by category, so
the pages of a category are neighbours, and a heading is put wherever the category changes
(`exists_sections`). The overview goes through the linter before it is written; it is prose, and
headings and entries come out of the linter as they were (`items_overviewText`).
-/

namespace Docwright.Site

open Page Text

/-! ### Sections -/

/-- The pages by category, as they stand on the overview. -/
structure Sections (written : List Written) (sections : List (String × List Written)) : Prop where
  nodup : (sections.map Prod.fst).Nodup
  ne_nil : ∀ s ∈ sections, s.2 ≠ []
  slug : ∀ s ∈ sections, ∀ p ∈ s.2, p.slug = s.1
  ordered : ∀ s ∈ sections, s.2.Pairwise fun a b ↦ a.document.position ≤ b.document.position
  perm : (sections.flatMap Prod.snd).Perm written

/-- The heading of a category, as it is written. -/
def headingLine (written : List Written) (slug : String) : List Char :=
  stripRight ("## " ++ firstCategory written slug).toList

/-- The heading of a section and its entries. -/
def sectionLines (written : List Written) (s : String × List Written) : List (List Char) :=
  headingLine written s.1 :: s.2.map fun p ↦ (overviewEntry p).toList

/-- A heading of a category or an entry, by what the line starts with. -/
def isItem (line : List Char) : Bool :=
  "##".toList.isPrefixOf line || "- [".toList.isPrefixOf line

theorem getD_lookup_titlesOf (pages : List Written) (slug : String) :
    ((titlesOf pages).lookup slug).getD "" = firstCategory pages slug := by
  rw [lookup_titlesOf, firstCategory]

/-! ### Order of the pages -/

/-- Pages in order are in order of their categories, and within a category of their positions. -/
theorem comesBefore_iff {a b : Written} : comesBefore a b = true ↔
    a.slug < b.slug ∨ a.slug = b.slug ∧ (a.document.position < b.document.position ∨
      a.document.position = b.document.position ∧ a.pageId ≤ b.pageId) := by
  rw [comesBefore]
  split
  · rename_i h
    have hne : a.slug ≠ b.slug := by simpa using h
    simp [hne]
  · rename_i h
    have heq : a.slug = b.slug := by simpa using h
    simp only [heq, true_and, String.lt_irrefl, false_or]
    split
    · rename_i h
      have hne : a.document.position ≠ b.document.position := by simpa using h
      simp [hne]
    · rename_i h
      have heq : a.document.position = b.document.position := by simpa using h
      simp [heq]

theorem lt_trichotomy_slug (a b : String) : a < b ∨ a = b ∨ b < a := by
  by_cases hab : a < b
  · exact .inl hab
  by_cases hba : b < a
  · exact .inr (.inr hba)
  · exact .inr (.inl (String.le_antisymm (String.not_lt.1 hba) (String.not_lt.1 hab)))

theorem comesBefore_total (a b : Written) : (comesBefore a b || comesBefore b a) = true := by
  rw [Bool.or_eq_true, comesBefore_iff, comesBefore_iff]
  rcases lt_trichotomy_slug a.slug b.slug with h | h | h
  · exact .inl (.inl h)
  · rcases Int.lt_trichotomy a.document.position b.document.position with h' | h' | h'
    · exact .inl (.inr ⟨h, .inl h'⟩)
    · rcases String.le_total a.pageId b.pageId with h'' | h''
      · exact .inl (.inr ⟨h, .inr ⟨h', h''⟩⟩)
      · exact .inr (.inr ⟨h.symm, .inr ⟨h'.symm, h''⟩⟩)
    · exact .inr (.inr ⟨h.symm, .inl h'⟩)
  · exact .inr (.inl h)

theorem comesBefore_trans (a b c : Written) (hab : comesBefore a b = true)
    (hbc : comesBefore b c = true) : comesBefore a c = true := by
  rw [comesBefore_iff] at hab hbc ⊢
  rcases hab with hab | ⟨hab, hab'⟩
  · rcases hbc with hbc | ⟨hbc, -⟩
    · exact .inl (String.lt_trans hab hbc)
    · exact .inl (hbc ▸ hab)
  · rcases hbc with hbc | ⟨hbc, hbc'⟩
    · exact .inl (hab ▸ hbc)
    · refine .inr ⟨hab.trans hbc, ?_⟩
      rcases hab' with hab' | ⟨hab', habId⟩
      · rcases hbc' with hbc' | ⟨hbc', -⟩
        · exact .inl (Int.lt_trans hab' hbc')
        · exact .inl (hbc' ▸ hab')
      · rcases hbc' with hbc' | ⟨hbc', hbcId⟩
        · exact .inl (hab' ▸ hbc')
        · exact .inr ⟨hab'.trans hbc', String.le_trans habId hbcId⟩

theorem pairwise_comesBefore (pages : List Written) :
    (pages.mergeSort comesBefore).Pairwise fun a b ↦ comesBefore a b = true :=
  List.pairwise_mergeSort comesBefore_trans comesBefore_total pages

/-! ### Headings and entries -/

/-- The headings and entries among some lines, without the blanks at their ends. -/
def itemsOf (lines : List String) : List (List Char) :=
  (lines.map fun line ↦ stripRight line.toList).filter isItem

theorem itemsOf_append (a b : List String) : itemsOf (a ++ b) = itemsOf a ++ itemsOf b := by
  rw [itemsOf, List.map_append, List.filter_append, ← itemsOf, ← itemsOf]

/-- What an entry starts with: the title of the page, as a link to where the page stands from where
the overview stands. -/
def entryLink (p : Written) : String :=
  "- [" ++ p.document.title ++ "](./" ++ p.slug ++ "/" ++ pageFileName p.pageId ++ ")"

/-- What an entry says of the files that the page covers. -/
def entrySources (p : Written) : String :=
  " (" ++ ", ".intercalate ((p.document.sources.take 5).map fun path ↦ "`" ++ path ++ "`") ++
    (if 5 < p.document.sources.length then
      " and " ++ toString (p.document.sources.length - 5) ++ " more" else "") ++ ")"

theorem overviewEntry_eq (p : Written) : overviewEntry p
    = if p.document.sources.isEmpty then entryLink p else entryLink p ++ entrySources p := by
  rw [overviewEntry]
  split
  · rfl
  · rw [entrySources, ← String.append_assoc, ← String.append_assoc, ← String.append_assoc]
    rfl

theorem prefix_overviewEntry (p : Written) : (entryLink p).toList <+: (overviewEntry p).toList := by
  rw [overviewEntry_eq]
  split
  · exact List.prefix_refl _
  · rw [String.toList_append]
    exact List.prefix_append _ _

theorem exists_entryLink (p : Written) :
    ∃ cs, (entryLink p).toList = "- [".toList ++ cs ++ [')'] := by
  refine ⟨p.document.title.toList ++ "](./".toList ++ p.slug.toList ++ "/".toList ++
    (pageFileName p.pageId).toList, ?_⟩
  simp [entryLink]

theorem exists_overviewEntry (p : Written) :
    ∃ cs, (overviewEntry p).toList = "- [".toList ++ cs ++ [')'] := by
  obtain ⟨cs, hlink⟩ := exists_entryLink p
  rw [overviewEntry_eq]
  split
  · exact ⟨cs, hlink⟩
  · obtain ⟨ds, hsources⟩ : ∃ ds, (entrySources p).toList = ds ++ [')'] :=
      ⟨_, String.toList_append⟩
    exact ⟨cs ++ [')'] ++ ds, by rw [String.toList_append, hlink, hsources]; simp⟩

/-- An entry comes through as it is. -/
theorem itemsOf_entry_cons (p : Written) (rest : List String) :
    itemsOf (overviewEntry p :: rest) = (overviewEntry p).toList :: itemsOf rest := by
  obtain ⟨cs, hcs⟩ := exists_overviewEntry p
  have hstrip : stripRight (overviewEntry p).toList = (overviewEntry p).toList := by
    rw [hcs, stripRight_concat (by decide)]
  have hitem : isItem (overviewEntry p).toList = true := by
    rw [hcs]
    rfl
  rw [itemsOf, List.map_cons, hstrip, List.filter_cons_of_pos hitem, ← itemsOf]

theorem headingLine_eq (written : List Written) (slug : String) :
    headingLine written slug
      = '#' :: '#' :: stripRight (' ' :: (firstCategory written slug).toList) := by
  rw [headingLine, String.toList_append]
  exact (stripRight_cons (by decide) _).trans (congrArg _ (stripRight_cons (by decide) _))

/-- A heading loses its empty lines, and the blanks at its end. -/
theorem itemsOf_heading {written : List Written} {slug title : String}
    (htitle : title = firstCategory written slug) :
    itemsOf ["", s!"## {title}", ""] = [headingLine written slug] := by
  have hitem : isItem (headingLine written slug) = true := by
    rw [headingLine_eq]
    rfl
  have hempty : ¬isItem (stripRight "".toList) = true := by decide
  rw [htitle, itemsOf, List.map_cons, List.map_cons, List.map_singleton,
    List.filter_cons_of_neg hempty]
  show (headingLine written slug :: _).filter isItem = _
  rw [List.filter_cons_of_pos hitem, List.filter_cons_of_neg hempty, List.filter_nil]

/-! ### Grouping -/

/-- Sections one after the other, by category, none of them empty. -/
structure Grouped (sections : List (String × List Written)) : Prop where
  increasing : (sections.map Prod.fst).Pairwise (· < ·)
  ne_nil : ∀ s ∈ sections, s.2 ≠ []
  slug : ∀ s ∈ sections, ∀ p ∈ s.2, p.slug = s.1

theorem Grouped.nil : Grouped [] :=
  ⟨.nil, by simp, by simp⟩

theorem Grouped.cons {s : String × List Written} {sections : List (String × List Written)}
    (h : Grouped sections) (hlt : ∀ t ∈ sections, s.1 < t.1) (hne : s.2 ≠ [])
    (hslug : ∀ p ∈ s.2, p.slug = s.1) : Grouped (s :: sections) where
  increasing := List.pairwise_cons.2 ⟨List.forall_mem_map.2 hlt, h.increasing⟩
  ne_nil := List.forall_mem_cons.2 ⟨hne, h.ne_nil⟩
  slug := List.forall_mem_cons.2 ⟨hslug, h.slug⟩

/-- **Pages in order come section by section.** First come the pages that still belong to the
category of the page before, and then sections of later categories. -/
theorem exists_sections (written : List Written) {pages : List Written}
    (hsorted : pages.Pairwise fun a b ↦ comesBefore a b = true) (current : Option String)
    (hcurrent : ∀ c ∈ current, ∀ p ∈ pages, c < p.slug ∨ p.slug = c) :
    ∃ (first : List Written) (sections : List (String × List Written)),
      pages = first ++ sections.flatMap Prod.snd ∧
      itemsOf (overviewLines (titlesOf written) current pages)
        = first.map (fun p ↦ (overviewEntry p).toList) ++ sections.flatMap (sectionLines written) ∧
      (∀ p ∈ first, some p.slug = current) ∧ (∀ c ∈ current, ∀ s ∈ sections, c < s.1) ∧
      Grouped sections := by
  induction pages generalizing current with
  | nil => exact ⟨[], [], rfl, rfl, by simp, by simp, .nil⟩
  | cons p rest ih =>
    obtain ⟨hp, hrest⟩ := List.pairwise_cons.1 hsorted
    by_cases hsame : some p.slug = current
    · obtain ⟨first, sections, hpages, hitems, hfirst, hlater, hgrouped⟩ :=
        ih hrest current fun c hc q hq ↦ hcurrent c hc q (List.mem_cons_of_mem _ hq)
      refine ⟨p :: first, sections, by rw [hpages]; rfl, ?_,
        List.forall_mem_cons.2 ⟨hsame, hfirst⟩, hlater, hgrouped⟩
      rw [overviewLines, if_pos (by simpa using hsame), List.nil_append, itemsOf_entry_cons, hsame,
        hitems]
      rfl
    · -- a new category: its heading, and what follows belongs to it until it changes again
      obtain ⟨first, sections, hpages, hitems, hfirst, hlater, hgrouped⟩ :=
        ih hrest (some p.slug) fun c hc q hq ↦ by
          cases hc
          exact (comesBefore_iff.1 (hp q hq)).imp id fun h ↦ h.1.symm
      have hsection : ∀ q ∈ p :: first, q.slug = p.slug :=
        List.forall_mem_cons.2 ⟨rfl, fun q hq ↦ Option.some.inj (hfirst q hq)⟩
      refine ⟨[], (p.slug, p :: first) :: sections, by rw [hpages]; simp, ?_, by simp,
        fun c hc ↦ ?_, hgrouped.cons (hlater p.slug rfl) (List.cons_ne_nil _ _) hsection⟩
      · rw [overviewLines, if_neg (by simpa using hsame), itemsOf_append,
          itemsOf_heading (getD_lookup_titlesOf written p.slug), itemsOf_entry_cons, hitems]
        simp [sectionLines]
      · have hlt : c < p.slug := by
          refine (hcurrent c hc p List.mem_cons_self).resolve_right fun h ↦ hsame ?_
          rw [h]
          exact hc.symm
        exact List.forall_mem_cons.2 ⟨hlt, fun s hs ↦ String.lt_trans hlt (hlater p.slug rfl s hs)⟩

/-- **The overview has one section for each category with a written page.** -/
theorem exists_sections_overviewLines (written : List Written) :
    ∃ sections, Sections written sections ∧
      itemsOf (overviewLines (titlesOf written) none (written.mergeSort comesBefore))
        = sections.flatMap (sectionLines written) := by
  obtain ⟨first, sections, hpages, hitems, hfirst, -, hgrouped⟩ :=
    exists_sections written (pairwise_comesBefore written) none (by simp)
  have hnone : first = [] := List.eq_nil_iff_forall_not_mem.2 fun p hp ↦ by
    cases hfirst p hp
  rw [hnone, List.nil_append] at hpages
  rw [hnone] at hitems
  refine ⟨sections, ⟨?_, hgrouped.ne_nil, hgrouped.slug, fun s hs ↦ ?_, ?_⟩, hitems⟩
  · refine hgrouped.increasing.imp fun {a b} hlt heq ↦ ?_
    rw [heq] at hlt
    exact String.lt_irrefl b hlt
  · have hsorted := pairwise_comesBefore written
    rw [hpages, List.flatMap_def] at hsorted
    have hinner := List.pairwise_flatten.1 hsorted |>.1 s.2 (List.mem_map_of_mem hs)
    refine hinner.imp_of_mem fun {a b} ha hb hab ↦ ?_
    have hslug : a.slug = b.slug := (hgrouped.slug s hs a ha).trans (hgrouped.slug s hs b hb).symm
    rcases comesBefore_iff.1 hab with h | ⟨-, h | ⟨h, -⟩⟩
    · exact absurd (hslug ▸ h) (String.lt_irrefl _)
    · exact Int.le_of_lt h
    · exact Int.le_of_eq h
  · rw [← hpages]
    exact List.mergeSort_perm ..

/-! ### Lines of the overview -/

/-- A text without carriage returns and line feeds. -/
def OnOneLine (s : String) : Prop :=
  ∀ c ∈ s.toList, c ≠ '\r' ∧ c ≠ '\n'

instance (s : String) : Decidable (OnOneLine s) :=
  List.decidableBAll (fun c ↦ c ≠ '\r' ∧ c ≠ '\n') s.toList

/-- What the overview shows of a document is on one line. -/
structure Lined (d : Document) : Prop where
  title : OnOneLine d.title
  category : OnOneLine d.category
  sources : ∀ path ∈ d.sources, OnOneLine path

theorem OnOneLine.append {a b : String} (ha : OnOneLine a) (hb : OnOneLine b) :
    OnOneLine (a ++ b) := by
  rw [OnOneLine, String.toList_append]
  exact List.forall_mem_append.2 ⟨ha, hb⟩

theorem OnOneLine.of_isSlug {s : String} (h : IsSlug s.toList) : OnOneLine s := fun _ hc ↦
  ⟨fun hr ↦ h.not_mem (by decide) (hr ▸ hc), fun hn ↦ h.not_mem (by decide) (hn ▸ hc)⟩

theorem onOneLine_toString (n : Nat) : OnOneLine (toString n) := fun c hc ↦ by
  rw [show toString n = n.repr from rfl, Nat.toList_repr] at hc
  have hdigit : c.isDigit = true := Nat.isDigit_of_mem_toDigits (by decide) (by decide) hc
  constructor <;> rintro rfl <;> cases hdigit

theorem onOneLine_intercalate {sep : String} {parts : List String} (hsep : OnOneLine sep)
    (hparts : ∀ part ∈ parts, OnOneLine part) : OnOneLine (sep.intercalate parts) := by
  rw [OnOneLine, String.toList_intercalate]
  exact forall_mem_joinWith hsep (List.forall_mem_map.2 hparts)

theorem onOneLine_overviewEntry {p : Written} (hp : p.Named) (hd : Lined p.document) :
    OnOneLine (overviewEntry p) := by
  have hlink : OnOneLine (entryLink p) := by
    have hfile : OnOneLine (pageFileName p.pageId) :=
      (OnOneLine.of_isSlug hp.pageId).append (by decide)
    have hstart : OnOneLine "- [" := by decide
    exact (((((hstart.append hd.title).append (by decide)).append (.of_isSlug hp.slug)).append
      (by decide)).append hfile).append (by decide)
  have hsources : OnOneLine (entrySources p) := by
    have hshown : OnOneLine
        (", ".intercalate ((p.document.sources.take 5).map fun path ↦ "`" ++ path ++ "`")) := by
      refine onOneLine_intercalate (by decide) (List.forall_mem_map.2 fun path hpath ↦ ?_)
      have htick : OnOneLine "`" := by decide
      exact (htick.append (hd.sources path (List.mem_of_mem_take hpath))).append htick
    have hmore : OnOneLine (if 5 < p.document.sources.length then
        " and " ++ toString (p.document.sources.length - 5) ++ " more" else "") := by
      have hand : OnOneLine " and " := by decide
      split
      · exact (hand.append (onOneLine_toString _)).append (by decide)
      · decide
    have hopen : OnOneLine " (" := by decide
    exact ((hopen.append hshown).append hmore).append (by decide)
  rw [overviewEntry_eq]
  split
  · exact hlink
  · exact hlink.append hsources

theorem onOneLine_firstCategory {pages : List Written} (h : ∀ p ∈ pages, Lined p.document)
    (slug : String) : OnOneLine (firstCategory pages slug) := by
  rw [firstCategory]
  cases hfind : pages.find? (·.slug == slug) with
  | none => decide
  | some p =>
    have hname : OnOneLine (categoryName p.document.category) := by
      rw [categoryName]
      split
      · decide
      · exact (h p (List.mem_of_find?_eq_some hfind)).category
    exact hname

/-- A line of the overview besides its title: it is on one line, and if it is not empty it starts
with a sign that is neither blank nor a tick. -/
structure ProseLine (line : String) : Prop where
  onOneLine : OnOneLine line
  start : line = "" ∨ ∃ c cs, line.toList = c :: cs ∧ isBlank c = false ∧ c ≠ '`'

theorem proseLine_empty : ProseLine "" :=
  ⟨by decide, .inl rfl⟩

theorem ProseLine.of_append {a b : String} (ha : OnOneLine a) (hb : OnOneLine b) {c : Char}
    {cs : List Char} (hstart : a.toList = c :: cs) (hblank : isBlank c = false) (htick : c ≠ '`') :
    ProseLine (a ++ b) :=
  ⟨ha.append hb, .inr ⟨c, cs ++ b.toList, by rw [String.toList_append, hstart]; rfl, hblank, htick⟩⟩

/-- A line of prose opens no code. -/
theorem ProseLine.fence?_eq_none {line : String} (h : ProseLine line) :
    Lint.fence? (stripRight line.toList) = none := by
  rcases h.start with rfl | ⟨c, cs, hline, hblank, htick⟩
  · decide
  · rw [hline, stripRight_cons hblank, Lint.fence?, stripLeft_cons hblank]
    simp [htick]

theorem proseLine_overviewLines {written pages : List Written} (hnamed : ∀ p ∈ pages, p.Named)
    (hlined : ∀ p ∈ pages, Lined p.document) (hwritten : ∀ p ∈ written, Lined p.document)
    (current : Option String) :
    ∀ line ∈ overviewLines (titlesOf written) current pages, ProseLine line := by
  induction pages generalizing current with
  | nil => simp [overviewLines]
  | cons p rest ih =>
    obtain ⟨hp, hnamed⟩ := List.forall_mem_cons.1 hnamed
    obtain ⟨hd, hlined⟩ := List.forall_mem_cons.1 hlined
    have hentry : ProseLine (overviewEntry p) := by
      obtain ⟨cs, hcs⟩ := exists_overviewEntry p
      exact ⟨onOneLine_overviewEntry hp hd, .inr ⟨'-', _, hcs, by decide, by decide⟩⟩
    have hheading : ∀ title, title = firstCategory written p.slug → ProseLine s!"## {title}" := by
      rintro title rfl
      exact .of_append (a := "## ") (by decide) (onOneLine_firstCategory hwritten p.slug) rfl
        (by decide) (by decide)
    rw [overviewLines]
    refine List.forall_mem_append.2 ⟨?_, List.forall_mem_cons.2 ⟨hentry, ih hnamed hlined _⟩⟩
    split
    · simp
    · exact List.forall_mem_cons.2 ⟨proseLine_empty, List.forall_mem_cons.2
        ⟨hheading _ (getD_lookup_titlesOf written p.slug),
          List.forall_mem_singleton.2 proseLine_empty⟩⟩

/-! ### The whole overview -/

/-- The lines of the overview before it is linted. -/
def overviewBody (title : String) (written : List Written) : List String :=
  ["# " ++ title, "",
    if written.isEmpty then "No documentation was generated for this repository."
    else "Documentation generated for each feature of this repository."] ++
    overviewLines (titlesOf written) none (written.mergeSort comesBefore)

theorem toList_overviewText (title : String) (written : List Written) :
    (overviewText title written (titlesOf written)).toList
      = FrontMatter.blockText overviewId title 1 ++
        '\n' :: Lint.lint (joinWith ['\n'] ((overviewBody title written).map String.toList)) := by
  rw [overviewText, String.toList_ofList, List.append_assoc, List.singleton_append, overviewBody]
  rfl

theorem proseLine_overviewBody {title : String} (htitle : OnOneLine title) {written : List Written}
    (hnamed : ∀ p ∈ written, p.Named) (hlined : ∀ p ∈ written, Lined p.document) :
    ∀ line ∈ overviewBody title written, ProseLine line := by
  have hsorted : ∀ p ∈ written.mergeSort comesBefore, p ∈ written := fun p hp ↦
    (List.mergeSort_perm written comesBefore).mem_iff.1 hp
  refine List.forall_mem_append.2 ⟨?_, proseLine_overviewLines (fun p hp ↦ hnamed p (hsorted p hp))
    (fun p hp ↦ hlined p (hsorted p hp)) hlined none⟩
  refine List.forall_mem_cons.2 ⟨?_, List.forall_mem_cons.2 ⟨proseLine_empty,
    List.forall_mem_singleton.2 ?_⟩⟩
  · exact .of_append (by decide) htitle rfl (by decide) (by decide)
  · split
    · exact ⟨by decide, .inr ⟨'N', _, rfl, by decide, by decide⟩⟩
    · exact ⟨by decide, .inr ⟨'D', _, rfl, by decide, by decide⟩⟩

theorem isItem_cons_of_ne {c : Char} (hmark : c ≠ '#') (hdash : c ≠ '-') (cs : List Char) :
    isItem (c :: cs) = false := by
  simp [isItem, List.isPrefixOf, hmark.symm, hdash.symm]

/-- No line of front matter is a heading of a category or an entry. -/
theorem filter_isItem_block (id title : String) (position : Int) :
    (FrontMatter.delimiter :: (FrontMatter.block id title position ++
      [FrontMatter.delimiter])).filter isItem = [] := by
  rw [List.filter_eq_nil_iff]
  simp only [FrontMatter.block, List.cons_append, List.nil_append, List.forall_mem_cons,
    Bool.not_eq_true]
  exact ⟨by decide, isItem_cons_of_ne (by decide) (by decide) _,
    isItem_cons_of_ne (by decide) (by decide) _, isItem_cons_of_ne (by decide) (by decide) _,
    by decide, by simp⟩

/-- The title and the summary are neither. -/
theorem itemsOf_overviewBody (title : String) (written : List Written) :
    itemsOf (overviewBody title written)
      = itemsOf (overviewLines (titlesOf written) none (written.mergeSort comesBefore)) := by
  have htitle : isItem (stripRight ("# " ++ title).toList) = false := by
    obtain ⟨cs, hcs⟩ := stripRight_prefix (' ' :: title.toList)
    rw [String.toList_append,
      show "# ".toList ++ title.toList = '#' :: ' ' :: title.toList from rfl,
      stripRight_cons (by decide)]
    cases hrest : stripRight (' ' :: title.toList) with
    | nil => rfl
    | cons c rest =>
      rw [hrest, List.cons_append] at hcs
      rw [(List.cons.inj hcs).1]
      rfl
  have hfirst : itemsOf ["# " ++ title, "",
      if written.isEmpty then "No documentation was generated for this repository."
      else "Documentation generated for each feature of this repository."] = [] := by
    rw [itemsOf, List.filter_eq_nil_iff]
    refine List.forall_mem_map.2 (List.forall_mem_cons.2 ⟨by rw [htitle]; decide,
      List.forall_mem_cons.2 ⟨by decide, List.forall_mem_singleton.2 ?_⟩⟩)
    split <;> decide
  rw [overviewBody, itemsOf_append, hfirst, List.nil_append]

/-- **The headings and entries of the overview, as it is written**, are those of its sections. -/
theorem items_overviewText {title : String} (htitle : OnOneLine title) {written : List Written}
    (hnamed : ∀ p ∈ written, p.Named) (hlined : ∀ p ∈ written, Lined p.document) :
    ∃ sections, Sections written sections ∧
      (splitOn '\n' (overviewText title written (titlesOf written)).toList).filter isItem
        = sections.flatMap (sectionLines written) := by
  obtain ⟨sections, hsections, hitems⟩ := exists_sections_overviewLines written
  refine ⟨sections, hsections, ?_⟩
  have hprose := proseLine_overviewBody htitle hnamed hlined
  have hlines : splitOn '\n' (joinWith ['\n'] ((overviewBody title written).map String.toList))
      = (overviewBody title written).map String.toList :=
    splitOn_joinWith (List.forall_mem_map.2 fun line hline hmem ↦
      ((hprose line hline).onOneLine _ hmem).2 rfl) (by simp [overviewBody])
  have hreturn : ∀ c ∈ joinWith ['\n'] ((overviewBody title written).map String.toList),
      c ≠ '\r' :=
    forall_mem_joinWith (List.forall_mem_singleton.2 (by decide)) (List.forall_mem_map.2
      fun line hline c hc ↦ ((hprose line hline).onOneLine c hc).1)
  have hbody : Lint.bodyOf (joinWith ['\n'] ((overviewBody title written).map String.toList))
      = joinWith ['\n'] ((overviewBody title written).map String.toList) := by
    have hfirst : ("# " ++ title).toList = '#' :: ' ' :: title.toList := String.toList_append
    refine Lint.bodyOf_eq_self (fun hmem ↦ hreturn _ hmem rfl) hlines ?_ ?_
    · rw [hfirst]
      exact List.cons_ne_nil _ _
    · rw [hfirst]
      exact fun h ↦ absurd (List.cons.inj h).1 (by decide)
  have hempty : splitOn '\n' ('\n' :: Lint.lint (joinWith ['\n']
      ((overviewBody title written).map String.toList)))
        = [] :: splitOn '\n' (Lint.lint (joinWith ['\n']
          ((overviewBody title written).map String.toList))) :=
    splitOn_append_cons List.not_mem_nil _
  have hfence : ∀ raw ∈ splitOn '\n' (joinWith ['\n']
      ((overviewBody title written).map String.toList)), Lint.fence? (stripRight raw) = none := by
    rw [hlines]
    exact List.forall_mem_map.2 fun line hline ↦ (hprose line hline).fence?_eq_none
  rw [toList_overviewText, FrontMatter.blockText_eq,
    splitOn_flatMap (FrontMatter.not_mem_of_mem_lines (.inl rfl)), List.filter_append,
    filter_isItem_block, List.nil_append, hempty, List.filter_cons_of_neg (by decide),
    Lint.filter_splitOn_lint rfl hbody hfence, hlines, List.map_map, ← hitems,
    ← itemsOf_overviewBody title written]
  rfl

end Docwright.Site
