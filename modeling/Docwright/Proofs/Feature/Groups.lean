import Docwright.Proofs.Text.Blank
import Docwright.Run

/-!
# How files fall into features

What the feature of a file is can be said without the search that finds it: `FirstIn` is the first
entry of a table that a text mentions, and `Belongs` goes from the folder of a file to its name and
from there to its symbols, each only when the one before mentions no entry.

* `of_eq_iff` - the search finds exactly the feature that a file belongs to.
* `groups_partition` - the groups are the files, each once, in the order in which the features first
  stand in the table, and the units of a job take over the groups file by file.

The groups are made by one pass over the files for every feature. That no file gets lost or is taken
twice rests on the names being without repetition and on every feature being among them, so both are
proved first, of lists in general.
-/

namespace Docwright.Feature

/-! ### Order of first occurrence -/

section FirstOccurrence

variable {α : Type*} [BEq α] [LawfulBEq α]

/-- What stands first of two elements that a filter keeps also stands first without the filter. -/
theorem idxOf_lt_of_filter {keep : α → Bool} {a b : α} (ha : keep a = true) (hb : keep b = true)
    {xs : List α} (h : (xs.filter keep).idxOf a < (xs.filter keep).idxOf b) :
    xs.idxOf a < xs.idxOf b := by
  induction xs with
  | nil => exact absurd h (Nat.lt_irrefl _)
  | cons x xs ih =>
    by_cases hxb : x = b
    · subst hxb
      rw [List.filter_cons_of_pos hb, List.idxOf_cons_self] at h
      exact absurd h (Nat.not_lt_zero _)
    · by_cases hxa : x = a
      · subst hxa
        rw [List.idxOf_cons_self, List.idxOf_cons_ne _ hxb]
        exact Nat.succ_pos _
      · rw [List.idxOf_cons_ne _ hxa, List.idxOf_cons_ne _ hxb]
        refine Nat.succ_lt_succ (ih ?_)
        by_cases hx : keep x = true
        · rw [List.filter_cons_of_pos hx, List.idxOf_cons_ne _ hxa, List.idxOf_cons_ne _ hxb] at h
          exact Nat.lt_of_succ_lt_succ h
        · rwa [List.filter_cons_of_neg hx] at h

/-- Without its repetitions a list is in the order of first occurrence. -/
theorem pairwise_eraseDups (xs : List α) :
    xs.eraseDups.Pairwise fun a b ↦ xs.idxOf a < xs.idxOf b := by
  match xs with
  | [] => exact List.Pairwise.nil
  | x :: xs =>
    rw [List.eraseDups_cons, List.pairwise_cons]
    have hother : ∀ b ∈ (xs.filter fun b ↦ !b == x).eraseDups, b ≠ x := fun b hb ↦ by
      have hkept := (List.mem_filter.1 (List.mem_eraseDups.1 hb)).2
      simpa using hkept
    refine ⟨fun b hb ↦ ?_, ?_⟩
    · rw [List.idxOf_cons_self, List.idxOf_cons_ne _ (hother b hb).symm]
      exact Nat.succ_pos _
    · refine (pairwise_eraseDups (xs.filter fun b ↦ !b == x)).imp_of_mem fun {a b} ha hb hab ↦ ?_
      rw [List.idxOf_cons_ne _ (hother a ha).symm, List.idxOf_cons_ne _ (hother b hb).symm]
      refine Nat.succ_lt_succ (idxOf_lt_of_filter ?_ ?_ hab)
      · simpa using hother a ha
      · simpa using hother b hb
termination_by xs.length
decreasing_by exact Nat.lt_succ_of_le (List.length_filter_le _ _)

theorem nodup_eraseDups (xs : List α) : xs.eraseDups.Nodup :=
  (pairwise_eraseDups xs).imp fun hab heq ↦ by
    subst heq
    exact Nat.lt_irrefl _ hab

end FirstOccurrence

/-! ### Sorting by a name into bins -/

section Bins

variable {α β : Type*}

/-- Bins without anything in them add nothing. -/
theorem flatMap_filter_nonempty {γ : Type*} (bins : List (β × List α)) (f : β × List α → List γ)
    (hf : ∀ bin, bin.2 = [] → f bin = []) :
    (bins.filter fun bin ↦ !bin.2.isEmpty).flatMap f = bins.flatMap f := by
  induction bins with
  | nil => rfl
  | cons bin bins ih =>
    cases hbin : bin.2 with
    | nil =>
      rw [List.filter_cons_of_neg (by simp [hbin]), ih, List.flatMap_cons, hf bin hbin,
        List.nil_append]
    | cons x xs => rw [List.filter_cons_of_pos (by simp [hbin]), List.flatMap_cons, ih,
        List.flatMap_cons]

variable [BEq β] [LawfulBEq β]

/-- **One pass for every name of a list without repetitions takes each element once**, when the name
of every element is on the list. -/
theorem flatMap_filter_perm (f : α → β) {names : List β} (hnodup : names.Nodup) {xs : List α}
    (hnamed : ∀ x ∈ xs, f x ∈ names) :
    (names.flatMap fun name ↦ xs.filter fun x ↦ f x == name).Perm xs := by
  induction names generalizing xs with
  | nil =>
    have hnil : xs = [] := List.eq_nil_iff_forall_not_mem.2 fun x hx ↦
      absurd (hnamed x hx) List.not_mem_nil
    rw [hnil]
    exact List.Perm.nil
  | cons name names ih =>
    obtain ⟨hfresh, hnodup⟩ := List.nodup_cons.1 hnodup
    -- what the first name leaves over is all that the later ones can find
    have hlater : (names.flatMap fun n ↦ xs.filter fun x ↦ f x == n) =
        names.flatMap fun n ↦ (xs.filter fun x ↦ !(f x == name)).filter fun x ↦ f x == n := by
      refine List.flatMap_congr fun n hn ↦ ?_
      rw [List.filter_filter]
      refine List.filter_congr fun x _ ↦ ?_
      by_cases hx : f x = n
      · have hne : n ≠ name := fun heq ↦ hfresh (heq ▸ hn)
        simp [hx, hne]
      · simp [hx]
    have hrest : ∀ x ∈ xs.filter fun x ↦ !(f x == name), f x ∈ names := fun x hx ↦ by
      obtain ⟨hx, hne⟩ := List.mem_filter.1 hx
      exact (List.mem_cons.1 (hnamed x hx)).resolve_left (by simpa using hne)
    rw [List.flatMap_cons, hlater]
    exact ((ih hnodup hrest).append_left _).trans (List.filter_append_perm _ _)

end Bins

/-! ### What the feature of a file is -/

/-- The text mentions an entry of a table: it has a keyword of the entry as a piece. An empty text
mentions nothing. -/
def Mentions (cs : List Char) (entry : String × List String) : Prop :=
  cs ≠ [] ∧ ∃ keyword ∈ entry.2, keyword.toList <:+: cs

/-- The feature is that of the first entry that the text mentions. -/
def FirstIn (table : Table) (cs : List Char) (feature : String) : Prop :=
  ∃ before entry after, table = before ++ entry :: after ∧ entry.1 = feature ∧
    Mentions cs entry ∧ ∀ earlier ∈ before, ¬Mentions cs earlier

/-- The text mentions no entry. -/
def NoneIn (table : Table) (cs : List Char) : Prop :=
  ∀ entry ∈ table, ¬Mentions cs entry

/-- The path of a file in lower case, with slashes between folders. -/
def lowerPath (o : Outline) : List Char :=
  Text.lower (Source.withSlashes o.path.toList)

/-- The folder of a file in lower case. -/
def folderText (o : Outline) : List Char :=
  Source.folderName (lowerPath o)

/-- The name of a file in lower case. -/
def nameText (o : Outline) : List Char :=
  Source.baseName (lowerPath o)

/-- The names of all symbols of a file, one after the other and in lower case. -/
def symbolText (o : Outline) : List Char :=
  Text.lower (o.symbolNames.map String.toList).flatten

/-- The feature that a file belongs to. -/
inductive Belongs (table : Table) (o : Outline) : String → Prop
  /-- The folder decides before anything else. -/
  | byFolder {feature : String} (h : FirstIn table (folderText o) feature) : Belongs table o feature
  /-- The name of the file decides when the folder does not. -/
  | byName {feature : String} (hfolder : NoneIn table (folderText o))
      (h : FirstIn table (nameText o) feature) : Belongs table o feature
  /-- The symbols decide when neither the folder nor the name does. -/
  | bySymbols {feature : String} (hfolder : NoneIn table (folderText o))
      (hname : NoneIn table (nameText o)) (h : FirstIn table (symbolText o) feature) :
      Belongs table o feature
  /-- Nothing decides. -/
  | byNothing (hfolder : NoneIn table (folderText o)) (hname : NoneIn table (nameText o))
      (hsymbols : NoneIn table (symbolText o)) : Belongs table o other

theorem mentions_iff {cs : List Char} (hcs : cs ≠ []) (entry : String × List String) :
    (entry.2.any fun k ↦ Text.occursIn k.toList cs) = true ↔ Mentions cs entry := by
  simp only [List.any_eq_true, Text.occursIn_iff, Mentions, ne_eq, hcs, not_false_eq_true,
    true_and]

/-- The search of a text finds the first entry that it mentions. -/
theorem inText?_eq_some_iff {table : Table} {cs : List Char} {feature : String} :
    inText? table cs = some feature ↔ FirstIn table cs feature := by
  by_cases hcs : cs = []
  · subst hcs
    refine ⟨fun h ↦ (by cases h), fun ⟨_, _, _, _, _, hentry, _⟩ ↦ absurd rfl hentry.1⟩
  · rw [inText?, if_neg (by simpa using hcs)]
    simp only [Option.map_eq_some_iff, List.find?_eq_some_iff_append, mentions_iff hcs,
      Bool.not_eq_true', ← Bool.not_eq_true]
    constructor
    · rintro ⟨entry, ⟨hentry, before, after, htable, hbefore⟩, hname⟩
      exact ⟨before, entry, after, htable, hname, hentry, hbefore⟩
    · rintro ⟨before, entry, after, htable, hname, hentry, hbefore⟩
      exact ⟨entry, ⟨hentry, before, after, htable, hbefore⟩, hname⟩

theorem inText?_eq_none_iff {table : Table} {cs : List Char} :
    inText? table cs = none ↔ NoneIn table cs := by
  by_cases hcs : cs = []
  · subst hcs
    exact ⟨fun _ entry _ hentry ↦ hentry.1 rfl, fun _ ↦ rfl⟩
  · rw [inText?, if_neg (by simpa using hcs), Option.map_eq_none_iff, List.find?_eq_none]
    simp only [mentions_iff hcs, NoneIn]

/-- **The search finds exactly the feature that a file belongs to.** -/
theorem of_eq_iff {table : Table} {o : Outline} {feature : String} :
    of table o = feature ↔ Belongs table o feature := by
  have htexts : haystacks o = [folderText o, nameText o, symbolText o] := rfl
  have hof : of table o = ((inText? table (folderText o)).or ((inText? table (nameText o)).or
      (inText? table (symbolText o)))).getD other := by
    rw [of, htexts, List.findSome?_cons, List.findSome?_cons, List.findSome?_cons,
      List.findSome?_nil]
    cases inText? table (folderText o) <;> cases inText? table (nameText o) <;>
      cases inText? table (symbolText o) <;> rfl
  constructor
  · rintro rfl
    rw [hof]
    cases hfolder : inText? table (folderText o) with
    | some feature => exact .byFolder (inText?_eq_some_iff.1 hfolder)
    | none =>
      rw [Option.none_or]
      cases hname : inText? table (nameText o) with
      | some feature =>
        exact .byName (inText?_eq_none_iff.1 hfolder) (inText?_eq_some_iff.1 hname)
      | none =>
        rw [Option.none_or]
        cases hsymbols : inText? table (symbolText o) with
        | some feature =>
          exact .bySymbols (inText?_eq_none_iff.1 hfolder) (inText?_eq_none_iff.1 hname)
            (inText?_eq_some_iff.1 hsymbols)
        | none =>
          exact .byNothing (inText?_eq_none_iff.1 hfolder) (inText?_eq_none_iff.1 hname)
            (inText?_eq_none_iff.1 hsymbols)
  · intro h
    rw [hof]
    cases h with
    | byFolder h => rw [inText?_eq_some_iff.2 h, Option.some_or, Option.getD_some]
    | byName hfolder h =>
      rw [inText?_eq_none_iff.2 hfolder, Option.none_or, inText?_eq_some_iff.2 h, Option.some_or,
        Option.getD_some]
    | bySymbols hfolder hname h =>
      rw [inText?_eq_none_iff.2 hfolder, Option.none_or, inText?_eq_none_iff.2 hname,
        Option.none_or, inText?_eq_some_iff.2 h, Option.getD_some]
    | byNothing hfolder hname hsymbols =>
      rw [inText?_eq_none_iff.2 hfolder, Option.none_or, inText?_eq_none_iff.2 hname,
        Option.none_or, inText?_eq_none_iff.2 hsymbols, Option.getD_none]

/-! ### The names of groups -/

/-- Every file belongs to a feature with a name of its own among those of the groups. -/
theorem of_mem_names (table : Table) (o : Outline) : of table o ∈ names table := by
  refine List.mem_eraseDups.2 (List.mem_append.2 ?_)
  have hfirst : ∀ {cs : List Char} {feature : String}, FirstIn table cs feature →
      feature ∈ table.map (·.1) := by
    rintro cs _ ⟨before, entry, after, rfl, rfl, _, _⟩
    exact List.mem_map_of_mem (List.mem_append_right _ List.mem_cons_self)
  have hbelongs : Belongs table o (of table o) := of_eq_iff.1 rfl
  generalize of table o = feature at hbelongs
  cases hbelongs with
  | byFolder h => exact .inl (hfirst h)
  | byName _ h => exact .inl (hfirst h)
  | bySymbols _ _ h => exact .inl (hfirst h)
  | byNothing => exact .inr List.mem_cons_self

/-- A name that stands in a list or is put at its end has the same place with and without the end,
where the place of a missing name is after all others. -/
theorem idxOf_concat {xs : List String} {last a : String} (ha : a ∈ xs ++ [last]) :
    (xs ++ [last]).idxOf a = xs.idxOf a := by
  by_cases hmem : a ∈ xs
  · exact List.idxOf_append_of_mem hmem
  · obtain rfl : a = last := by simpa [hmem] using ha
    rw [List.idxOf_append_of_notMem hmem, List.idxOf_cons_self, List.idxOf_eq_length hmem,
      Nat.add_zero]

/-- The names stand in the order of the table; `Other` comes last when it is not in the table. -/
theorem pairwise_names (table : Table) :
    (names table).Pairwise fun a b ↦
      (table.map (·.1)).idxOf a < (table.map (·.1)).idxOf b := by
  refine (pairwise_eraseDups (table.map (·.1) ++ [other])).imp_of_mem fun {a b} ha hb hab ↦ ?_
  rwa [idxOf_concat (List.mem_eraseDups.1 ha), idxOf_concat (List.mem_eraseDups.1 hb)] at hab

/-! ### Groups and units -/

/-- What it is to group files by the features of a table. -/
structure IsGrouping (table : Table) (files : List Outline)
    (gs : List (String × List Outline)) : Prop where
  /-- The groups hold the files, each as often as it is there. -/
  perm : (gs.flatMap (·.2)).Perm files
  nonempty : ∀ g ∈ gs, g.2 ≠ []
  /-- Files keep their order. -/
  inOrder : ∀ g ∈ gs, g.2.Sublist files
  /-- A group holds all files that belong to its feature and no others. -/
  members : ∀ g ∈ gs, ∀ o, o ∈ g.2 ↔ o ∈ files ∧ Belongs table o g.1
  /-- Groups stand in the order in which the table first has their features. A feature that is not
  in the table has the place after its end. -/
  ordered : (gs.map (·.1)).Pairwise fun a b ↦
    (table.map (·.1)).idxOf a < (table.map (·.1)).idxOf b

/-- What it is for units to take over groups. -/
structure TakesOver (gs : List (String × List Outline)) (units : List Page.PageUnit) : Prop where
  /-- The outlines of the units are those of the groups in order, each under its feature. -/
  outlines : (units.flatMap fun u ↦ u.outlines.map fun o ↦ (u.category, o)) =
    gs.flatMap fun g ↦ g.2.map fun o ↦ (g.1, o)
  /-- A unit covers the files of its outlines. -/
  files : ∀ u ∈ units, u.files = u.outlines.map Outline.path

theorem groups_isGrouping (table : Table) (files : List Outline) :
    IsGrouping table files (groups table files) where
  perm := by
    rw [groups, flatMap_filter_nonempty _ _ fun _ hbin ↦ hbin, List.flatMap_map]
    exact flatMap_filter_perm (of table) (nodup_eraseDups _) fun o _ ↦ of_mem_names table o
  nonempty := fun g hg hnil ↦ by
    have hkept := (List.mem_filter.1 hg).2
    simp [hnil] at hkept
  inOrder := fun g hg ↦ by
    obtain ⟨name, _, rfl⟩ := List.mem_map.1 (List.mem_filter.1 hg).1
    exact List.filter_sublist
  members := fun g hg o ↦ by
    obtain ⟨name, _, rfl⟩ := List.mem_map.1 (List.mem_filter.1 hg).1
    rw [List.mem_filter, beq_iff_eq, of_eq_iff]
  ordered := by
    have hnames : ((names table).map fun name ↦
        (name, files.filter fun o ↦ of table o == name)).map (·.1) = names table := by
      rw [List.map_map]
      exact List.map_id _
    refine List.Pairwise.sublist (List.filter_sublist.map _) ?_
    rw [hnames]
    exact pairwise_names table

/-- In the mode for features every group is a unit. -/
theorem unitsOf_group (files : List SourceFile) (gs : List (String × List Outline)) :
    Run.unitsOf "group" files gs = gs.map fun g ↦ .ofGroup g.1 g.2 := rfl

/-- In any other mode every file is a unit of its own, in the order of the groups. -/
theorem exists_unitsOf_of_ne_group {mode : String} (hmode : mode ≠ "group")
    (files : List SourceFile) (gs : List (String × List Outline)) :
    ∃ source : Outline → String, Run.unitsOf mode files gs =
      gs.flatMap fun g ↦ g.2.map fun o ↦ .ofFile o (source o) g.1 := by
  refine ⟨fun o ↦ ((files.reverse.find? (·.path == o.path)).map SourceFile.text).getD "", ?_⟩
  rw [Run.unitsOf, if_neg (by simpa using hmode)]

/-- What the pages of a mode are about, each under its feature: every group, or every file. -/
def shares (mode : String) (gs : List (String × List Outline)) : List (String × List Outline) :=
  if mode = "group" then gs else gs.flatMap fun g ↦ g.2.map fun o ↦ (g.1, [o])

/-- There is one unit for each share. -/
theorem unitsOf_shares (mode : String) (files : List SourceFile)
    (gs : List (String × List Outline)) :
    (Run.unitsOf mode files gs).map (fun u ↦ (u.category, u.outlines)) = shares mode gs := by
  by_cases hmode : mode = "group"
  · subst hmode
    rw [unitsOf_group, shares, if_pos rfl, List.map_map]
    exact List.map_id gs
  · obtain ⟨source, hunits⟩ := exists_unitsOf_of_ne_group hmode files gs
    rw [hunits, shares, if_neg hmode, List.map_flatMap]
    refine List.flatMap_congr fun g _ ↦ ?_
    rw [List.map_map]
    rfl

/-- The units of any mode take over the groups. -/
theorem unitsOf_takesOver (mode : String) (files : List SourceFile)
    (gs : List (String × List Outline)) : TakesOver gs (Run.unitsOf mode files gs) := by
  by_cases hmode : mode = "group"
  · subst hmode
    rw [unitsOf_group]
    refine ⟨?_, fun u hu ↦ ?_⟩
    · rw [List.flatMap_map]
      rfl
    · obtain ⟨g, _, rfl⟩ := List.mem_map.1 hu
      rfl
  · obtain ⟨source, hunits⟩ := exists_unitsOf_of_ne_group hmode files gs
    rw [hunits]
    refine ⟨?_, fun u hu ↦ ?_⟩
    · rw [List.flatMap_assoc]
      refine List.flatMap_congr fun g _ ↦ ?_
      rw [List.flatMap_map, List.map_eq_flatMap]
      rfl
    · obtain ⟨g, _, hu⟩ := List.mem_flatMap.1 hu
      obtain ⟨o, _, rfl⟩ := List.mem_map.1 hu
      rfl

/-- A unit of a job is one of a feature or of a file. -/
theorem kind_of_mem_unitsOf {mode : String} {files : List SourceFile}
    {gs : List (String × List Outline)} {u : Page.PageUnit} (h : u ∈ Run.unitsOf mode files gs) :
    u.kind = .group ∨ u.kind = .file := by
  by_cases hmode : mode = "group"
  · subst hmode
    rw [unitsOf_group] at h
    obtain ⟨g, _, rfl⟩ := List.mem_map.1 h
    exact .inl rfl
  · obtain ⟨source, hunits⟩ := exists_unitsOf_of_ne_group hmode files gs
    rw [hunits] at h
    obtain ⟨g, _, h⟩ := List.mem_flatMap.1 h
    obtain ⟨o, _, rfl⟩ := List.mem_map.1 h
    exact .inr rfl

/-- The units of a job hold every file once. -/
theorem unitsOf_perm (table : Table) (mode : String) (sources : List SourceFile)
    (files : List Outline) :
    ((Run.unitsOf mode sources (groups table files)).flatMap (·.outlines)).Perm files := by
  have htakes := congrArg (List.map Prod.snd)
    (unitsOf_takesOver mode sources (groups table files)).outlines
  simp only [List.map_flatMap, List.map_map, Function.comp_def, List.map_id'] at htakes
  rw [htakes]
  exact (groups_isGrouping table files).perm

/-- **Every file falls into exactly one group**, that of the one feature it belongs to, and the
units of either mode hold every file exactly once, in the order of the groups. Files may be repeated
and so may the features of the table. -/
theorem groups_partition (table : Table) (files : List Outline) :
    IsGrouping table files (groups table files) ∧
      (∀ o, ∃! feature, Belongs table o feature) ∧
      ∀ mode sources, TakesOver (groups table files)
        (Run.unitsOf mode sources (groups table files)) := by
  refine ⟨groups_isGrouping table files, fun o ↦ ⟨of table o, of_eq_iff.1 rfl, ?_⟩,
    fun mode sources ↦ unitsOf_takesOver mode sources _⟩
  exact fun feature h ↦ (of_eq_iff.2 h).symm

end Docwright.Feature
