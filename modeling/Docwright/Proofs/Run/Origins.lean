import Docwright.Proofs.Outline.Batch
import Docwright.Proofs.Run.Stages

/-!
# Where the text of a unit comes from

In the mode for files a unit is about one outlined file. Its symbols were read from that file, but
its text is looked up once more, by name and among all files of the job: what it shows is the text
of the last file of that name, which need not be the one with the symbols, nor one that has been
outlined at all.

Every unit shows the text that its symbols were read from exactly when no outlined file is followed
by a file of the same name with another text. That holds of every job whose files have different
names.

Units stand in the order of the groups, so they are matched with files through `arranged`, which
brings the outlined files into that order; it loses none and repeats none.
-/

namespace Docwright.Run

open Outline (TreeSource outlineFile)

variable {trees : TreeSource} {files : List SourceFile} {f : SourceFile} {o : Outline}
  {units : List Page.PageUnit}

/-! ### Files and their outlines -/

/-- A file with its outline, if it has one. -/
def withOutline? (trees : TreeSource) (f : SourceFile) : Option (SourceFile × Outline) :=
  match (outlineFile trees f).2 with
  | .ok (some o) => some (f, o)
  | _ => none

theorem withOutline?_eq_some_iff {origin : SourceFile × Outline} :
    withOutline? trees f = some origin ↔
      origin.1 = f ∧ (outlineFile trees f).2 = .ok (some origin.2) := by
  rw [withOutline?]
  split
  · rename_i o ho
    rw [ho]
    constructor
    · rintro ⟨⟩
      exact ⟨rfl, rfl⟩
    · rintro ⟨rfl, hsame⟩
      cases hsame
      rfl
  · rename_i hnone
    exact ⟨fun h ↦ (by cases h), fun h ↦ absurd h.2 (hnone _)⟩

/-- The files of a job that are outlined, each with its outline. -/
def outlinedFiles (trees : TreeSource) (files : List SourceFile) : List (SourceFile × Outline) :=
  (Source.documentable files).filterMap (withOutline? trees)

/-- An outlined file is one of the job that is worth documenting, and the outline is its own. -/
theorem mem_outlinedFiles {origin : SourceFile × Outline} :
    origin ∈ outlinedFiles trees files ↔ origin.1 ∈ Source.documentable files ∧
      (outlineFile trees origin.1).2 = .ok (some origin.2) := by
  rw [outlinedFiles, List.mem_filterMap]
  constructor
  · rintro ⟨f, hf, h⟩
    obtain ⟨rfl, ho⟩ := withOutline?_eq_some_iff.1 h
    exact ⟨hf, ho⟩
  · rintro ⟨hf, ho⟩
    exact ⟨origin.1, hf, withOutline?_eq_some_iff.2 ⟨rfl, ho⟩⟩

/-- The outline of a file has the name of the file. -/
theorem path_of_outlineFile (h : (outlineFile trees f).2 = .ok (some o)) : o.path = f.path := by
  rw [outlineFile] at h
  split at h
  · cases h
  split at h
  · cases h
  · cases h
  split at h
  · cases h
  · cases h
    rfl

/-- The outlines of a batch are those of its files, in order. -/
theorem outlines_of_outline {outlines : List Outline} {files : List SourceFile}
    (h : (Outline.outline trees files).2 = .ok outlines) :
    outlines = (files.filterMap (withOutline? trees)).map Prod.snd := by
  induction files generalizing outlines with
  | nil => exact (Except.ok.inj h).symm
  | cons f rest ih =>
    rw [Outline.outline_cons] at h
    cases hfile : (outlineFile trees f).2 with
    | error fault =>
      rw [hfile] at h
      cases h
    | ok found =>
      rw [hfile] at h
      cases hrest : (Outline.outline trees rest).2 with
      | error fault =>
        rw [hrest] at h
        cases h
      | ok more =>
        rw [hrest] at h
        obtain rfl := (Except.ok.inj h).symm
        rw [ih hrest]
        cases found with
        | none =>
          have hnone : withOutline? trees f = none := by rw [withOutline?, hfile]
          rw [List.filterMap_cons_none hnone]
          rfl
        | some o =>
          have hsome : withOutline? trees f = some (f, o) :=
            withOutline?_eq_some_iff.2 ⟨rfl, hfile⟩
          rw [List.filterMap_cons_some hsome]
          rfl

/-! ### The last file of a name -/

/-- The file stands in the list, and no file of its name stands behind it. -/
def LastOfName (files : List SourceFile) (f : SourceFile) : Prop :=
  ∃ before after, files = before ++ f :: after ∧ ∀ g ∈ after, g.path ≠ f.path

/-- The search from the end finds the last file of a name. -/
theorem find?_reverse_eq_some_iff {path : String} :
    files.reverse.find? (·.path == path) = some f ↔ LastOfName files f ∧ f.path = path := by
  rw [List.find?_eq_some_iff_append]
  constructor
  · rintro ⟨hf, after, before, hfiles, hafter⟩
    obtain rfl : f.path = path := by simpa using hf
    refine ⟨⟨before.reverse, after.reverse, ?_, fun g hg ↦ ?_⟩, rfl⟩
    · rw [← List.reverse_reverse files, hfiles]
      simp
    · simpa using hafter g (List.mem_reverse.1 hg)
  · rintro ⟨⟨before, after, rfl, hafter⟩, rfl⟩
    refine ⟨by simp, after.reverse, before.reverse, by simp, fun g hg ↦ ?_⟩
    simpa using hafter g (List.mem_reverse.1 hg)

/-- A name that a file has is the name of a last one. -/
theorem exists_lastOfName (hf : f ∈ files) :
    ∃ last, LastOfName files last ∧ last.path = f.path := by
  have hfound : (files.reverse.find? (·.path == f.path)).isSome := by
    rw [List.find?_isSome]
    exact ⟨f, List.mem_reverse.2 hf, by simp⟩
  obtain ⟨last, hlast⟩ := Option.isSome_iff_exists.1 hfound
  exact ⟨last, find?_reverse_eq_some_iff.1 hlast⟩

/-- Where names are different, every file is the last of its name. -/
theorem eq_of_lastOfName (hnodup : (files.map SourceFile.path).Nodup) (hf : f ∈ files)
    {last : SourceFile} (hlast : LastOfName files last) (hpath : last.path = f.path) :
    last = f := by
  obtain ⟨before, after, rfl, -⟩ := hlast
  exact List.inj_on_of_nodup_map hnodup (by simp) hf hpath

/-! ### Units in the order of the groups -/

/-- The text that stands for a name among the files of a job: that of the last file of the name. -/
def textOf (files : List SourceFile) (path : String) : String :=
  ((files.reverse.find? (·.path == path)).map SourceFile.text).getD ""

theorem textOf_eq {last : SourceFile} (hlast : LastOfName files last) :
    textOf files last.path = last.text := by
  rw [textOf, find?_reverse_eq_some_iff.2 ⟨hlast, rfl⟩]
  rfl

/-- Outlined files in the order of the groups of a table. -/
def arranged (table : Feature.Table) (origins : List (SourceFile × Outline)) :
    List (SourceFile × Outline) :=
  (Feature.names table).flatMap fun name ↦
    origins.filter fun origin ↦ Feature.of table origin.2 == name

theorem arranged_perm (table : Feature.Table) (origins : List (SourceFile × Outline)) :
    (arranged table origins).Perm origins := by
  have hnodup : (Feature.names table).Nodup := Feature.nodup_eraseDups _
  exact Feature.flatMap_filter_perm (fun origin : SourceFile × Outline ↦ Feature.of table origin.2)
    hnodup fun origin _ ↦ Feature.of_mem_names table origin.2

/-- The unit of a file in the mode for files. -/
def unitOf (table : Feature.Table) (files : List SourceFile) (o : Outline) : Page.PageUnit :=
  .ofFile o (textOf files o.path) (Feature.of table o)

/-- **In the mode for files there is one unit for each outlined file**, in the order of the
groups. -/
theorem unitsOf_file (table : Feature.Table) (files : List SourceFile)
    (origins : List (SourceFile × Outline)) :
    unitsOf "file" files (Feature.groups table (origins.map Prod.snd)) =
      (arranged table origins).map fun origin ↦ unitOf table files origin.2 := by
  have hunits (gs : List (String × List Outline)) : unitsOf "file" files gs =
      gs.flatMap fun g ↦ g.2.map fun o ↦ .ofFile o (textOf files o.path) g.1 := rfl
  rw [hunits, Feature.groups, Feature.flatMap_filter_nonempty _ _ fun g hg ↦ by rw [hg]; rfl,
    List.flatMap_map, arranged, List.map_flatMap]
  refine List.flatMap_congr fun name _ ↦ ?_
  rw [List.filter_map, List.map_map]
  refine List.map_congr_left fun origin horigin ↦ ?_
  obtain rfl : Feature.of table origin.2 = name := by
    simpa using (List.mem_filter.1 horigin).2
  rfl

/-! ### What units show -/

/-- Each of the units is about another of the outlined files, and shows what `Shown` says of it. -/
def Shows (Shown : SourceFile → String → Prop) (trees : TreeSource) (files : List SourceFile)
    (units : List Page.PageUnit) : Prop :=
  ∃ origins : List (SourceFile × Outline), origins.Perm (outlinedFiles trees files) ∧
    List.Forall₂ (fun origin u ↦ u.outlines = [origin.2] ∧ Shown origin.1 u.content) origins units

/-- The text is that of the file. -/
def OwnText (f : SourceFile) (text : String) : Prop :=
  text = f.text

/-- The text is that of the last of the files with the name of the file. -/
def LastText (files : List SourceFile) (f : SourceFile) (text : String) : Prop :=
  ∃ last, LastOfName files last ∧ last.path = f.path ∧ text = last.text

theorem lastText_iff {last : SourceFile} {text : String} (hlast : LastOfName files last)
    (hpath : last.path = f.path) : LastText files f text ↔ text = last.text := by
  constructor
  · rintro ⟨last', hlast', hpath', rfl⟩
    rw [← textOf_eq hlast', ← textOf_eq hlast, hpath, hpath']
  · rintro rfl
    exact ⟨last, hlast, hpath, rfl⟩

/-- What the unit of an outlined file shows. -/
theorem lastText_unitOf (table : Feature.Table) {origin : SourceFile × Outline}
    (horigin : origin ∈ outlinedFiles trees files) :
    LastText files origin.1 (unitOf table files origin.2).content := by
  obtain ⟨hf, houtline⟩ := mem_outlinedFiles.1 horigin
  obtain ⟨last, hlast, hpath⟩ := exists_lastOfName (List.mem_of_mem_filter hf)
  refine (lastText_iff hlast hpath).2 ?_
  rw [← textOf_eq hlast, hpath, ← path_of_outlineFile houtline]
  rfl

section Prepared

variable {p : Pipeline} {job : String} {w : Works} {Shown : SourceFile → String → Prop}

/-- The units of a job in the mode for files. -/
theorem units_of_prepare (h : (prepare p job "file" files w).1 = .ok units) :
    units = (arranged Feature.standardTable (outlinedFiles p.trees files)).map
      fun origin ↦ unitOf Feature.standardTable files origin.2 := by
  obtain ⟨outlines, houtlines, -, rfl⟩ := ((prepare_spec p job "file" files w).2.2.2 units).1 h
  rw [outlines_of_outline houtlines]
  exact unitsOf_file _ files _

/-- What units show is decided file by file. -/
theorem shows_iff (h : (prepare p job "file" files w).1 = .ok units) :
    Shows Shown p.trees files units ↔ ∀ origin ∈ outlinedFiles p.trees files,
      Shown origin.1 (unitOf Feature.standardTable files origin.2).content := by
  have hunits := units_of_prepare h
  constructor
  · rintro ⟨origins, hperm, hshown⟩ origin horigin
    obtain ⟨i, hi, rfl⟩ := List.mem_iff_getElem.1 (hperm.mem_iff.2 horigin)
    have hi' : i < units.length := hshown.length_eq ▸ hi
    obtain ⟨houtlines, hcontent⟩ := hshown.get hi hi'
    have hunit : units[i] ∈ units := List.getElem_mem hi'
    rw [List.get_eq_getElem, List.get_eq_getElem] at houtlines hcontent
    generalize units[i] = u at houtlines hcontent hunit
    rw [hunits] at hunit
    obtain ⟨origin', -, rfl⟩ := List.mem_map.1 hunit
    -- the unit has the outline of this file, and nothing else decides what it shows
    rwa [List.singleton_inj.1 houtlines] at hcontent
  · intro hshown
    rw [hunits]
    refine ⟨_, arranged_perm _ _, List.forall₂_map_right_iff.2 (List.forall₂_same.2 ?_)⟩
    exact fun origin horigin ↦ ⟨rfl, hshown origin ((arranged_perm _ _).mem_iff.1 horigin)⟩

/-- **Every unit shows the text that its symbols were read from exactly when no outlined file is
followed by one of its name with another text**, and always when the files of the job have different
names. In any case there is one unit for each outlined file, and it shows the text of the last file
of the name. -/
theorem shows_ownText_iff (h : (prepare p job "file" files w).1 = .ok units) :
    Shows (LastText files) p.trees files units ∧
      (Shows OwnText p.trees files units ↔ ∀ origin ∈ outlinedFiles p.trees files, ∀ last,
        LastOfName files last → last.path = origin.1.path → last.text = origin.1.text) ∧
      ((files.map SourceFile.path).Nodup → Shows OwnText p.trees files units) := by
  have hiff : Shows OwnText p.trees files units ↔ ∀ origin ∈ outlinedFiles p.trees files, ∀ last,
      LastOfName files last → last.path = origin.1.path → last.text = origin.1.text := by
    rw [shows_iff h]
    refine forall₂_congr fun origin horigin ↦ ?_
    have hunit := lastText_unitOf Feature.standardTable horigin
    constructor
    · intro hown last hlast hpath
      rw [← (lastText_iff hlast hpath).1 hunit]
      exact hown
    · intro hsame
      obtain ⟨last, hlast, hpath, hcontent⟩ := hunit
      exact hcontent.trans (hsame last hlast hpath)
  refine ⟨(shows_iff h).2 fun origin ↦ lastText_unitOf _, hiff, fun hnodup ↦ hiff.2 ?_⟩
  intro origin horigin last hlast hpath
  rw [eq_of_lastOfName hnodup (List.mem_of_mem_filter (mem_outlinedFiles.1 horigin).1) hlast hpath]

end Prepared

/-! ### Two files of one name -/

namespace Namesakes

open Outline Outline.Unisolated

/-- A file without declarations that has the name of another. -/
def namesake : SourceFile where
  path := "good.py"
  content := "x = 1\n".toList.map fun c ↦ c.toNat.toUInt8

/-- A module in which nothing is declared. -/
def emptyModule : Node :=
  .mk "module" true false false true none 0 6 0 0 []

/-- A pipeline with the trees of the two files. -/
def pipeline : Pipeline where
  trees := fun _ source ↦ if source.length = 6 then emptyModule else moduleOf function
  service := fun _ _ ↦ .ok ""

theorem outlineFile_named : (outlineFile pipeline.trees named).2 = .ok (some outlined) := by
  have hsymbols : Python.collect named.content true [function] =
      .ok [.mk .function "f" 1 1 [] none] :=
    Python.collect_cons_ok_iff.2 ⟨[_], [],
      .function rfl rfl rfl (Python.collect_eq_nil (by decide)), Python.collect_nil, rfl⟩
  have hdialect : Dialect.of? named.path = some .python := rfl
  have hroot : soundTree pipeline.trees (Dialect.python.grammarOf named.path) named.content =
      .ok (moduleOf function) := rfl
  rw [outlineFile_of_soundTree hdialect hroot]
  exact congrArg (Except.map _) hsymbols

theorem outlineFile_namesake : (outlineFile pipeline.trees namesake).2 = .ok none := by
  have hdialect : Dialect.of? namesake.path = some .python := rfl
  have hroot : soundTree pipeline.trees (Dialect.python.grammarOf namesake.path) namesake.content =
      .ok emptyModule := rfl
  rw [outlineFile_of_soundTree hdialect hroot]
  exact congrArg (Except.map _) Python.collect_nil

theorem documentable_both :
    Source.documentable [named, namesake] = [named, namesake] := by
  decide +kernel

/-- The only unit has the symbols of the one file and shows the text of the other. -/
theorem not_shows_ownText : ∃ units,
    (prepare pipeline "job" "file" [named, namesake] emptyWorks).1 = .ok units ∧
      ¬Shows OwnText pipeline.trees [named, namesake] units := by
  have houtline : (outline pipeline.trees (Source.documentable [named, namesake])).2 =
      .ok [outlined] := by
    rw [documentable_both, outline_cons, outlineFile_named, outline_singleton,
      outlineFile_namesake]
    rfl
  obtain ⟨units, hunits⟩ : ∃ units,
      (prepare pipeline "job" "file" [named, namesake] emptyWorks).1 = .ok units :=
    ⟨_, ((prepare_spec pipeline "job" "file" _ emptyWorks).2.2.2 _).2
      ⟨_, houtline, List.cons_ne_nil _ _, rfl⟩⟩
  refine ⟨units, hunits, fun hown ↦ ?_⟩
  have hsame := (shows_ownText_iff hunits).2.1.1 hown (named, outlined)
    (mem_outlinedFiles.2 ⟨by rw [documentable_both]; exact List.mem_cons_self, outlineFile_named⟩)
    namesake ⟨[named], [], rfl, fun g hg ↦ absurd hg List.not_mem_nil⟩ rfl
  exact absurd hsame (by decide +kernel)

end Namesakes

end Docwright.Run
