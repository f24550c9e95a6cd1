import Docwright.Proofs.Files.Ground
import Docwright.Proofs.Files.Name
import Docwright.Proofs.Source.Walk

/-!
# What a survey collects

In a repository without links, with rules, whose files can all be read, a survey collects the files
that the rules spare, that are not too large and that are worth documenting, each of them once and
with the bytes that stand on the disk (`collect_spared`).
-/

namespace Docwright.Source.Survey

open Files (Entry)

variable {d : Files.Disk} {root : Files.Path} {rules : List IgnoreRule} {place : List String}
  {members : List (String × Entry)} {bytes : List UInt8} {f : SourceFile}

/-- The place that the name of a file stands for. -/
def placeOf (f : SourceFile) : List String :=
  (Files.Path.ofString f.path).parts

/-- What reading a file that is there comes to. -/
theorem readFile_eq_some_iff (hpath : Files.Path.ofString (pathTo place) = ⟨false, place⟩)
    (hread : d.read (root.along place) = .ok bytes) :
    (readFile d root (pathTo place)).2 = some f ↔
      f = ⟨pathTo place, bytes⟩ ∧ bytes.length ≤ maxBytes ∧ isDocumentable f = true := by
  have hjoin : root.join (.ofString (pathTo place)) = root.along place := by rw [hpath]; rfl
  rw [readFile, hjoin, hread]
  simp only
  by_cases hsize : maxBytes < bytes.length
  · rw [if_pos hsize]
    exact iff_of_false nofun fun h ↦ absurd h.2.1 (Nat.not_le.2 hsize)
  · rw [if_neg hsize]
    simp only [Option.ite_none_right_eq_some, Option.some.injEq]
    constructor
    · rintro ⟨hkeep, rfl⟩
      exact ⟨rfl, Nat.not_lt.1 hsize, hkeep⟩
    · rintro ⟨rfl, -, hkeep⟩
      exact ⟨hkeep, rfl⟩

/-- What is kept is read at the places that the walk comes to. -/
theorem kept_eq {places : List (List String)}
    (hvisits : Visits d root rules [] (.folder members) places) :
    kept d root rules (.folder members)
      = places.filterMap fun place ↦ (readFile d root (pathTo place)).2 := by
  rw [kept, hvisits.paths, List.filterMap_map]
  rfl

/-- A tree of files that a survey can read: no links, every name one part of a path, and every file
readable. -/
structure Readable (d : Files.Disk) (root : Files.Path) (members : List (String × Entry)) :
    Prop where
  lists : d.members root = .ok members
  plain : (Entry.folder members).Plain
  named : (Entry.folder members).Named
  read : ∀ place bytes, (Entry.folder members).get? place = some (.file bytes) →
    ∃ content, d.read (root.along place) = .ok content

namespace Readable

theorem read_eq (h : Readable d root members)
    (hfile : (Entry.folder members).get? place = some (.file bytes)) :
    d.read (root.along place) = .ok bytes := by
  obtain ⟨g, rfl, hcarries⟩ := Files.Disk.carries_of_members h.lists h.plain
  obtain ⟨content, hread⟩ := h.read place bytes hfile
  have hdots := h.plain.not_mem_of_get? hfile
  rw [hread, hcarries.read_eq (Entry.ne_nil_of_get?_file hfile) hdots hfile hread]

theorem ofString_pathTo (h : Readable d root members)
    (hfile : (Entry.folder members).get? place = some (.file bytes)) :
    Files.Path.ofString (pathTo place) = ⟨false, place⟩ :=
  Files.Path.ofString_intercalate (Entry.ne_nil_of_get?_file hfile) (h.named.isName_of_get? hfile)

theorem readFile_iff (h : Readable d root members)
    (hfile : (Entry.folder members).get? place = some (.file bytes)) :
    (readFile d root (pathTo place)).2 = some f ↔
      f = ⟨pathTo place, bytes⟩ ∧ bytes.length ≤ maxBytes ∧ isDocumentable f = true :=
  readFile_eq_some_iff (h.ofString_pathTo hfile) (h.read_eq hfile)

theorem placeOf_eq (h : Readable d root members)
    (hfile : (Entry.folder members).get? place = some (.file bytes))
    (hread : (readFile d root (pathTo place)).2 = some f) : placeOf f = place := by
  obtain ⟨rfl, -⟩ := (h.readFile_iff hfile).1 hread
  rw [placeOf, h.ofString_pathTo hfile]

/-- **What is kept** of the files in a readable tree. -/
theorem mem_kept_iff (h : Readable d root members) :
    f ∈ kept d root rules (.folder members) ↔
      ∃ place, (Entry.folder members).get? place = some (.file f.content) ∧
        f.path = pathTo place ∧ Spared rules [] place ∧ f.content.length ≤ maxBytes ∧
        isDocumentable f = true := by
  obtain ⟨places, hvisits⟩ := exists_visits h.plain d root rules []
  rw [kept_eq hvisits, List.mem_filterMap]
  constructor
  · rintro ⟨place, hplace, hread⟩
    obtain ⟨-, ⟨bytes, hfile⟩, hspared⟩ := (hvisits.mem_iff place).1 hplace
    obtain ⟨rfl, hsize, hkeep⟩ := (h.readFile_iff hfile).1 hread
    exact ⟨place, hfile, rfl, hspared, hsize, hkeep⟩
  · rintro ⟨place, hfile, hpath, hspared, hsize, hkeep⟩
    have hne := Entry.ne_nil_of_get?_file hfile
    refine ⟨place, (hvisits.mem_iff place).2 ⟨hne, ⟨_, hfile⟩, hspared⟩, ?_⟩
    exact (h.readFile_iff hfile).2 ⟨by rw [← hpath], hsize, hkeep⟩

/-- What is kept is in the order of the places. -/
theorem pairwise_kept (h : Readable d root members) :
    (kept d root rules (.folder members)).Pairwise fun f g ↦ Before (placeOf f) (placeOf g) := by
  obtain ⟨places, hvisits⟩ := exists_visits h.plain d root rules []
  rw [kept_eq hvisits, List.pairwise_filterMap]
  refine hvisits.order.imp_of_mem fun {place place'} hplace hplace' hbefore f hf f' hf' ↦ ?_
  obtain ⟨-, ⟨bytes, hfile⟩, -⟩ := (hvisits.mem_iff place).1 hplace
  obtain ⟨-, ⟨bytes', hfile'⟩, -⟩ := (hvisits.mem_iff place').1 hplace'
  rwa [h.placeOf_eq hfile hf, h.placeOf_eq hfile' hf']

end Readable

/-- **What a survey collects**, in a repository without links whose files can be read and whose
rules can be loaded: just the files that are spared by the rules of the ignore file, of the patterns
and of the settings, that are small enough and worth documenting, each once and with its bytes; the
files of a folder by name before those in its folders, and these by the names of the folders. -/
theorem collect_spared (read : Config.SettingsReader) (d : Files.Disk) (patterns : List String)
    (root : Files.Path) (shown : String) (members : List (String × Entry)) (own : List IgnoreRule)
    (more : List String) (htree : Readable d (d.resolve root) members)
    (hown : IgnoreFile d (d.resolve root) own) (hmore : SettingsFile read d (d.resolve root) more) :
    ∃ log files, collectBy read d patterns root shown = (log, .ok files) ∧
      (∀ f, f ∈ files ↔ ∃ place, (Entry.folder members).get? place = some (.file f.content) ∧
        f.path = pathTo place ∧ Spared (own ++ ofPatterns (patterns ++ more)) [] place ∧
        f.content.length ≤ maxBytes ∧ isDocumentable f = true) ∧
      (files.map SourceFile.path).Nodup ∧
      files.Pairwise fun f g ↦ Before (placeOf f) (placeOf g) := by
  obtain ⟨g, hg, hcarries⟩ := Files.Disk.carries_of_members htree.lists htree.plain
  have hroot : d.find? (d.resolve root) = .ok (some (.folder members)) := hg ▸ hcarries.find?_self
  have hrules : (rules read d patterns (d.resolve root)).2 =
      .ok (own ++ ofPatterns (patterns ++ more)) :=
    rules_eq_ok_iff.2 ⟨own, more, hown, hmore, rfl⟩
  rcases collect_cases hroot rfl patterns shown with
    ⟨log, rs, hrs, hcollect⟩ | ⟨log, crash, hcrash, -⟩
  · obtain rfl := Except.ok.inj (hrules.symm.trans hrs)
    refine ⟨log, _, hcollect, fun f ↦ htree.mem_kept_iff, ?_, htree.pairwise_kept⟩
    -- places in order are different, so the names that stand for them are
    refine List.pairwise_map.2 (htree.pairwise_kept.imp fun {f g} hbefore hpath ↦ ?_)
    rw [placeOf, placeOf, hpath] at hbefore
    exact Before.irrefl _ hbefore
  · cases hrules.symm.trans hcrash

/-! ### A rule that brings nothing back -/

/-- The text of an ignore file that leaves a folder out and takes a file in it back. -/
def takingBack : String := "gen/\n!gen/a.py\n"

/-- The bytes of a source file. -/
def sample : List UInt8 := Text.Utf8.ofString "def f():\n    return 1\n"

/-- A repository with that ignore file, a source file and a folder with another one. -/
def prunedMembers : List (String × Entry) :=
  [(".gitignore", .file (Text.Utf8.ofString takingBack)), ("b.py", .file sample),
    ("gen", .folder [("a.py", .file sample)])]

/-- The repository as the working folder. -/
def pruned : Files.Disk where
  tree := .folder prunedMembers
  here := []

theorem carries_pruned : pruned.Carries ⟨⟨true, []⟩, [], fun _ ↦ none⟩ (.folder prunedMembers) := by
  refine Files.Disk.carries_root (.folder (by decide) (by decide) ?_) rfl
  have hinner : (Entry.folder [("a.py", .file sample)]).Plain :=
    .folder (by simp) (by simp) (by simpa using Entry.Plain.file sample)
  simp [prunedMembers, Entry.Plain.file, hinner]

theorem named_pruned : (Entry.folder prunedMembers).Named := by
  have hname : ∀ n ∈ [".gitignore", "b.py", "gen", "a.py"], Files.IsName n := by
    simp only [List.forall_mem_cons]
    exact ⟨⟨by decide, by decide, by decide⟩, ⟨by decide, by decide, by decide⟩,
      ⟨by decide, by decide, by decide⟩, ⟨by decide, by decide, by decide⟩, nofun⟩
  have hinner : (Entry.folder [("a.py", .file sample)]).Named :=
    .folder (by simp [hname]) (by simpa using Entry.Named.file sample)
  exact .folder (by simp [prunedMembers, hname]) (by simp [prunedMembers, Entry.Named.file, hinner])

theorem mem_of_get?_pruned (hfile : (Entry.folder prunedMembers).get? place = some (.file bytes)) :
    place ∈ [[".gitignore"], ["b.py"], ["gen", "a.py"]] := by
  obtain ⟨name, e, rest, rfl, hmem, hrest⟩ := Entry.exists_mem_of_get? hfile
  simp only [prunedMembers, List.mem_cons, List.not_mem_nil, or_false, Prod.mk.injEq] at hmem
  rcases hmem with ⟨rfl, rfl⟩ | ⟨rfl, rfl⟩ | ⟨rfl, rfl⟩
  · simp [Entry.eq_nil_of_get?_file hrest]
  · simp [Entry.eq_nil_of_get?_file hrest]
  · obtain ⟨next, e, more, rfl, hmem, hmore⟩ := Entry.exists_mem_of_get? hrest
    simp only [List.mem_singleton, Prod.mk.injEq] at hmem
    obtain ⟨rfl, rfl⟩ := hmem
    simp [Entry.eq_nil_of_get?_file hmore]

theorem readable_pruned : Readable pruned ⟨true, []⟩ prunedMembers where
  lists := carries_pruned.members rfl
  plain := carries_pruned.plain
  named := named_pruned
  read := by
    have hfits : ∀ place ∈ [[".gitignore"], ["b.py"], ["gen", "a.py"]],
        Files.Ground.fits ⟨⟨true, []⟩, [], fun _ ↦ none⟩ place = true := by decide +kernel
    intro place bytes hfile
    exact ⟨bytes, carries_pruned.read_along (Entry.ne_nil_of_get?_file hfile)
      (carries_pruned.plain.not_mem_of_get? hfile) (hfits place (mem_of_get?_pruned hfile)) hfile⟩

/-- A survey of it collects the first source file, and not the one below the folder. -/
theorem not_collect_pruned : ∃ log files,
    collect pruned [] ⟨false, []⟩ "." = (log, .ok files) ∧ ⟨"b.py", sample⟩ ∈ files ∧
      ∀ f ∈ files, f.path ≠ "gen/a.py" := by
  have hresolve : pruned.resolve ⟨false, []⟩ = ⟨true, []⟩ := by
    simp [Files.Disk.resolve, Files.Disk.resolveFrom, Files.Disk.startOf, pruned]
  have hown : IgnoreFile pruned ⟨true, []⟩
      (IgnoreRule.ofText (Text.unifyNewlines takingBack.toList)) :=
    .text (carries_pruned.read_along (by simp) (by decide) (by decide +kernel) rfl)
  have hmore : SettingsFile Yaml.Value.ofText pruned ⟨true, []⟩ [] :=
    .absent (carries_pruned.find?_along (by simp) (by decide) rfl)
  obtain ⟨log, files, hcollect, hmem, -, -⟩ := collect_spared Yaml.Value.ofText pruned []
    ⟨false, []⟩ "." _ _ _ (hresolve ▸ readable_pruned) (hresolve ▸ hown) (hresolve ▸ hmore)
  refine ⟨log, files, hcollect, (hmem _).2 ⟨["b.py"], rfl, rfl, ?_, ?_, ?_⟩, fun f hf hpath ↦ ?_⟩
  · rw [spared_singleton, ← isIgnored_iff]
    decide +kernel
  · decide +kernel
  · decide +kernel
  · obtain ⟨place, hfile, hplace, hspared, -⟩ := (hmem f).1 hf
    have hread := readable_pruned.ofString_pathTo hfile
    have hgen : Files.Path.ofString "gen/a.py" = ⟨false, ["gen", "a.py"]⟩ := by decide +kernel
    rw [← hplace, hpath, hgen] at hread
    obtain rfl := (Files.Path.mk.inj hread).2
    refine (hspared.folders [] "gen" ["a.py"] rfl (by simp)).2 (isIgnored_iff.1 ?_)
    decide +kernel

end Docwright.Source.Survey
