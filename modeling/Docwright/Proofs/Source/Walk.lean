import Docwright.Proofs.Files.Entry
import Docwright.Proofs.Json.Sorting
import Docwright.Proofs.Source.Rules

/-!
# The walk of a survey

In a tree without links the walk comes to the places of the files that the rules spare
(`Spared`), in the order `Before`, and to each of them once (`exists_visits`). Neither mentions the
walk. A file is spared when no folder on its way is left out and it is not ignored itself; so a
negated rule cannot bring a file back that stands below a folder which is left out.

The walk sorts what it has found in a folder, and what is found there is chosen among the members;
so the walk through a folder is one through its sorted members (`pathsBelow_folder`), and the
induction is on the tree.
-/

namespace Docwright.Source.Survey

open Files (Entry)

variable {d : Files.Disk} {root : Files.Path} {rules : List IgnoreRule} {trail : List String}

/-! ### What the walk comes to -/

/-- The text by which rules and files are told a place. -/
def pathTo (place : List String) : String :=
  "/".intercalate place

/-- The rules leave the walk alone on its way along `place`, from the folder that `trail` leads to:
no folder on the way has an excluded name or is ignored, and the file at the end is not ignored. -/
structure Spared (rules : List IgnoreRule) (trail place : List String) : Prop where
  folders : ∀ before name after, place = before ++ name :: after → after ≠ [] →
    name ∉ excludedFolders ∧ ¬Ignores rules (pathTo (trail ++ before ++ [name])) true
  file : ¬Ignores rules (pathTo (trail ++ place)) false

/-- The order of places: in every folder its files come first, by name, and then what is in its
folders, by the names of these. -/
inductive Before : List String → List String → Prop
  | files {a b : String} (h : a < b) : Before [a] [b]
  | fileFirst {a b : String} {rest : List String} (h : rest ≠ []) : Before [a] (b :: rest)
  | folders {a b : String} {r s : List String} (h : a < b) (hr : r ≠ []) (hs : s ≠ []) :
    Before (a :: r) (b :: s)
  | within {a : String} {r s : List String} (h : Before r s) : Before (a :: r) (a :: s)

theorem Before.irrefl (p : List String) : ¬Before p p := by
  induction p with
  | nil => exact nofun
  | cons a r ih =>
    rintro (h | h | h | h)
    · exact lt_irrefl a h
    · exact h rfl
    · exact lt_irrefl a h
    · exact ih h

theorem spared_singleton {name : String} :
    Spared rules trail [name] ↔ ¬Ignores rules (pathTo (trail ++ [name])) false := by
  refine ⟨Spared.file, fun h ↦ ⟨fun before inner after heq hafter ↦ ?_, h⟩⟩
  cases before with
  | nil => exact absurd (List.cons.inj heq).2.symm hafter
  | cons first before => simp at heq

theorem spared_cons {name : String} {rest : List String} (hrest : rest ≠ []) :
    Spared rules trail (name :: rest) ↔
      (name ∉ excludedFolders ∧ ¬Ignores rules (pathTo (trail ++ [name])) true) ∧
        Spared rules (trail ++ [name]) rest := by
  have hpath (names : List String) : trail ++ name :: names = trail ++ [name] ++ names := by simp
  constructor
  · intro h
    refine ⟨?_, fun before inner after heq hafter ↦ ?_, ?_⟩
    · simpa using h.folders [] name rest rfl hrest
    · rw [← hpath]
      exact h.folders (name :: before) inner after (by rw [heq, List.cons_append]) hafter
    · rw [← hpath]
      exact h.file
  · rintro ⟨hname, hbelow⟩
    refine ⟨fun before inner after heq hafter ↦ ?_, ?_⟩
    · cases before with
      | nil =>
        obtain ⟨rfl, -⟩ := List.cons.inj heq
        rwa [List.append_nil]
      | cons first before =>
        obtain ⟨rfl, hrest⟩ := List.cons.inj heq
        rw [hpath]
        exact hbelow.folders before inner after hrest hafter
    · rw [hpath]
      exact hbelow.file

/-! ### The walk through one folder -/

/-- The member is a file that the walk comes to. -/
def takesFile (rules : List IgnoreRule) (trail : List String) : String × Entry → Bool
  | (name, .file _) => !isIgnored rules (pathTo (trail ++ [name])) false
  | _ => false

/-- The member is a folder that the walk goes into. -/
def takesFolder (rules : List IgnoreRule) (trail : List String) : String × Entry → Bool
  | (name, .folder _) =>
    !(excludedFolders.contains name || isIgnored rules (pathTo (trail ++ [name])) true)
  | _ => false

/-- What a member brings in, if it is taken. -/
def found? (d : Files.Disk) (root : Files.Path) (rules : List IgnoreRule) (trail : List String)
    (m : String × Entry) : Option Found :=
  if takesFile rules trail m then some .file
  else if takesFolder rules trail m then
    some (.folder (pathsBelow d root rules (trail ++ [m.1]) m.2))
  else none

theorem foundAmong_eq {members : List (String × Entry)} (h : ∀ m ∈ members, m.2.Plain) :
    foundAmong d root rules trail members
      = members.filterMap fun m ↦ (found? d root rules trail m).map (m.1, ·) := by
  induction members with
  | nil => rw [foundAmong, List.filterMap_nil]
  | cons m rest ih =>
    obtain ⟨hm, hrest⟩ := List.forall_mem_cons.1 h
    obtain ⟨name, e⟩ := m
    rw [List.filterMap_cons, ← ih hrest]
    cases hm with
    | file bytes =>
      cases hname : isIgnored rules ("/".intercalate (trail ++ [name])) false <;>
        simp only [foundAmong, found?, takesFile, takesFolder, pathTo, hname] <;> rfl
    | @folder members =>
      cases hname : excludedFolders.contains name ||
          isIgnored rules ("/".intercalate (trail ++ [name])) true <;>
        simp only [foundAmong, found?, takesFile, takesFolder, pathTo, pathsBelow, hname] <;> rfl

theorem found?_of_takesFolder {m : String × Entry} (h : takesFolder rules trail m = true) :
    found? d root rules trail m
      = some (.folder (pathsBelow d root rules (trail ++ [m.1]) m.2)) := by
  have hfile : takesFile rules trail m = false := by
    obtain ⟨name, e⟩ := m
    cases e with
    | folder members => rfl
    | file bytes => cases h
    | link target => cases h
  rw [found?, hfile, h]
  rfl

/-- **The walk through a folder** is one through its members by name: first the files, and then what
is below the folders. -/
theorem pathsBelow_folder {members : List (String × Entry)}
    (hdistinct : (members.map Prod.fst).Nodup) (hplain : ∀ m ∈ members, m.2.Plain) :
    pathsBelow d root rules trail (.folder members)
      = ((Json.sortFields members).filter (takesFile rules trail)).map
          (fun m ↦ pathTo (trail ++ [m.1]))
        ++ ((Json.sortFields members).filter (takesFolder rules trail)).flatMap
          fun m ↦ pathsBelow d root rules (trail ++ [m.1]) m.2 := by
  rw [pathsBelow, ordered, foundAmong_eq hplain, Json.sortFields_filterMap _ hdistinct]
  generalize Json.sortFields members = sorted
  congr 1
  -- files are chosen with the files, and folders with the folders
  · induction sorted with
    | nil => rfl
    | cons m rest ih =>
      cases hfile : takesFile rules trail m with
      | true => simpa [found?, hfile, pathTo] using ih
      | false =>
        cases hfolder : takesFolder rules trail m <;> simpa [found?, hfile, hfolder] using ih
  · induction sorted with
    | nil => rfl
    | cons m rest ih =>
      cases hfolder : takesFolder rules trail m with
      | true => simpa [found?_of_takesFolder hfolder, hfolder] using ih
      | false => cases hfile : takesFile rules trail m <;> simpa [found?, hfile, hfolder] using ih

/-! ### The walk through a tree -/

/-- The walk from `trail` through `e` comes to these places, all of them spared, and in order. -/
structure Visits (d : Files.Disk) (root : Files.Path) (rules : List IgnoreRule)
    (trail : List String) (e : Entry) (places : List (List String)) : Prop where
  paths : pathsBelow d root rules trail e = places.map fun p ↦ pathTo (trail ++ p)
  order : places.Pairwise Before
  mem_iff : ∀ p, p ∈ places ↔
    p ≠ [] ∧ (∃ bytes, e.get? p = some (.file bytes)) ∧ Spared rules trail p

theorem takesFile_iff {m : String × Entry} : takesFile rules trail m = true ↔
    (∃ bytes, m.2 = .file bytes) ∧ Spared rules trail [m.1] := by
  obtain ⟨name, e⟩ := m
  rw [spared_singleton, ← isIgnored_iff]
  cases e <;> simp [takesFile]

theorem takesFolder_iff {m : String × Entry} : takesFolder rules trail m = true ↔
    (∃ members, m.2 = .folder members) ∧
      m.1 ∉ excludedFolders ∧ ¬Ignores rules (pathTo (trail ++ [m.1])) true := by
  obtain ⟨name, e⟩ := m
  rw [← isIgnored_iff]
  cases e <;> simp [takesFolder]

section Folder

variable {members : List (String × Entry)} {below : String × Entry → List (List String)}

/-- The places in a folder, from those in its members. -/
def placesIn (rules : List IgnoreRule) (trail : List String) (members : List (String × Entry))
    (below : String × Entry → List (List String)) : List (List String) :=
  ((Json.sortFields members).filter (takesFile rules trail)).map (fun m ↦ [m.1]) ++
    ((Json.sortFields members).filter (takesFolder rules trail)).flatMap
      fun m ↦ (below m).map (m.1 :: ·)

theorem mem_placesIn {p : List String} : p ∈ placesIn rules trail members below ↔
    (∃ m ∈ members, takesFile rules trail m = true ∧ p = [m.1]) ∨
      ∃ m ∈ members, takesFolder rules trail m = true ∧ ∃ q ∈ below m, p = m.1 :: q := by
  simp only [placesIn, List.mem_append, List.mem_map, List.mem_flatMap, List.mem_filter,
    (Json.sortFields_perm members).mem_iff, and_assoc, eq_comm (a := p)]

/-- **Places in a folder are in order** when those in its members are. -/
theorem pairwise_placesIn (hdistinct : (members.map Prod.fst).Nodup)
    (hbelow : ∀ m ∈ members, Visits d root rules (trail ++ [m.1]) m.2 (below m)) :
    (placesIn rules trail members below).Pairwise Before := by
  have hsorted := Json.pairwise_sortFields hdistinct
  have hne {m : String × Entry}
      (hm : m ∈ (Json.sortFields members).filter (takesFolder rules trail)) {q : List String}
      (hq : q ∈ below m) : q ≠ [] :=
    (((hbelow m (Json.mem_of_mem_filter_sortFields hm)).mem_iff q).1 hq).1
  refine List.pairwise_append.2 ⟨?_, ?_, ?_⟩
  · exact List.pairwise_map.2 ((hsorted.filter _).imp .files)
  · refine List.pairwise_flatMap.2 ⟨fun m hm ↦ ?_, ?_⟩
    · have hmem := Json.mem_of_mem_filter_sortFields hm
      exact List.pairwise_map.2 ((hbelow m hmem).order.imp .within)
    · refine (hsorted.filter _).imp_of_mem fun {m m'} hm hm' hlt p hp p' hp' ↦ ?_
      obtain ⟨q, hq, rfl⟩ := List.mem_map.1 hp
      obtain ⟨q', hq', rfl⟩ := List.mem_map.1 hp'
      exact .folders hlt (hne hm hq) (hne hm' hq')
  · intro p hp p' hp'
    obtain ⟨m, -, rfl⟩ := List.mem_map.1 hp
    obtain ⟨m', hm', hp'⟩ := List.mem_flatMap.1 hp'
    obtain ⟨q, hq, rfl⟩ := List.mem_map.1 hp'
    exact .fileFirst (hne hm' hq)

theorem visits_folder (hdistinct : (members.map Prod.fst).Nodup)
    (hplain : ∀ m ∈ members, m.2.Plain)
    (hbelow : ∀ m ∈ members, Visits d root rules (trail ++ [m.1]) m.2 (below m)) :
    Visits d root rules trail (.folder members) (placesIn rules trail members below) := by
  refine ⟨?_, pairwise_placesIn hdistinct hbelow, fun p ↦ ?_⟩
  · rw [pathsBelow_folder hdistinct hplain, placesIn, List.map_append, List.map_map,
      List.map_flatMap]
    congr 1
    refine List.flatMap_congr fun m hm ↦ ?_
    rw [(hbelow m (Json.mem_of_mem_filter_sortFields hm)).paths, List.map_map]
    simp
  · rw [mem_placesIn]
    constructor
    · rintro (⟨m, hm, htakes, rfl⟩ | ⟨m, hm, htakes, q, hq, rfl⟩)
      · obtain ⟨⟨bytes, hbytes⟩, hspared⟩ := takesFile_iff.1 htakes
        refine ⟨by simp, ⟨bytes, ?_⟩, hspared⟩
        rw [Entry.get?_folder_cons, Files.lookup_of_mem hdistinct hm, hbytes]
        rfl
      · obtain ⟨-, henters⟩ := takesFolder_iff.1 htakes
        obtain ⟨hne, ⟨bytes, hbytes⟩, hspared⟩ := ((hbelow m hm).mem_iff q).1 hq
        refine ⟨by simp, ⟨bytes, ?_⟩, (spared_cons hne).2 ⟨henters, hspared⟩⟩
        rw [Entry.get?_folder_cons, Files.lookup_of_mem hdistinct hm, Option.bind_some, hbytes]
    · rintro ⟨-, ⟨bytes, hbytes⟩, hspared⟩
      obtain ⟨name, e, rest, rfl, hmem, hbytes⟩ := Entry.exists_mem_of_get? hbytes
      cases rest with
      | nil =>
        rw [Entry.get?_nil] at hbytes
        exact .inl ⟨_, hmem, takesFile_iff.2 ⟨⟨bytes, Option.some.inj hbytes⟩, hspared⟩, rfl⟩
      | cons next rest =>
        obtain ⟨inner, -, hfolder, -⟩ := Entry.exists_of_get?_cons hbytes
        obtain ⟨henters, hspared⟩ := (spared_cons (by simp)).1 hspared
        refine .inr ⟨_, hmem, takesFolder_iff.2 ⟨⟨inner, hfolder⟩, henters⟩, next :: rest, ?_, rfl⟩
        exact ((hbelow _ hmem).mem_iff _).2 ⟨by simp, ⟨bytes, hbytes⟩, hspared⟩

end Folder

/-- **The walk through a tree without links** comes to the places of all spared files and to no
others, in order. -/
theorem exists_visits {e : Entry} (h : e.Plain) (d : Files.Disk) (root : Files.Path)
    (rules : List IgnoreRule) (trail : List String) :
    ∃ places, Visits d root rules trail e places := by
  induction h generalizing trail with
  | file bytes =>
    refine ⟨[], by simp [pathsBelow], .nil, fun p ↦ iff_of_false nofun ?_⟩
    rintro ⟨hne, ⟨bytes', hget⟩, -⟩
    rw [Entry.get?_file_of_ne_nil hne] at hget
    cases hget
  | @folder members distinct names inner ih =>
    have hchoice (m : String × Entry) :
        ∃ places, m ∈ members → Visits d root rules (trail ++ [m.1]) m.2 places := by
      by_cases hm : m ∈ members
      · obtain ⟨places, hplaces⟩ := ih m hm (trail ++ [m.1])
        exact ⟨places, fun _ ↦ hplaces⟩
      · exact ⟨[], fun h ↦ absurd h hm⟩
    choose below hbelow using hchoice
    exact ⟨_, visits_folder distinct inner hbelow⟩

end Docwright.Source.Survey
