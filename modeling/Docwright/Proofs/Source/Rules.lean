import Docwright.Proofs.Config.Load
import Docwright.Proofs.Files.Ground
import Docwright.Source.Survey

/-!
# Rules for a survey

The last rule that covers a path decides whether it is ignored (`isIgnored_iff`). Rules come from
three places in turn: from the ignore file of the folder (`IgnoreFile`), from the given patterns and
from the settings of the folder (`SettingsFile`).

A survey of a folder comes to an end of one of two kinds (`collect_cases`). Which one it is depends
on the bytes of the two files alone (`collect_of_bytes`): an ignore file that is no text and
settings that cannot be read are not caught, whereas settings that are refused cost their own rules
only.
-/

namespace Docwright.Source

open Text

/-! ### The last rule decides -/

/-- The last rule that covers the path does not take it back. -/
def Ignores (rules : List IgnoreRule) (path : String) (isFolder : Bool) : Prop :=
  ∃ before r after, rules = before ++ r :: after ∧ r.covers path isFolder = true ∧
    (∀ s ∈ after, s.covers path isFolder = false) ∧ r.negate = false

section Ignores

variable {rules : List IgnoreRule} {r : IgnoreRule} {path : String} {isFolder : Bool}

theorem isIgnored_concat : isIgnored (rules ++ [r]) path isFolder =
    if r.covers path isFolder then !r.negate else isIgnored rules path isFolder := by
  rw [isIgnored, List.foldl_append, List.foldl_cons, List.foldl_nil, isIgnored]

/-- One more rule decides about the paths that it covers and about no others. -/
theorem ignores_concat : Ignores (rules ++ [r]) path isFolder ↔
    if r.covers path isFolder then r.negate = false else Ignores rules path isFolder := by
  constructor
  · rintro ⟨before, s, after, heq, hcovers, hafter, hnegate⟩
    rcases after.eq_nil_or_concat with rfl | ⟨after, last, rfl⟩
    · obtain ⟨-, hlast⟩ := List.append_inj' heq rfl
      obtain rfl := (List.cons.inj hlast).1
      rwa [if_pos hcovers]
    · -- the last rule stands behind the one that decides, so it does not cover the path
      rw [List.concat_eq_append, ← List.cons_append, ← List.append_assoc] at heq
      obtain ⟨hrules, hlast⟩ := List.append_inj' heq rfl
      obtain rfl := (List.cons.inj hlast).1
      have hlast : r.covers path isFolder = false := hafter r (by simp)
      rw [if_neg (by simp [hlast])]
      exact ⟨before, s, after, hrules, hcovers, fun t ht ↦ hafter t (by simp [ht]), hnegate⟩
  · split
    case isTrue hcovers => exact fun hnegate ↦ ⟨rules, r, [], rfl, hcovers, by simp, hnegate⟩
    case isFalse hcovers =>
      rintro ⟨before, s, after, rfl, hs, hafter, hnegate⟩
      refine ⟨before, s, after ++ [r], by simp, hs, ?_, hnegate⟩
      exact List.forall_mem_append.2 ⟨hafter, by simpa using hcovers⟩

/-- **A path is ignored just when the last rule that covers it is not negated.** -/
theorem isIgnored_iff : isIgnored rules path isFolder = true ↔ Ignores rules path isFolder := by
  induction rules using List.reverseRecOn with
  | nil =>
    refine iff_of_false Bool.false_ne_true ?_
    rintro ⟨before, r, after, heq, -⟩
    simp at heq
  | append_singleton rules r ih =>
    rw [isIgnored_concat, ignores_concat]
    split
    case isTrue => simp
    case isFalse => exact ih

end Ignores

namespace Survey

variable {read : Config.SettingsReader} {d : Files.Disk} {root : Files.Path} {shown : String}
  {patterns more : List String} {own rs : List IgnoreRule} {e : Files.Entry}

/-! ### Where rules come from -/

/-- The rules that patterns stand for. -/
def ofPatterns (patterns : List String) : List IgnoreRule :=
  patterns.filterMap fun p ↦ IgnoreRule.ofPattern? p.toList false

/-- The rules in the ignore file of a folder; where there is none there are no rules. -/
inductive IgnoreFile (d : Files.Disk) (root : Files.Path) : List IgnoreRule → Prop
  | absent (h : d.find? (root.child ".gitignore") = .ok none) : IgnoreFile d root []
  | text {cs : List Char} (h : d.read (root.child ".gitignore") = .ok (Utf8.encode cs)) :
    IgnoreFile d root (IgnoreRule.ofText (unifyNewlines cs))

/-- The patterns in the settings of a folder. Settings that are refused have none, and neither have
those that are not there. -/
inductive SettingsFile (read : Config.SettingsReader) (d : Files.Disk) (root : Files.Path) :
    List String → Prop
  | absent (h : d.find? (root.child Config.fileName) = .ok none) : SettingsFile read d root []
  | loaded {e : Files.Entry} {c : Config}
    (hfound : d.find? (root.child Config.fileName) = .ok (some e))
    (h : Config.loadBy read d (root.child Config.fileName) = .ok c) :
    SettingsFile read d root c.excluded
  | refused {e : Files.Entry} {r : Config.Rejection}
    (hfound : d.find? (root.child Config.fileName) = .ok (some e))
    (h : Config.loadBy read d (root.child Config.fileName) = .error (.rejected r)) :
    SettingsFile read d root []

theorem ignoreFileRules_eq_ok_iff : ignoreFileRules d root = .ok own ↔ IgnoreFile d root own := by
  constructor
  · intro h
    rw [ignoreFileRules] at h
    split at h
    case h_1 => cases h
    case h_2 hfound =>
      cases h
      exact .absent hfound
    case h_3 entry hfound =>
      cases hread : d.read (root.child ".gitignore") with
      | error e =>
        simp only [Files.Disk.readText, hread] at h
        cases h
      | ok bytes =>
        rcases Files.Disk.readText_cases hread with ⟨-, fault, htext⟩ | ⟨cs, rfl, htext⟩
        · simp only [htext] at h
          cases h
        · simp only [htext] at h
          cases h
          exact .text hread
  · rintro (hfound | hread)
    · simp only [ignoreFileRules, hfound]
    · simp only [ignoreFileRules, Files.Disk.find?_of_read hread, Files.Disk.readText, hread,
        Utf8.decode?_encode]

theorem settingsPatterns_eq_ok_iff :
    (settingsPatterns read d root).2 = .ok more ↔ SettingsFile read d root more := by
  constructor
  · intro h
    rw [settingsPatterns] at h
    split at h
    case h_1 => cases h
    case h_2 hfound =>
      cases h
      exact .absent hfound
    case h_3 entry hfound =>
      split at h
      case h_1 c hload =>
        cases h
        exact .loaded hfound hload
      case h_2 => cases h
      case h_3 r hload =>
        cases h
        exact .refused hfound hload
  · rintro (hfound | ⟨hfound, hload⟩ | ⟨hfound, hload⟩)
    · simp only [settingsPatterns, hfound]
    · simp only [settingsPatterns, hfound, hload]
    · simp only [settingsPatterns, hfound, hload]

/-- **There are rules just when both files give theirs**, and they are in the order of the files. -/
theorem rules_eq_ok_iff : (rules read d patterns root).2 = .ok rs ↔
    ∃ own more, IgnoreFile d root own ∧ SettingsFile read d root more ∧
      rs = own ++ ofPatterns (patterns ++ more) := by
  simp only [← ignoreFileRules_eq_ok_iff, ← settingsPatterns_eq_ok_iff]
  rw [rules]
  cases ignoreFileRules d root with
  | error crash => simp
  | ok own =>
    cases hmore : (settingsPatterns read d root).2 with
    | error crash => simp [hmore, Except.map]
    | ok more =>
      simp only [hmore, Except.map, Except.ok.injEq, ofPatterns]
      simp [eq_comm]

/-! ### Surveys and their ends -/

/-- The files that are kept of those below an entry. -/
def kept (d : Files.Disk) (root : Files.Path) (rules : List IgnoreRule) (e : Files.Entry) :
    List SourceFile :=
  (pathsBelow d root rules [] e).filterMap fun path ↦ (readFile d root path).2

/-- **A survey of a folder** ends with the files that are kept under its rules, or in a crash when
it has no rules. -/
theorem collect_cases (hroot : d.find? (d.resolve root) = .ok (some e))
    (hfolder : e.isFolder = true) (patterns : List String) (shown : String) :
    (∃ log rs, (rules read d patterns (d.resolve root)).2 = .ok rs ∧
        collectBy read d patterns root shown = (log, .ok (kept d (d.resolve root) rs e))) ∨
      ∃ log crash, (rules read d patterns (d.resolve root)).2 = .error crash ∧
        collectBy read d patterns root shown = (log, .error (.crashed crash)) := by
  rw [collectBy]
  simp only [hroot, hfolder, Bool.not_true, Bool.false_eq_true, if_false]
  rcases hrules : rules read d patterns (d.resolve root) with ⟨log, crash | rs⟩
  · exact .inr ⟨log, crash, rfl, rfl⟩
  · refine .inl ⟨_, rs, rfl, Prod.ext rfl ?_⟩
    simp only [kept, List.filterMap_map]
    rfl

/-- The ignore file of a folder: its bytes, or nothing when there is no such file. -/
inductive IgnoreBytes (d : Files.Disk) (root : Files.Path) : Option (List UInt8) → Prop
  | absent (h : d.find? (root.child ".gitignore") = .ok none) : IgnoreBytes d root none
  | file {bytes : List UInt8} (h : d.read (root.child ".gitignore") = .ok bytes) :
    IgnoreBytes d root (some bytes)

/-- The settings file of a folder: its bytes where loading looks for them, or nothing when there is
no such file. -/
inductive SettingsBytes (d : Files.Disk) (root : Files.Path) : Option (List UInt8) → Prop
  | absent (h : d.find? (root.child Config.fileName) = .ok none) : SettingsBytes d root none
  | file {e : Files.Entry} {bytes : List UInt8}
    (hfound : d.find? (root.child Config.fileName) = .ok (some e))
    (h : d.read (Config.fileAt d (root.child Config.fileName)) = .ok bytes) :
    SettingsBytes d root (some bytes)

/-- An ignore file that is no text. -/
def SpoiltIgnoreFile (own : Option (List UInt8)) : Prop :=
  ∃ bytes, own = some bytes ∧ ∀ cs, bytes ≠ Utf8.encode cs

/-- A settings file that is no text, whose text the reader stumbles over, or that has a setting that
cannot be read. -/
def SpoiltSettings (read : Config.SettingsReader) (settings : Option (List UInt8)) : Prop :=
  ∃ bytes, settings = some bytes ∧ (Config.Unreadable read bytes ∨
    ∃ v, Config.HasValue read bytes v ∧ Config.Crashes v.field)

theorem exists_ignoreFile_iff {own : Option (List UInt8)} (h : IgnoreBytes d root own) :
    (∃ rs, IgnoreFile d root rs) ↔ ¬SpoiltIgnoreFile own := by
  cases h with
  | absent h => exact iff_of_true ⟨[], .absent h⟩ fun ⟨bytes, hown, _⟩ ↦ nomatch hown
  | @file bytes h =>
    constructor
    · rintro ⟨rs, habsent | htext⟩ ⟨bytes', hown, hbytes⟩
      · cases (Files.Disk.find?_of_read h).symm.trans habsent
      · cases hown
        exact hbytes _ (Except.ok.inj (h.symm.trans htext))
    · intro hwhole
      have htext : ∃ cs, bytes = Utf8.encode cs := by
        by_contra hnone
        exact hwhole ⟨bytes, rfl, fun cs hcs ↦ hnone ⟨cs, hcs⟩⟩
      obtain ⟨cs, rfl⟩ := htext
      exact ⟨_, .text h⟩

theorem exists_settingsFile_iff {settings : Option (List UInt8)}
    (h : SettingsBytes d root settings) :
    (∃ more, SettingsFile read d root more) ↔ ¬SpoiltSettings read settings := by
  cases h with
  | absent h => exact iff_of_true ⟨[], .absent h⟩ fun ⟨bytes, hsettings, _⟩ ↦ nomatch hsettings
  | @file e bytes hfound h =>
    have hspoilt : SpoiltSettings read (some bytes) ↔
        ∃ crash, Config.loadBy read d (root.child Config.fileName) = .error (.crashed crash) := by
      rw [Config.loadBy_crashes_iff h]
      exact ⟨fun ⟨_, heq, hspoilt⟩ ↦ Option.some.inj heq ▸ hspoilt, fun h ↦ ⟨bytes, rfl, h⟩⟩
    rw [hspoilt]
    constructor
    · rintro ⟨more, habsent | ⟨-, hload⟩ | ⟨-, hload⟩⟩ ⟨crash, hcrash⟩
      · cases hfound.symm.trans habsent
      · cases hload.symm.trans hcrash
      · cases hload.symm.trans hcrash
    · intro hwhole
      match hload : Config.loadBy read d (root.child Config.fileName) with
      | .ok c => exact ⟨_, .loaded hfound hload⟩
      | .error (.rejected r) => exact ⟨_, .refused hfound hload⟩
      | .error (.crashed crash) => exact absurd ⟨crash, hload⟩ hwhole

/-- **A survey whatever the bytes of the two files are**, and whatever reads the text of the
settings. It crashes just when the ignore file is no text or the settings cannot be read, and in no
other way. Otherwise it ends with the files that are kept under the rules of both files; settings
that are refused have no rules, and cost nothing else. -/
theorem collect_of_bytes (read : Config.SettingsReader) (d : Files.Disk) (patterns : List String)
    (root : Files.Path) (shown : String) (ignore settings : Option (List UInt8)) (e : Files.Entry)
    (hroot : d.find? (d.resolve root) = .ok (some e)) (hfolder : e.isFolder = true)
    (hignore : IgnoreBytes d (d.resolve root) ignore)
    (hsettings : SettingsBytes d (d.resolve root) settings) :
    ((∃ log files, collectBy read d patterns root shown = (log, .ok files)) ↔
        ¬SpoiltIgnoreFile ignore ∧ ¬SpoiltSettings read settings) ∧
      ((∃ log crash, collectBy read d patterns root shown = (log, .error (.crashed crash))) ↔
        SpoiltIgnoreFile ignore ∨ SpoiltSettings read settings) ∧
      ∀ log files, collectBy read d patterns root shown = (log, .ok files) →
        ∃ own more, IgnoreFile d (d.resolve root) own ∧ SettingsFile read d (d.resolve root) more ∧
          files = kept d (d.resolve root) (own ++ ofPatterns (patterns ++ more)) e := by
  have hrules : (∃ rs, (rules read d patterns (d.resolve root)).2 = .ok rs) ↔
      ¬SpoiltIgnoreFile ignore ∧ ¬SpoiltSettings read settings := by
    rw [← exists_ignoreFile_iff hignore, ← exists_settingsFile_iff hsettings]
    simp only [rules_eq_ok_iff]
    constructor
    · rintro ⟨rs, own, more, hown, hmore, -⟩
      exact ⟨⟨own, hown⟩, more, hmore⟩
    · rintro ⟨⟨own, hown⟩, more, hmore⟩
      exact ⟨_, own, more, hown, hmore, rfl⟩
  rcases collect_cases hroot hfolder patterns shown with
    ⟨log, rs, hrs, hcollect⟩ | ⟨log, crash, hcrash, hcollect⟩
  · have hwhole := hrules.mp ⟨rs, hrs⟩
    rw [hcollect]
    refine ⟨iff_of_true ⟨log, _, rfl⟩ hwhole, iff_of_false nofun ?_, ?_⟩
    · exact not_or.mpr hwhole
    · rintro log' files heq
      obtain ⟨own, more, hown, hmore, rfl⟩ := rules_eq_ok_iff.mp hrs
      cases heq
      exact ⟨own, more, hown, hmore, rfl⟩
  · have hspoilt : ¬(¬SpoiltIgnoreFile ignore ∧ ¬SpoiltSettings read settings) := by
      rw [← hrules, hcrash]
      exact nofun
    rw [hcollect]
    refine ⟨iff_of_false nofun hspoilt, iff_of_true ⟨log, crash, rfl⟩ ?_, nofun⟩
    rwa [← not_or, not_not] at hspoilt

/-- A working folder with an ignore file and nothing else. -/
def ignoring (bytes : List UInt8) : Files.Disk where
  tree := .folder [(".gitignore", .file bytes)]
  here := []

theorem carries_ignoring (bytes : List UInt8) :
    (ignoring bytes).Carries ⟨⟨true, []⟩, [], fun _ ↦ none⟩ (ignoring bytes).tree :=
  Files.Disk.carries_root (.folder (by simp) (by simp) (by simpa using .file bytes)) rfl

/-- Where the ignore file is the single byte `0x80`, a survey of the working folder crashes. -/
theorem not_collect_stray_byte : ∃ log crash,
    collect (ignoring [0x80]) [] ⟨false, []⟩ "." = (log, .error (.crashed crash)) := by
  have hresolve : (ignoring [0x80]).resolve ⟨false, []⟩ = ⟨true, []⟩ := by
    simp [Files.Disk.resolve, Files.Disk.resolveFrom, Files.Disk.startOf, ignoring]
  have hcarries := carries_ignoring [0x80]
  have hignore : (ignoring [0x80]).read ⟨true, [".gitignore"]⟩ = .ok [0x80] :=
    hcarries.read_along (by simp) (by decide) (by decide +kernel) rfl
  have hsettings : (ignoring [0x80]).find? ⟨true, [Config.fileName]⟩ = .ok none :=
    hcarries.find?_along (by simp) (by decide) rfl
  have hends := collect_of_bytes Yaml.Value.ofText (ignoring [0x80]) [] ⟨false, []⟩ "."
    (some [0x80]) none (ignoring [0x80]).tree (by rw [hresolve]; exact hcarries.find?_self) rfl
    (by rw [hresolve]; exact .file hignore) (by rw [hresolve]; exact .absent hsettings)
  exact hends.2.1.mpr (.inl ⟨_, rfl, Utf8.stray_byte_ne_encode⟩)

end Survey

end Docwright.Source
