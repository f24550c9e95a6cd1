import Docwright.Config
import Docwright.Proofs.Number.Range

/-!
# What settings say

What a value gives as a text, as a real number and as a whole number is said by `GivesText`,
`GivesReal` and `GivesWhole`; a value of another kind gives nothing, and the setting keeps its
default (`Taken`). `Reads` says this of all the settings of a file at once.

Two kinds of values are of the right kind and give nothing all the same: whole numbers that are too
long to be written where a text is asked for (`Unwritable`), and whole numbers beyond the range of
real numbers where a real number is asked for (`Unbounded`). Settings with one of them are not read
at all. `Crashes` says where they do harm: those that are looked at after a check do so only when
the check is passed.

`ends_ofValue` puts this together, one setting after the other, with the rule for one step after
another (`Ends.bind`).
-/

namespace Docwright.Config

open Yaml (Value)

variable {α β : Type}

/-! ### What a value gives -/

/-- The text that a value gives. -/
inductive GivesText : Value → String → Prop
  | text (s : String) : GivesText (.text s) s
  | bool (b : Bool) : GivesText (.bool b) (if b then "True" else "False")
  | real (x : Float) : GivesText (.number (.real x)) (Number.text x)
  | whole (n : Int) (h : n.natAbs < Nat.pow 10 Number.digitLimit) :
    GivesText (.number (.whole n)) (toString n)

/-- The real number that a value gives. -/
inductive GivesReal : Value → Float → Prop
  | real (x : Float) : GivesReal (.number (.real x)) x
  | whole (n : Int) (h : n.natAbs < Number.wholeLimit) :
    GivesReal (.number (.whole n)) (Number.nearest (n < 0) n.natAbs 1)
  | text (s : String) (x : Float) (h : Number.real? s = some x) : GivesReal (.text s) x

/-- The whole number that a value gives. -/
inductive GivesWhole : Value → Int → Prop
  | whole (n : Int) : GivesWhole (.number (.whole n)) n
  | text (s : String) (n : Int) (h : Number.wholeOf s = .ok n) : GivesWhole (.text s) n

/-- The text that a value gives, unless it is empty. -/
def GivesFilled (v : Value) (s : String) : Prop :=
  GivesText v s ∧ s ≠ ""

/-- A whole number that is too long to be written. -/
def Unwritable (v : Value) : Prop :=
  ∃ n : Int, v = .number (.whole n) ∧ Nat.pow 10 Number.digitLimit ≤ n.natAbs

/-- A whole number that is beyond the range of real numbers. -/
def Unbounded (v : Value) : Prop :=
  ∃ n : Int, v = .number (.whole n) ∧ Number.wholeLimit ≤ n.natAbs

theorem text?_eq_error_iff {v : Value} {crash : Crash} :
    text? v = .error crash ↔ Unwritable v ∧ crash = .tooLongToWrite := by
  constructor
  · fun_cases text? v
    case case3 n hlong =>
      rintro ⟨⟩
      cases n with
      | whole n => exact ⟨⟨n, rfl, Number.isTooLong_iff.mp hlong⟩, rfl⟩
      | real x => cases hlong
    all_goals exact nofun
  · rintro ⟨⟨n, rfl, hlong⟩, rfl⟩
    rw [text?, if_pos (Number.isTooLong_iff.mpr hlong)]

theorem not_unwritable_of_ok {v : Value} {found : Option String} (h : text? v = .ok found) :
    ¬Unwritable v := by
  intro hv
  rw [text?_eq_error_iff.mpr ⟨hv, rfl⟩] at h
  cases h

theorem text?_eq_some_iff {v : Value} {s : String} :
    text? v = .ok (some s) ↔ GivesText v s := by
  constructor
  · fun_cases text? v
    case case1 =>
      rintro ⟨⟩
      exact .text s
    case case2 b =>
      rintro ⟨⟩
      exact .bool b
    case case4 n hlong =>
      rintro ⟨⟩
      cases n with
      | whole n => exact .whole n (Nat.not_le.mp (mt Number.isTooLong_iff.mpr hlong))
      | real x => exact .real x
    all_goals exact nofun
  · intro h
    cases h with
    | text => rfl
    | bool => rfl
    | real => rfl
    | whole n hshort =>
      rw [text?, if_neg (mt Number.isTooLong_iff.mp (Nat.not_le.mpr hshort))]
      rfl

theorem real?_eq_error_iff {v : Value} {crash : Crash} :
    real? v = .error crash ↔ Unbounded v ∧ crash = .badNumber .tooLarge := by
  constructor
  · fun_cases real? v
    case case2 n hnone =>
      rintro ⟨⟩
      exact ⟨⟨n, rfl, Number.ofInt?_eq_none_iff.mp hnone⟩, rfl⟩
    all_goals exact nofun
  · rintro ⟨⟨n, rfl, hlarge⟩, rfl⟩
    rw [real?, Number.ofInt?_eq_none_iff.mpr hlarge]

theorem not_unbounded_of_ok {v : Value} {found : Option Float} (h : real? v = .ok found) :
    ¬Unbounded v := by
  intro hv
  rw [real?_eq_error_iff.mpr ⟨hv, rfl⟩] at h
  cases h

theorem real?_eq_some_iff {v : Value} {x : Float} :
    real? v = .ok (some x) ↔ GivesReal v x := by
  constructor
  · fun_cases real? v
    case case1 n y hnearest =>
      rintro ⟨⟩
      obtain ⟨hsmall, rfl⟩ := Number.ofInt?_eq_some_iff.mp hnearest
      exact .whole n hsmall
    case case3 y =>
      rintro ⟨⟩
      exact .real x
    case case4 s =>
      rw [Except.ok.injEq]
      exact .text s x
    all_goals exact nofun
  · intro h
    cases h with
    | real => rfl
    | whole n hsmall => rw [real?, Number.ofInt?_eq_some_iff.mpr ⟨hsmall, rfl⟩]
    | text s x hread => exact congrArg Except.ok hread

theorem whole?_eq_some_iff {v : Value} {n : Int} : whole? v = some n ↔ GivesWhole v n := by
  constructor
  · fun_cases whole? v
    case case1 m =>
      rintro ⟨⟩
      exact .whole n
    case case2 s =>
      intro h
      cases hread : Number.wholeOf s with
      | error fault =>
        rw [hread] at h
        cases h
      | ok m =>
        rw [hread] at h
        cases h
        exact .text s n hread
    all_goals exact nofun
  · intro h
    cases h with
    | whole => rfl
    | text s n hread =>
      rw [whole?, hread]
      rfl

/-! ### What a setting comes to -/

/-- What a setting comes to: what its value gives, or else what it is by default. -/
def Taken (gives : Value → α → Prop) (v : Value) (otherwise x : α) : Prop :=
  gives v x ∨ (∀ y, ¬gives v y) ∧ x = otherwise

theorem taken_getD {gives : Value → α → Prop} {v : Value} {found : Option α}
    (h : ∀ x, found = some x ↔ gives v x) (otherwise : α) :
    Taken gives v otherwise (found.getD otherwise) := by
  cases found with
  | some x => exact .inl ((h x).mp rfl)
  | none => exact .inr ⟨fun y hy ↦ (nomatch (h y).mpr hy), rfl⟩

/-- A setting comes to one thing only. -/
theorem Taken.eq_getD {gives : Value → α → Prop} {v : Value} {found : Option α} {otherwise x : α}
    (hx : Taken gives v otherwise x) (h : ∀ x, found = some x ↔ gives v x) :
    x = found.getD otherwise := by
  rcases hx with hx | ⟨hnone, rfl⟩
  · rw [(h x).mpr hx]
    rfl
  · cases found with
    | none => rfl
    | some y => exact absurd ((h y).mp rfl) (hnone y)

/-! ### One step after another -/

/-- What reading comes to: it crashes, or is refused, or is done with what has been read. -/
def Ends (crashed refused : Prop) (done : α → Prop) : Except Fault α → Prop
  | .error (.crashed _) => crashed
  | .error (.rejected _) => refused
  | .ok a => done a

variable {crashed refused : Prop} {done : α → Prop} {x : Except Fault α}

theorem Ends.bind {first : α → Prop} {done : β → Prop} {f : α → Except Fault β}
    (hx : Ends crashed refused first x)
    (hf : ∀ a, first a → Ends crashed refused done (f a)) :
    Ends crashed refused done (x >>= f) := by
  match x, hx with
  | .error (.crashed _), hx => exact hx
  | .error (.rejected _), hx => exact hx
  | .ok a, hx => exact hf a hx

theorem Ends.imp {crashed' refused' : Prop} {done' : α → Prop}
    (hx : Ends crashed refused done x) (hcrashed : crashed → crashed')
    (hrefused : refused → refused') (hdone : ∀ a, done a → done' a) :
    Ends crashed' refused' done' x := by
  match x, hx with
  | .error (.crashed _), hx => exact hcrashed hx
  | .error (.rejected _), hx => exact hrefused hx
  | .ok a, hx => exact hdone a hx

theorem Ends.of_ok {a : α} (hx : Ends crashed refused done x) (h : x = .ok a) : done a := by
  rw [h] at hx
  exact hx

theorem Ends.crashed_iff (hx : Ends crashed refused done x) (hrefused : refused → ¬crashed)
    (hdone : ∀ a, done a → ¬crashed) : (∃ crash, x = .error (.crashed crash)) ↔ crashed := by
  match x, hx with
  | .error (.crashed crash), hx => exact iff_of_true ⟨crash, rfl⟩ hx
  | .error (.rejected _), hx => exact iff_of_false (fun ⟨_, h⟩ ↦ nomatch h) (hrefused hx)
  | .ok a, hx => exact iff_of_false (fun ⟨_, h⟩ ↦ nomatch h) (hdone a hx)

theorem Ends.ok_iff {passed : Prop} (hx : Ends crashed refused done x)
    (hcrashed : crashed → ¬passed) (hrefused : refused → ¬passed) (hdone : ∀ a, done a → passed) :
    (∃ a, x = .ok a) ↔ passed := by
  match x, hx with
  | .error (.crashed _), hx => exact iff_of_false (fun ⟨_, h⟩ ↦ nomatch h) (hcrashed hx)
  | .error (.rejected _), hx => exact iff_of_false (fun ⟨_, h⟩ ↦ nomatch h) (hrefused hx)
  | .ok a, hx => exact iff_of_true ⟨a, rfl⟩ (hdone a hx)

theorem ends_text (v : Value) (h : Unwritable v → crashed) :
    Ends crashed refused
      (fun found ↦ ¬Unwritable v ∧ ∀ s, found = some s ↔ GivesText v s)
      ((text? v).mapError .crashed) := by
  cases hread : text? v with
  | error crash => exact h (text?_eq_error_iff.mp hread).1
  | ok found =>
    refine ⟨not_unwritable_of_ok hread, fun s ↦ ?_⟩
    rw [← text?_eq_some_iff, hread, Except.ok.injEq]

theorem ends_real (v : Value) (h : Unbounded v → crashed) :
    Ends crashed refused
      (fun found ↦ ¬Unbounded v ∧ ∀ x, found = some x ↔ GivesReal v x)
      ((real? v).mapError .crashed) := by
  cases hread : real? v with
  | error crash => exact h (real?_eq_error_iff.mp hread).1
  | ok found =>
    refine ⟨not_unbounded_of_ok hread, fun x ↦ ?_⟩
    rw [← real?_eq_some_iff, hread, Except.ok.injEq]

theorem ends_realOr (v : Value) (otherwise : Float) (h : Unbounded v → crashed) :
    Ends crashed refused (fun x ↦ ¬Unbounded v ∧ Taken GivesReal v otherwise x)
      (do return (← (real? v).mapError .crashed).getD otherwise) := by
  refine (ends_real v h).bind fun found hfound ↦ ?_
  exact ⟨hfound.1, taken_getD hfound.2 otherwise⟩

/-- A check that is not passed refuses what has been read. -/
theorem Ends.check {p : Prop} [Decidable p] {r : Rejection} {rest : Unit → Except Fault α}
    (h : p → refused) (hrest : ¬p → Ends crashed refused done (rest ())) :
    Ends crashed refused done (if p then throw (.rejected r) >>= rest else rest ()) := by
  split
  case isTrue hp => exact h hp
  case isFalse hp => exact hrest hp

theorem nonEmpty_eq_some_iff {v : Value} {found : Option String}
    (h : ∀ s, found = some s ↔ GivesText v s) (s : String) :
    Service.nonEmpty found = some s ↔ GivesFilled v s := by
  rw [Service.nonEmpty, Option.filter_eq_some_iff, h, GivesFilled]
  simp

/-! ### Settings for generating -/

/-- The settings for generating are read from the value `v`. -/
structure ReadsGeneration (v : Value) (s : GenerationSettings) : Prop where
  mode : Taken GivesFilled (v.field "mode") "group" s.mode
  cooldown : Taken GivesReal (v.field "cooldown_seconds") 1.0 s.cooldown
  maxAttempts : Taken GivesWhole (v.field "max_attempts") 5 s.maxAttempts
  baseDelay : Taken GivesReal (v.field "base_delay") 1.0 s.baseDelay
  maxDelay : Taken GivesReal (v.field "max_delay") 30.0 s.maxDelay
  truncateChars : Taken GivesWhole (v.field "truncate_chars") 30000 s.truncateChars
  fallbackTruncateChars :
    Taken GivesWhole (v.field "fallback_truncate_chars") 45000 s.fallbackTruncateChars
  minLength : Taken GivesWhole (v.field "min_length") 100 s.minLength
  summaryMinLength : Taken GivesWhole (v.field "summary_min_length") 50 s.summaryMinLength
  cachePrefixChars : Taken GivesWhole (v.field "cache_prefix_chars") 2000 s.cachePrefixChars

/-- The settings for generating are within their bounds. -/
structure ValidGeneration (s : GenerationSettings) : Prop where
  mode : s.mode ∈ generationModes
  maxAttempts : 1 ≤ s.maxAttempts

/-- The settings for generating pass their checks. -/
structure GenerationPasses (v : Value) : Prop where
  mode : ∃ mode ∈ generationModes, Taken GivesFilled (v.field "mode") "group" mode
  maxAttempts : ∃ n, 1 ≤ n ∧ Taken GivesWhole (v.field "max_attempts") 5 n

/-- Reading the settings for generating crashes. -/
inductive GenerationCrashes (v : Value) : Prop
  | mode (h : Unwritable (v.field "mode"))
  | real (name : String) (hname : name ∈ ["cooldown_seconds", "base_delay", "max_delay"])
    (h : Unbounded (v.field name))

theorem ends_generationOf (v : Value) :
    Ends (GenerationCrashes v) (¬GenerationCrashes v ∧ ¬GenerationPasses v)
      (fun s ↦ ¬GenerationCrashes v ∧ GenerationPasses v ∧ ValidGeneration s ∧ ReadsGeneration v s)
      (generationOf v) := by
  unfold generationOf
  refine (ends_text _ .mode).bind fun mode hmode ↦ ?_
  refine (ends_realOr _ _ (.real _ (by simp))).bind fun cooldown hcooldown ↦ ?_
  refine (ends_realOr _ _ (.real _ (by simp))).bind fun baseDelay hbaseDelay ↦ ?_
  refine (ends_realOr _ _ (.real _ (by simp))).bind fun maxDelay hmaxDelay ↦ ?_
  have hfilled := nonEmpty_eq_some_iff hmode.2
  have hwhole (name : String) : ∀ n, whole? (v.field name) = some n ↔ GivesWhole (v.field name) n :=
    fun n ↦ whole?_eq_some_iff
  have hcrash : ¬GenerationCrashes v := by
    rintro (h | ⟨name, hname, h⟩)
    · exact hmode.1 h
    · simp only [List.mem_cons, List.not_mem_nil, or_false] at hname
      rcases hname with rfl | rfl | rfl
      · exact hcooldown.1 h
      · exact hbaseDelay.1 h
      · exact hmaxDelay.1 h
  have hmode := taken_getD hfilled "group"
  have hattempts := taken_getD (hwhole "max_attempts") 5
  refine Ends.check (fun hunknown ↦ ⟨hcrash, fun hpasses ↦ ?_⟩) fun hknown ↦
    Ends.check (fun hfew ↦ ⟨hcrash, fun hpasses ↦ ?_⟩) fun hmany ↦ ?_
  · obtain ⟨m, hm, htaken⟩ := hpasses.mode
    rw [htaken.eq_getD hfilled] at hm
    simp [hm] at hunknown
  · obtain ⟨n, hn, htaken⟩ := hpasses.maxAttempts
    rw [htaken.eq_getD (hwhole "max_attempts")] at hn
    exact absurd hfew (Int.not_lt.mpr hn)
  · have hmem : (Service.nonEmpty mode).getD "group" ∈ generationModes := by simpa using hknown
    have hpasses : GenerationPasses v := ⟨⟨_, hmem, hmode⟩, _, Int.not_lt.mp hmany, hattempts⟩
    refine ⟨hcrash, hpasses, ⟨hmem, Int.not_lt.mp hmany⟩, ?_⟩
    exact {
      mode := hmode
      cooldown := hcooldown.2
      maxAttempts := hattempts
      baseDelay := hbaseDelay.2
      maxDelay := hmaxDelay.2
      truncateChars := taken_getD (hwhole _) _
      fallbackTruncateChars := taken_getD (hwhole _) _
      minLength := taken_getD (hwhole _) _
      summaryMinLength := taken_getD (hwhole _) _
      cachePrefixChars := taken_getD (hwhole _) _ }

/-! ### All settings

Settings are read by section: `sections` gives the value of each. -/

/-- The settings are read from the sections. -/
structure Reads (sections : String → Value) (c : Config) : Prop where
  model : ∀ s, c.model = some s ↔ GivesText ((sections "llm").field "model") s
  address : ∀ s, c.address = some s ↔ GivesText ((sections "llm").field "base_url") s
  key : ∀ s, c.key = some s ↔ GivesText ((sections "llm").field "api_key") s
  temperature : ∀ x, c.temperature = some x ↔ GivesReal ((sections "llm").field "temperature") x
  maxTokens : ∀ n, c.maxTokens = some n ↔ GivesWhole ((sections "llm").field "max_tokens") n
  timeout : ∀ x, c.timeout = some x ↔ GivesReal ((sections "llm").field "request_timeout") x
  generation : ReadsGeneration (sections "generation") c.generation
  docsFolder : Taken GivesFilled ((sections "output").field "docs_dir") "docs" c.docsFolder
  sidebar : Taken GivesFilled ((sections "output").field "sidebar_format") "json" c.sidebar

/-- The settings that are checked are within their bounds. -/
structure Valid (c : Config) : Prop where
  generation : ValidGeneration c.generation
  sidebar : c.sidebar ∈ sidebarStyles

/-- The style of sidebars passes its check. -/
def SidebarPasses (sections : String → Value) : Prop :=
  ∃ style ∈ sidebarStyles,
    Taken GivesFilled ((sections "output").field "sidebar_format") "json" style

/-- A list of paths that are left out cannot be read. -/
def ExcludedCrash (v : Value) : Prop :=
  ∃ items, v = .sequence items ∧ ∃ item ∈ items, Unwritable item

/-- The settings pass all their checks. -/
structure Passes (sections : String → Value) : Prop where
  generation : GenerationPasses (sections "generation")
  sidebar : SidebarPasses sections

/-- Reading the settings crashes. The settings for output are looked at when those for generating
have passed their checks, and the paths that are left out when all checks have been passed. -/
inductive Crashes (sections : String → Value) : Prop
  | serviceText (name : String) (hname : name ∈ ["model", "base_url", "api_key"])
    (h : Unwritable ((sections "llm").field name))
  | serviceReal (name : String) (hname : name ∈ ["temperature", "request_timeout"])
    (h : Unbounded ((sections "llm").field name))
  | generation (h : GenerationCrashes (sections "generation"))
  | output (hpasses : GenerationPasses (sections "generation")) (name : String)
    (hname : name ∈ ["docs_dir", "sidebar_format"])
    (h : Unwritable ((sections "output").field name))
  | excluded (hpasses : Passes sections) (h : ExcludedCrash (sections "exclude_paths"))

theorem mapM_text?_cases (items : List Value) :
    (∃ item ∈ items, Unwritable item) ∧ items.mapM text? = .error .tooLongToWrite ∨
      (∀ item ∈ items, ¬Unwritable item) ∧ ∃ found, items.mapM text? = .ok found := by
  induction items with
  | nil => exact .inr ⟨nofun, [], rfl⟩
  | cons item items ih =>
    rw [List.mapM_cons]
    cases hread : text? item with
    | error crash =>
      obtain ⟨hitem, rfl⟩ := text?_eq_error_iff.mp hread
      exact .inl ⟨⟨item, List.mem_cons_self, hitem⟩, rfl⟩
    | ok s =>
      have hitem := not_unwritable_of_ok hread
      rcases ih with ⟨⟨other, hmem, hother⟩, hrest⟩ | ⟨hothers, found, hrest⟩
      · refine .inl ⟨⟨other, List.mem_cons_of_mem _ hmem, hother⟩, ?_⟩
        rw [hrest]
        rfl
      · refine .inr ⟨List.forall_mem_cons.mpr ⟨hitem, hothers⟩, s :: found, ?_⟩
        rw [hrest]
        rfl

theorem ends_texts (v : Value) (h : ExcludedCrash v → crashed) :
    Ends crashed refused (fun _ ↦ ¬ExcludedCrash v) ((texts v).mapError .crashed) := by
  cases v with
  | sequence items =>
    rcases mapM_text?_cases items with ⟨⟨item, hmem, hitem⟩, hread⟩ | ⟨hitems, found, hread⟩
    · rw [texts, hread]
      exact h ⟨items, rfl, item, hmem, hitem⟩
    · rw [texts, hread]
      rintro ⟨_, ⟨⟩, item, hmem, hitem⟩
      exact hitems item hmem hitem
  | _ => exact fun ⟨items, hitems, _⟩ ↦ nomatch hitems

theorem not_crashes {sections : String → Value}
    (htext : ∀ name ∈ ["model", "base_url", "api_key"], ¬Unwritable ((sections "llm").field name))
    (hreal : ∀ name ∈ ["temperature", "request_timeout"], ¬Unbounded ((sections "llm").field name))
    (hgeneration : ¬GenerationCrashes (sections "generation"))
    (houtput : GenerationPasses (sections "generation") →
      ∀ name ∈ ["docs_dir", "sidebar_format"], ¬Unwritable ((sections "output").field name))
    (hexcluded : Passes sections → ¬ExcludedCrash (sections "exclude_paths")) :
    ¬Crashes sections := by
  rintro (⟨name, hname, h⟩ | ⟨name, hname, h⟩ | h | ⟨hpasses, name, hname, h⟩ | ⟨hpasses, h⟩)
  · exact htext name hname h
  · exact hreal name hname h
  · exact hgeneration h
  · exact houtput hpasses name hname h
  · exact hexcluded hpasses h

/-- **What reading a mapping comes to.** The settings are read one after the other; at each check
all that has been read before is known to be harmless. -/
theorem ends_ofFields (root : Files.Path) (v : Value) :
    Ends (Crashes v.field) (¬Crashes v.field ∧ ¬Passes v.field)
      (fun c ↦ ¬Crashes v.field ∧ Passes v.field ∧ Valid c ∧ Reads v.field c)
      (ofFields root v) := by
  unfold ofFields
  refine (ends_text _ (.serviceText _ (by simp))).bind fun model hmodel ↦ ?_
  refine (ends_text _ (.serviceText _ (by simp))).bind fun address haddress ↦ ?_
  refine (ends_text _ (.serviceText _ (by simp))).bind fun key hkey ↦ ?_
  refine (ends_real _ (.serviceReal _ (by simp))).bind fun temperature htemperature ↦ ?_
  refine (ends_real _ (.serviceReal _ (by simp))).bind fun timeout htimeout ↦ ?_
  have htext : ∀ name ∈ ["model", "base_url", "api_key"],
      ¬Unwritable ((v.field "llm").field name) := by
    simp [hmodel.1, haddress.1, hkey.1]
  have hreal : ∀ name ∈ ["temperature", "request_timeout"],
      ¬Unbounded ((v.field "llm").field name) := by
    simp [htemperature.1, htimeout.1]
  refine Ends.bind ((ends_generationOf (v.field "generation")).imp .generation ?_ fun _ ↦ id)
    fun generation ⟨hgeneration, hpasses, hvalid, hreads⟩ ↦ ?_
  · rintro ⟨hgeneration, hfails⟩
    refine ⟨not_crashes htext hreal hgeneration ?_ ?_, fun hpasses ↦ hfails hpasses.generation⟩
    · exact fun hpasses ↦ absurd hpasses hfails
    · exact fun hpasses ↦ absurd hpasses.generation hfails
  refine (ends_text _ (.output hpasses _ (by simp))).bind fun docsFolder hdocsFolder ↦ ?_
  refine (ends_text _ (.output hpasses _ (by simp))).bind fun sidebar hsidebar ↦ ?_
  have houtput : ∀ name ∈ ["docs_dir", "sidebar_format"],
      ¬Unwritable ((v.field "output").field name) := by
    simp [hdocsFolder.1, hsidebar.1]
  have hfilled := nonEmpty_eq_some_iff hsidebar.2
  have htaken := taken_getD hfilled "json"
  refine Ends.check ?_ fun hknown ↦ ?_
  · intro hunknown
    have hfails : ¬SidebarPasses v.field := by
      rintro ⟨style, hstyle, hstyletaken⟩
      rw [hstyletaken.eq_getD hfilled] at hstyle
      simp [hstyle] at hunknown
    refine ⟨not_crashes htext hreal hgeneration (fun _ ↦ houtput) ?_, fun h ↦ hfails h.sidebar⟩
    exact fun hpasses ↦ absurd hpasses.sidebar hfails
  have hmem : (Service.nonEmpty sidebar).getD "json" ∈ sidebarStyles := by simpa using hknown
  have hall : Passes v.field := ⟨hpasses, _, hmem, htaken⟩
  refine (ends_texts _ (.excluded hall)).bind fun excluded hexcluded ↦ ?_
  refine ⟨not_crashes htext hreal hgeneration (fun _ ↦ houtput) fun _ ↦ hexcluded, hall,
    ⟨hvalid, hmem⟩, ?_⟩
  exact {
    model := hmodel.2
    address := haddress.2
    key := hkey.2
    temperature := htemperature.2
    maxTokens := fun n ↦ whole?_eq_some_iff
    timeout := htimeout.2
    generation := hreads
    docsFolder := taken_getD (nonEmpty_eq_some_iff hdocsFolder.2) "docs"
    sidebar := htaken }

/-- Sections without any settings are harmless. -/
theorem not_crashes_null : ¬Crashes fun _ ↦ Value.null := by
  have hunwritable : ¬Unwritable .null := fun ⟨_, h, _⟩ ↦ nomatch h
  have hunbounded : ¬Unbounded .null := fun ⟨_, h, _⟩ ↦ nomatch h
  refine not_crashes (fun _ _ ↦ hunwritable) (fun _ _ ↦ hunbounded) ?_ (fun _ _ _ ↦ hunwritable)
    fun _ ⟨_, h, _⟩ ↦ nomatch h
  rintro (h | ⟨_, _, h⟩)
  · exact hunwritable h
  · exact hunbounded h

/-- A settings file has a mapping, or nothing. -/
def IsSettings : Value → Prop
  | .null => True
  | .mapping _ => True
  | _ => False

/-- **What reading a value comes to.** Nothing counts as a mapping without any settings. -/
theorem ends_ofValue (root : Files.Path) (v : Value) :
    Ends (Crashes v.field) (¬Crashes v.field ∧ ¬(IsSettings v ∧ Passes v.field))
      (fun c ↦ ¬Crashes v.field ∧ IsSettings v ∧ Passes v.field ∧ Valid c ∧ Reads v.field c)
      (ofValue root v) := by
  have hmapping (pairs : List (Value × Value)) (h : v.field = (Value.mapping pairs).field)
      (hv : IsSettings v) : Ends (Crashes v.field)
        (¬Crashes v.field ∧ ¬(IsSettings v ∧ Passes v.field))
        (fun c ↦ ¬Crashes v.field ∧ IsSettings v ∧ Passes v.field ∧ Valid c ∧ Reads v.field c)
        (ofFields root (.mapping pairs)) := by
    rw [h]
    exact (ends_ofFields root (.mapping pairs)).imp id
      (fun hrefused ↦ ⟨hrefused.1, fun hpasses ↦ hrefused.2 hpasses.2⟩)
      fun c hdone ↦ ⟨hdone.1, hv, hdone.2⟩
  cases v with
  | null => exact hmapping [] (funext fun _ ↦ rfl) trivial
  | mapping pairs => exact hmapping pairs rfl trivial
  | _ => exact ⟨not_crashes_null, fun hpasses ↦ hpasses.1⟩

end Docwright.Config
