import Docwright.Proofs.Config.Load

/-!
# Setting up what has been loaded

Settings that have been loaded have passed their checks, so jobs of their mode are known. The gate
has a check of its own that loading lacks: its cooldown must not be negative. Where there is no gate
yet this is all that can go wrong (`setUp_cases`), and it goes wrong just when the settings file
asks for a negative cooldown (`cooldown_lt_zero_iff`).
-/

namespace Docwright.Config

open Yaml (Value)

variable {read : SettingsReader} {d : Files.Disk} {p : Files.Path} {v : Value} {c : Config}

/-- What a value gives as a real number is one number. -/
theorem GivesReal.unique {x y : Float} (hx : GivesReal v x) (hy : GivesReal v y) : x = y := by
  have heq := (real?_eq_some_iff.mpr hx).symm.trans (real?_eq_some_iff.mpr hy)
  exact Option.some_inj.mp (Except.ok.inj heq)

theorem valid_default (root : Files.Path) : Valid { root } where
  generation := ⟨show "group" ∈ generationModes by decide, show (1 : Int) ≤ 5 by decide⟩
  sidebar := show "json" ∈ sidebarStyles by decide

/-- Settings that have been loaded are within their bounds. -/
theorem valid_of_loadBy (h : loadBy read d p = .ok c) : Valid c := by
  rcases cases_of_loadBy h with ⟨-, rfl⟩ | ⟨_, _, -, -, hvalid, -⟩
  · exact valid_default _
  · exact hvalid

/-- The cooldown of settings that have been loaded is negative just when their file says so. -/
theorem cooldown_lt_zero_iff (h : loadBy read d p = .ok c) :
    c.generation.cooldown < 0.0 ↔
      ∃ bytes v x, d.read (fileAt d p) = .ok bytes ∧ HasValue read bytes v ∧
        GivesReal ((v.field "generation").field "cooldown_seconds") x ∧ x < 0.0 := by
  have hdefault : ¬(1.0 : Float) < 0.0 := by decide +kernel
  rcases cases_of_loadBy h with ⟨⟨e, hfile⟩, rfl⟩ | ⟨bytes, v, hfile, hv, -, hreads⟩
  · refine iff_of_false hdefault ?_
    rintro ⟨bytes, -, -, hread, -⟩
    rw [hfile] at hread
    cases hread
  · constructor
    · intro hnegative
      rcases hreads.generation.cooldown with hgives | ⟨-, hcooldown⟩
      · exact ⟨bytes, v, _, hfile, hv, hgives, hnegative⟩
      · rw [hcooldown] at hnegative
        exact absurd hnegative hdefault
    · rintro ⟨bytes', w, x, hread, hw, hgives, hnegative⟩
      obtain rfl := Except.ok.inj (hfile.symm.trans hread)
      obtain rfl := hv.unique hw
      rcases hreads.generation.cooldown with hcooldown | ⟨hnone, -⟩
      · rwa [hcooldown.unique hgives]
      · exact absurd hgives (hnone x)

/-- Where there is no gate yet, only the cooldown decides whether settings within bounds can be set
up. -/
theorem setUp_cases (h : Valid c) (environment : Service.Environment)
    (trees : Outline.TreeSource) (responses : Service.Transport) :
    c.generation.cooldown < 0.0 ∧
        c.setUp environment trees responses none = .error .negativeCooldown ∨
      ¬c.generation.cooldown < 0.0 ∧
        c.setUp environment trees responses none = .ok
          ⟨c.pipeline trees ((c.endpoint.complete environment).behaviour responses),
            ⟨c.generation.cooldown, none⟩, []⟩ := by
  have hmode : modeCrash? c.generation.mode = none := by
    rw [modeCrash?, if_pos (List.contains_iff_mem.mpr h.generation.mode)]
  by_cases hcooldown : c.generation.cooldown < 0.0
  · have hgate : Service.Gate.make? c.generation.cooldown = none := if_pos hcooldown
    refine .inl ⟨hcooldown, ?_⟩
    simp only [setUp, Service.sharedGate, hgate, Option.map_none]
  · have hgate : Service.Gate.make? c.generation.cooldown = some ⟨c.generation.cooldown, none⟩ :=
      if_neg hcooldown
    refine .inr ⟨hcooldown, ?_⟩
    simp only [setUp, Service.sharedGate, hgate, Option.map_some, hmode]

/-- **Settings that have been loaded can be set up unless their file asks for a negative cooldown**,
where there is no gate yet and whatever the environment, the trees and the answers of the service
are. With a negative cooldown the gate is refused; what is set up keeps to the bounds that loading
checks. -/
theorem setUp_loaded (read : SettingsReader) (d : Files.Disk) (p : Files.Path) (c : Config)
    (h : loadBy read d p = .ok c) (environment : Service.Environment) (trees : Outline.TreeSource)
    (responses : Service.Transport) :
    ((∃ crash, c.setUp environment trees responses none = .error crash) ↔
        ∃ bytes v x, d.read (fileAt d p) = .ok bytes ∧ HasValue read bytes v ∧
          GivesReal ((v.field "generation").field "cooldown_seconds") x ∧ x < 0.0) ∧
      (∀ crash, c.setUp environment trees responses none = .error crash →
        crash = .negativeCooldown) ∧
      ∀ setup, c.setUp environment trees responses none = .ok setup →
        setup.pipeline.mode ∈ generationModes ∧ setup.pipeline.sidebar ∈ sidebarStyles ∧
          1 ≤ setup.pipeline.generation.maxAttempts ∧
          setup.gate.cooldown = c.generation.cooldown := by
  have hvalid := valid_of_loadBy h
  rw [← cooldown_lt_zero_iff h]
  rcases setUp_cases hvalid environment trees responses with
    ⟨hnegative, hsetUp⟩ | ⟨hfine, hsetUp⟩
  · rw [hsetUp]
    refine ⟨iff_of_true ⟨_, rfl⟩ hnegative, fun crash hcrash ↦ (Except.error.inj hcrash).symm, ?_⟩
    intro setup hok
    cases hok
  · rw [hsetUp]
    refine ⟨iff_of_false (fun ⟨_, hcrash⟩ ↦ nomatch hcrash) hfine, nofun, ?_⟩
    rintro _ ⟨⟩
    exact ⟨hvalid.generation.mode, hvalid.sidebar, hvalid.generation.maxAttempts, rfl⟩

/-- The text of a settings file that asks for a cooldown of `-1`. -/
def backwards : List Char := "generation:\n  cooldown_seconds: -1\n".toList

/-- Whether the settings a document gives ask for a negative cooldown. -/
def asksNegative (document : Except Yaml.Fault Yaml.Value) : Bool :=
  match document with
  | .ok v =>
    match ofValue (⟨true, [fileName]⟩ : Files.Path).parent v with
    | .ok c => decide (c.generation.cooldown < 0.0)
    | .error _ => false
  | .error _ => false

/-- Settings that ask for a negative cooldown are settings nonetheless. -/
theorem exists_of_asksNegative {document : Except Yaml.Fault Yaml.Value}
    (h : asksNegative document = true) :
    ∃ v c, document = .ok v ∧ ofValue (⟨true, [fileName]⟩ : Files.Path).parent v = .ok c ∧
      c.generation.cooldown < 0.0 := by
  revert h
  fun_cases asksNegative document
  case case1 v c hsettings => exact fun h ↦ ⟨v, c, rfl, hsettings, of_decide_eq_true h⟩
  all_goals nofun

/-- Settings with a cooldown of `-1` are loaded and cannot be set up. -/
theorem not_setUp_backwards :
    ∃ c, load (alone (Text.Utf8.encode backwards)) ⟨false, []⟩ = .ok c ∧
      ∃ crash, c.setUp [] (fun _ _ ↦ default) (fun _ _ ↦ .answered []) none = .error crash := by
  have hasks : asksNegative (Yaml.Value.ofText backwards) = true := by decide +kernel
  obtain ⟨v, c, hvalue, hsettings, hnegative⟩ := exists_of_asksNegative hasks
  have hplain : Text.unifyNewlines backwards = backwards := by decide +kernel
  have hfull : ∃ c ∈ Text.unifyNewlines backwards, Text.isBlank c = false :=
    ⟨'g', by decide +kernel, by decide +kernel⟩
  have hhas : HasValue Yaml.Value.ofText (Text.Utf8.encode backwards) v :=
    ⟨backwards, rfl, .text hfull (hplain.symm ▸ hvalue)⟩
  have hload : load (alone (Text.Utf8.encode backwards)) ⟨false, []⟩ = .ok c :=
    (loadBy_alone hhas).trans hsettings
  refine ⟨c, hload, ?_⟩
  exact (setUp_loaded _ _ _ c hload [] _ _).1.mpr ((cooldown_lt_zero_iff hload).mp hnegative)

end Docwright.Config
