import Docwright.Proofs.Outline.Nameless.Python
import Docwright.Proofs.Outline.Nameless.Script

/-!
# Outlining many files

The files of a batch are outlined one after the other. A file that no dialect knows, that is no
text, that departs from its grammar or that declares nothing is left out, and the others are what
they are without it. One thing is not isolated: a declaration that is reported without a name ends
the whole batch, whatever the other files are (`HasNameless`).

* `outline_batch` - a batch fails exactly when one of its files has such a declaration. Otherwise
  its outlines are those that each file has alone, in order, and each of them has symbols.
-/

namespace Docwright.Outline

variable {trees : TreeSource} {f : SourceFile} {files rest : List SourceFile}

/-- A walk over the module that the root stands for stumbles over a declaration without a name. -/
def RootStumbles (dialect : Dialect) (source : List UInt8) (root : Node) : Prop :=
  match dialect with
  | .python => Python.Stumbles source .module root.children
  | .javaScript => Script.Stumbles source root.children
  | .typeScript => Script.Stumbles source root.children

/-- The file can be outlined but for a declaration without a name. -/
def HasNameless (trees : TreeSource) (f : SourceFile) : Prop :=
  ∃ dialect root, Dialect.of? f.path = some dialect ∧
    soundTree trees (dialect.grammarOf f.path) f.content = .ok root ∧
    RootStumbles dialect f.content root

/-- The file cannot be outlined: no dialect knows it, or its source is no text or departs from the
grammar. -/
def Unreadable (trees : TreeSource) (f : SourceFile) : Prop :=
  ∀ dialect, Dialect.of? f.path = some dialect →
    ∃ fault, soundTree trees (dialect.grammarOf f.path) f.content = .error fault

theorem failsWhen_symbolsOf (dialect : Dialect) (source : List UInt8) (root : Node) :
    FailsWhen (RootStumbles dialect source root) (symbolsOf dialect source root) := by
  cases dialect with
  | python => exact Python.failsWhen_collect source true root.children
  | javaScript =>
    exact (Script.failsWhen_collect false source true root.children).congr (and_iff_right rfl)
  | typeScript =>
    exact (Script.failsWhen_collect true source true root.children).congr (and_iff_right rfl)

theorem not_hasNameless_of_unreadable (h : Unreadable trees f) : ¬HasNameless trees f := by
  rintro ⟨dialect, root, hdialect, hroot, _⟩
  obtain ⟨fault, hfault⟩ := h dialect hdialect
  rw [hroot] at hfault
  cases hfault

/-- A file that cannot be outlined is passed over. -/
theorem outlineFile_of_unreadable (h : Unreadable trees f) :
    (outlineFile trees f).2 = .ok none := by
  rw [outlineFile]
  split
  · rfl
  · rename_i dialect hdialect
    obtain ⟨fault, hfault⟩ := h dialect hdialect
    rw [extract, hfault]

/-- Any other file is passed over only when it has no symbols. -/
theorem outlineFile_of_soundTree {dialect : Dialect} {root : Node}
    (hdialect : Dialect.of? f.path = some dialect)
    (hroot : soundTree trees (dialect.grammarOf f.path) f.content = .ok root) :
    (outlineFile trees f).2 = (symbolsOf dialect f.content root).map fun symbols ↦
      if symbols.isEmpty then none
      else some ⟨f.path, symbols, some (dialect.languageOf f.path)⟩ := by
  rw [outlineFile, hdialect]
  simp only [extract, hroot]
  cases hsymbols : symbolsOf dialect f.content root with
  | error fault => rfl
  | ok symbols => cases symbols <;> rfl

theorem failsWhen_outlineFile (trees : TreeSource) (f : SourceFile) :
    FailsWhen (HasNameless trees f) (outlineFile trees f).2 := by
  by_cases hread : Unreadable trees f
  · rw [outlineFile_of_unreadable hread]
    exact (FailsWhen.ok none).of_not (not_hasNameless_of_unreadable hread)
  · rw [Unreadable, not_forall] at hread
    obtain ⟨dialect, hread⟩ := hread
    rw [Classical.not_imp] at hread
    obtain ⟨hdialect, hread⟩ := hread
    cases hroot : soundTree trees (dialect.grammarOf f.path) f.content with
    | error fault => exact absurd ⟨fault, hroot⟩ hread
    | ok root =>
      rw [outlineFile_of_soundTree hdialect hroot]
      refine ((failsWhen_symbolsOf dialect f.content root).bind_ok fun symbols ↦ ⟨_, rfl⟩).congr
        ⟨fun h ↦ ⟨dialect, root, hdialect, hroot, h⟩, ?_⟩
      rintro ⟨dialect', root', hdialect', hroot', h⟩
      obtain rfl := Option.some.inj (hdialect.symm.trans hdialect')
      obtain rfl := Except.ok.inj (hroot.symm.trans hroot')
      exact h

/-- An outline of a file has symbols. -/
theorem symbols_ne_nil_of_outlineFile {o : Outline}
    (h : (outlineFile trees f).2 = .ok (some o)) : o.symbols ≠ [] := by
  rw [outlineFile] at h
  split at h
  · cases h
  split at h
  · cases h
  · cases h
  split at h
  · cases h
  · rename_i hsymbols
    cases h
    simpa using hsymbols

theorem outline_cons : (outline trees (f :: rest)).2 = (outlineFile trees f).2 >>= fun found ↦
    (outline trees rest).2 >>= fun more ↦ .ok (found.toList ++ more) := by
  rw [outline]
  split
  · rename_i hfile
    rw [hfile]
    rfl
  · rename_i hfile
    rw [hfile]
    simp only [bind, Except.bind]
    cases (outline trees rest).2 <;> rfl

theorem outline_singleton :
    (outline trees [f]).2 = (outlineFile trees f).2 >>= fun found ↦ .ok found.toList := by
  rw [outline_cons, outline]
  simp only [bind, Except.bind, List.append_nil]

theorem failsWhen_outline (trees : TreeSource) (files : List SourceFile) :
    FailsWhen (∃ f ∈ files, HasNameless trees f) (outline trees files).2 := by
  induction files with
  | nil => exact (FailsWhen.ok []).of_not fun ⟨f, hf, _⟩ ↦ List.not_mem_nil hf
  | cons f rest ih =>
    rw [outline_cons]
    refine ((failsWhen_outlineFile trees f).bind fun found _ ↦ ih.bind_ok fun more ↦
      ⟨_, rfl⟩).congr ?_
    rw [List.exists_mem_cons_iff]

/-- Where nothing without a name is reported, the outlines are those of the files, one by one. -/
theorem outline_eq_filterMap {found : SourceFile → Option Outline}
    (hfound : ∀ f ∈ files, (outlineFile trees f).2 = .ok (found f)) :
    (outline trees files).2 = .ok (files.filterMap found) := by
  induction files with
  | nil => rw [outline, List.filterMap_nil]
  | cons f rest ih =>
    rw [outline_cons, hfound f List.mem_cons_self,
      ih fun g hg ↦ hfound g (List.mem_cons_of_mem _ hg)]
    cases hf : found f with
    | none => rw [List.filterMap_cons_none hf]; rfl
    | some o => rw [List.filterMap_cons_some hf]; rfl

/-- **A batch fails exactly when one of its files reports a declaration without a name**, whatever
the bytes and the trees of the files are. Otherwise its outlines are those that each file has on its
own, in order; a file that cannot be outlined has none, and every outline has symbols. -/
theorem outline_batch (trees : TreeSource) (files : List SourceFile) :
    FailsWhen (∃ f ∈ files, HasNameless trees f) (outline trees files).2 ∧
      ((∀ f ∈ files, ¬HasNameless trees f) → ∃ found : SourceFile → Option Outline,
        (∀ f ∈ files, (outline trees [f]).2 = .ok (found f).toList) ∧
        (∀ f ∈ files, Unreadable trees f → found f = none) ∧
        (outline trees files).2 = .ok (files.filterMap found) ∧
        ∀ o ∈ files.filterMap found, o.symbols ≠ []) := by
  refine ⟨failsWhen_outline trees files, fun hnamed ↦ ?_⟩
  have hok : ∀ f ∈ files, ∃ o, (outlineFile trees f).2 = .ok o := fun f hf ↦
    (failsWhen_outlineFile trees f).exists_ok (hnamed f hf)
  obtain ⟨found, hfound⟩ : ∃ found : SourceFile → Option Outline,
      ∀ f ∈ files, (outlineFile trees f).2 = .ok (found f) := by
    refine ⟨fun f ↦ ((outlineFile trees f).2.toOption).join, fun f hf ↦ ?_⟩
    obtain ⟨o, ho⟩ := hok f hf
    simp only [ho]
    rfl
  refine ⟨found, fun f hf ↦ ?_, fun f hf hread ↦ ?_, outline_eq_filterMap hfound, fun o ho ↦ ?_⟩
  · rw [outline_singleton, hfound f hf]
    rfl
  · exact Except.ok.inj ((hfound f hf).symm.trans (outlineFile_of_unreadable hread))
  · obtain ⟨f, hf, ho⟩ := List.mem_filterMap.1 ho
    exact symbols_ne_nil_of_outlineFile ((hfound f hf).trans (congrArg _ ho))

namespace Unisolated

/-- A file with a function that has no name. -/
def unnamed : SourceFile where
  path := "syn.py"
  content := "abc".toList.map fun c ↦ c.toNat.toUInt8

/-- A file with a function that has one. -/
def named : SourceFile where
  path := "good.py"
  content := "def f(): 0".toList.map fun c ↦ c.toNat.toUInt8

/-- The function without a name. -/
def namelessFunction : Node :=
  .mk "function_definition" true false false true none 0 3 0 0 []

/-- The other function. -/
def function : Node :=
  .mk "function_definition" true false false true none 0 10 0 0
    [Python.nameNode 4 0, Python.blockNode 9 10 0 0 []]

/-- A module of one function. -/
def moduleOf (n : Node) : Node :=
  .mk "module" true false false true none 0 10 0 0 [n]

/-- The trees of the two files. -/
def treesOf : TreeSource := fun _ source ↦
  if source.length = 3 then moduleOf namelessFunction else moduleOf function

/-- The outline of the file that has nothing without a name. -/
def outlined : Outline where
  path := "good.py"
  symbols := [.mk .function "f" 1 1 [] none]
  language := some "Python"

theorem hasNameless_unnamed : HasNameless treesOf unnamed :=
  ⟨.python, moduleOf namelessFunction, rfl, rfl, .module, namelessFunction,
    .here List.mem_cons_self rfl, .function rfl rfl⟩

theorem outlineFile_named : (outlineFile treesOf named).2 = .ok (some outlined) := by
  have hsymbols : Python.collect named.content true [function] =
      .ok [.mk .function "f" 1 1 [] none] :=
    Python.collect_cons_ok_iff.2 ⟨[_], [],
      .function rfl rfl rfl (Python.collect_eq_nil (by decide)), Python.collect_nil, rfl⟩
  have hdialect : Dialect.of? named.path = some .python := rfl
  have hroot : soundTree treesOf (Dialect.python.grammarOf named.path) named.content =
      .ok (moduleOf function) := rfl
  rw [outlineFile_of_soundTree hdialect hroot]
  exact congrArg (Except.map _) hsymbols

/-- One file with a declaration that has no name takes another with it, which has an outline on its
own. -/
theorem outline_unnamed_named : (outline treesOf [unnamed, named]).2 = .error .unnamed ∧
    (outline treesOf [named]).2 = .ok [outlined] := by
  refine ⟨(outline_batch treesOf [unnamed, named]).1.eq_error
    ⟨unnamed, List.mem_cons_self, hasNameless_unnamed⟩, ?_⟩
  have hnamed : ∀ f ∈ [named], ¬HasNameless treesOf f := fun f hf ↦ by
    rw [List.mem_singleton.1 hf]
    exact (failsWhen_outlineFile treesOf named).not_of_ok outlineFile_named
  obtain ⟨found, halone, -, hall, -⟩ := (outline_batch treesOf [named]).2 hnamed
  have hfound : (found named).toList = [outlined] := by
    have hown := halone named List.mem_cons_self
    rw [outline_singleton, outlineFile_named] at hown
    exact (Except.ok.inj hown).symm
  rw [hall, List.filterMap_cons]
  cases hnone : found named with
  | none => simp [hnone] at hfound
  | some o => simpa [hnone] using hfound

end Unisolated

end Docwright.Outline
