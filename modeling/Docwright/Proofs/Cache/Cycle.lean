import Docwright.Proofs.Cache.Snapshot

/-!
# A cache over its reopenings

A cache is filled, written and opened again, in any order and any number of times (`run`). What it
holds is what two shelves hold (`Shelves`): the texts at hand, and the texts that were at hand when
the cache was last written. Keeping a text changes the first shelf, writing copies the first to the
second and opening copies the second back. The invariant behind this is `Kept`: opening would now
give a sound cache, and one with the texts at hand if nothing was stored since.

`cycle_keeps` draws the conclusions: opening never fails, it gives back what was written, later
steps lose nothing of that, and a cache with nothing new in it writes nothing.
-/

namespace Docwright.Cache

/-- What is done with a cache. -/
inductive Step
  /-- Keeps a text under a key. -/
  | store (key body : String) (moment : Moment)
  /-- Writes the snapshot. -/
  | persist
  /-- Opens a cache with the same snapshot in place of the one at hand. -/
  | reload

/-- Whether the step keeps a text. -/
def Step.stores : Step → Bool
  | .store .. => true
  | _ => false

/-- The step leaves the text under a key as it is at hand. -/
def Step.Spares (k : String) : Step → Prop
  | .store key .. => key ≠ k
  | .persist => True
  | .reload => False

/-- Does a step with the cache at hand, whose snapshot is at `p`. -/
def Step.apply (p : Files.Path) : Step → Cache × Files.Disk → Except Crash (Cache × Files.Disk)
  | .store key body moment, (c, d) => .ok (c.store key body moment, d)
  | .persist, (c, d) =>
    match c.persist d with
    | (.ok c, d) => .ok (c, d)
    | (.error e, _) => .error (.file e)
  | .reload, (_, d) => (openAt d p).2.map fun c ↦ (c, d)

/-- Does steps one after the other, as long as none fails. -/
def run (p : Files.Path) (steps : List Step) (state : Cache × Files.Disk) :
    Except Crash (Cache × Files.Disk) :=
  steps.foldlM (fun state step ↦ step.apply p state) state

/-! ### Shelves -/

/-- Texts by key: those at hand and those that were at hand when the cache was last written. -/
structure Shelves where
  hand : String → Option String
  written : String → Option String
  /-- Whether a text was kept since. -/
  fresh : Bool

namespace Shelves

/-- What a step does to the texts. -/
def after (sh : Shelves) : Step → Shelves
  | .store key body _ => ⟨fun k ↦ if k = key then some body else sh.hand k, sh.written, true⟩
  | .persist => ⟨sh.hand, sh.hand, false⟩
  | .reload => ⟨sh.written, sh.written, false⟩

/-- What steps do to the texts, one after the other. -/
def afterAll (sh : Shelves) (steps : List Step) : Shelves :=
  steps.foldl after sh

variable {sh : Shelves} {steps : List Step}

/-- Nothing is fresh unless the last step kept a text. -/
theorem fresh_afterAll (hfresh : sh.fresh = false)
    (hlast : ∀ step ∈ steps.getLast?, step.stores = false) : (sh.afterAll steps).fresh = false := by
  rcases List.eq_nil_or_concat steps with rfl | ⟨init, last, rfl⟩
  · exact hfresh
  · have hstores : last.stores = false := hlast last (by simp)
    rw [afterAll, List.concat_eq_append, List.foldl_append]
    cases last with
    | store key body moment => cases hstores
    | persist => rfl
    | reload => rfl

/-- **A text that is kept is at hand** as long as the steps that follow spare it. -/
theorem hand_afterAll {k body : String} (hhand : sh.hand k = some body)
    (hspared : ∀ step ∈ steps, step.Spares k) : (sh.afterAll steps).hand k = some body := by
  induction steps generalizing sh with
  | nil => exact hhand
  | cons step rest ih =>
    obtain ⟨hstep, hrest⟩ := List.forall_mem_cons.1 hspared
    cases step with
    | store key other moment => exact ih ((if_neg (Ne.symm hstep)).trans hhand) hrest
    | persist => exact ih hhand hrest
    | reload => exact hstep.elim

/-- **A text on both shelves is only replaced by another one**: if the texts under a key are among
`bodies`, and so is all that is kept under it, there is such a text afterwards. -/
theorem exists_afterAll {k : String} {bodies : String → Prop}
    (hhand : ∃ b, sh.hand k = some b ∧ bodies b)
    (hwritten : ∃ b, sh.written k = some b ∧ bodies b)
    (hsteps : ∀ b m, Step.store k b m ∈ steps → bodies b) :
    ∃ b, (sh.afterAll steps).hand k = some b ∧ bodies b := by
  induction steps generalizing sh with
  | nil => exact hhand
  | cons step rest ih =>
    have hrest : ∀ b m, Step.store k b m ∈ rest → bodies b := fun b m hmem ↦
      hsteps b m (List.mem_cons_of_mem _ hmem)
    cases step with
    | store key body moment =>
      refine ih ?_ hwritten hrest
      by_cases hk : k = key
      · rw [← hk] at hsteps
        exact ⟨body, by simp [after, hk], hsteps body moment List.mem_cons_self⟩
      · simpa [after, hk] using hhand
    | persist => exact ih hhand hhand hrest
    | reload => exact ih hwritten hwritten hrest

end Shelves

/-! ### One step -/

/-- The snapshot of the cache `c` is at `p`, and opening it would give the sound cache `s`, which
has the texts of `c` if nothing was stored since it was read or written. -/
structure Kept (p : Files.Path) (c s : Cache) (d : Files.Disk) : Prop where
  housed : d.Housed
  path : c.path = some p
  sound : c.Sound
  opens : ∃ log, openAt d p = (log, .ok s)
  sound_snapshot : s.Sound
  agrees : c.dirty = false → Alike c s

/-- The texts of a cache at hand and of the one that opening would give. -/
def shelves (c s : Cache) : Shelves :=
  ⟨c.get?, s.get?, c.dirty⟩

variable {p : Files.Path} {c c' s : Cache} {d d' : Files.Disk} {steps : List Step}

/-- A cache that has just been opened. -/
theorem kept_of_openAt {log : Log} (hhoused : d.Housed) (hopen : openAt d p = (log, .ok c))
    (hsound : c.Sound) : Kept p c c d where
  housed := hhoused
  path := (path_of_openAt hopen).1
  sound := hsound
  opens := ⟨log, hopen⟩
  sound_snapshot := hsound
  agrees _ := ⟨fun _ ↦ rfl, rfl⟩

namespace Kept

theorem store (h : Kept p c s d) (key body : String) (moment : Moment) :
    Kept p (c.store key body moment) s d :=
  { h with sound := h.sound.store key body moment, agrees := fun hclean ↦ nomatch hclean }

theorem reload (h : Kept p c s d) : Kept p s s d := by
  obtain ⟨log, hopen⟩ := h.opens
  exact kept_of_openAt h.housed hopen h.sound_snapshot

/-- **Writing and opening undo each other.** -/
theorem persist (h : Kept p c s d) (hpersist : c.persist d = (.ok c', d')) :
    c' = { c with dirty := false } ∧
      ∃ s', Kept p c' s' d' ∧ Alike c s' := by
  cases hdirty : c.dirty with
  | false =>
    rw [persist_of_clean hdirty] at hpersist
    cases hpersist
    exact ⟨by rw [← hdirty], s, h, h.agrees hdirty⟩
  | true =>
    obtain ⟨rfl, hwrite⟩ := exists_of_persist h.path hdirty hpersist
    obtain ⟨hread, hhoused⟩ := Files.Disk.readText_writeText
      (Files.Disk.housed_makeFolders h.housed p.parent) h.sound.return_not_mem hwrite
    have halike := h.sound.alike_reopened p
    have hkept : Kept p { c with dirty := false } (c.reopened p) d' :=
      { housed := hhoused
        path := h.path
        sound := ⟨h.sound.keys, h.sound.entries⟩
        opens := ⟨[], h.sound.openAt_eq hread⟩
        sound_snapshot := h.sound.reopened p
        agrees := fun _ ↦ ⟨halike.get?, halike.size⟩ }
    exact ⟨rfl, c.reopened p, hkept, halike⟩

/-- **A step does to a cache what it does to the shelves**, unless it is refused by the disk. -/
theorem apply (h : Kept p c s d) (step : Step) :
    (∃ e, step.apply p (c, d) = .error (.file e)) ∨
      ∃ c' s' d', step.apply p (c, d) = .ok (c', d') ∧ Kept p c' s' d' ∧
        shelves c' s' = (shelves c s).after step := by
  cases step with
  | store key body moment =>
    refine Or.inr ⟨_, s, d, rfl, h.store key body moment, ?_⟩
    rw [shelves, Shelves.after, funext (get?_store c key body moment)]
    rfl
  | persist =>
    rw [Step.apply]
    cases hpersist : c.persist d with
    | mk r d' =>
      cases r with
      | error e => exact Or.inl ⟨e, rfl⟩
      | ok c' =>
        obtain ⟨rfl, s', hkept, halike⟩ := h.persist hpersist
        refine Or.inr ⟨_, s', d', rfl, hkept, ?_⟩
        rw [shelves, Shelves.after, funext halike.get?]
        rfl
  | reload =>
    obtain ⟨log, hopen⟩ := h.opens
    have hclean : s.dirty = false := (path_of_openAt hopen).2
    refine Or.inr ⟨s, s, d, by rw [Step.apply, hopen]; rfl, h.reload, ?_⟩
    rw [shelves, Shelves.after, hclean]
    rfl

/-- **Steps do to a cache what they do to the shelves**, unless one is refused by the disk. -/
theorem run (h : Kept p c s d) (steps : List Step) :
    (∃ e, Cache.run p steps (c, d) = .error (.file e)) ∨
      ∃ c' s' d', Cache.run p steps (c, d) = .ok (c', d') ∧ Kept p c' s' d' ∧
        shelves c' s' = (shelves c s).afterAll steps := by
  induction steps generalizing c s d with
  | nil => exact Or.inr ⟨c, s, d, rfl, h, rfl⟩
  | cons step rest ih =>
    rw [Cache.run, List.foldlM_cons]
    rcases h.apply step with ⟨e, happly⟩ | ⟨c', s', d', happly, hkept, hshelves⟩
    · exact Or.inl ⟨e, by rw [happly]; rfl⟩
    · rw [happly, Shelves.afterAll, List.foldl_cons, ← hshelves]
      exact ih hkept

theorem run_ok (h : Kept p c s d) (hrun : Cache.run p steps (c, d) = .ok (c', d')) :
    ∃ s', Kept p c' s' d' ∧ shelves c' s' = (shelves c s).afterAll steps := by
  rcases h.run steps with ⟨e, herror⟩ | ⟨c', s', d', hok, hkept, hshelves⟩
  · cases herror.symm.trans hrun
  · cases hok.symm.trans hrun
    exact ⟨s', hkept, hshelves⟩

/-- **No text is lost after it was written**: under its key there is it or one that was kept there
since. -/
theorem exists_get? (h : Kept p c s d) (halike : Alike c s)
    (hrun : Cache.run p steps (c, d) = .ok (c', d')) {k body : String}
    (hbody : c.get? k = some body) :
    ∃ b, c'.get? k = some b ∧ (b = body ∨ ∃ m, Step.store k b m ∈ steps) := by
  obtain ⟨s', -, hshelves⟩ := h.run_ok hrun
  have hwritten : s.get? k = some body := (halike.get? k).trans hbody
  have hkept : ∃ b, ((shelves c s).afterAll steps).hand k = some b ∧
      (b = body ∨ ∃ m, Step.store k b m ∈ steps) :=
    Shelves.exists_afterAll ⟨body, hbody, Or.inl rfl⟩ ⟨body, hwritten, Or.inl rfl⟩
      fun b m hmem ↦ Or.inr ⟨m, hmem⟩
  rw [← hshelves] at hkept
  exact hkept

end Kept

/-- **What is written can be opened again, and is never lost.** A sequence of steps that starts with
a cache that has just been opened fails only when the snapshot cannot be written. Of the cache that
it leads to, this holds:

* A text that was kept is at hand, unless another one was kept there or the cache opened again.
* When the cache is written, opening gives a cache with the same texts under the same keys and as
  many entries, and whatever steps follow, every text is still found under its key unless another
  one was kept there.
* When nothing was added since it was last written or opened, it writes nothing at all. -/
theorem cycle_keeps {p : Files.Path} {d : Files.Disk} {log : Log} {opened : Cache}
    (hhoused : d.Housed) (hopen : openAt d p = (log, .ok opened)) (hsound : opened.Sound)
    (steps : List Step) :
    (∀ crash, run p steps (opened, d) = .error crash → ∃ e, crash = .file e) ∧
      ∀ c d₁, run p steps (opened, d) = .ok (c, d₁) →
        (∀ before k body m after, steps = before ++ .store k body m :: after →
          (∀ step ∈ after, step.Spares k) → c.get? k = some body) ∧
        (∀ c' d₂, c.persist d₁ = (.ok c', d₂) →
          c' = { c with dirty := false } ∧
            (∃ log s, openAt d₂ p = (log, .ok s) ∧ (∀ k, s.get? k = c.get? k) ∧ s.size = c.size) ∧
            ∀ later c₃ d₃, run p later (c', d₂) = .ok (c₃, d₃) →
              ∀ k body, c.get? k = some body →
                ∃ b, c₃.get? k = some b ∧ (b = body ∨ ∃ m, Step.store k b m ∈ later)) ∧
          ((∀ step ∈ steps.getLast?, step.stores = false) → c.persist d₁ = (.ok c, d₁)) := by
  have hstart := kept_of_openAt hhoused hopen hsound
  refine ⟨fun crash hrun ↦ ?_, fun c d₁ hrun ↦ ⟨?_, fun c' d₂ hpersist ↦ ?_, fun hlast ↦ ?_⟩⟩
  · rcases hstart.run steps with ⟨e, herror⟩ | ⟨c', s', d', hok, -⟩
    · rw [herror] at hrun
      exact ⟨e, (Except.error.inj hrun).symm⟩
    · cases hok.symm.trans hrun
  · intro before k body m after hsteps hspared
    obtain ⟨s, -, hshelves⟩ := hstart.run_ok hrun
    have hhand : c.get? = ((shelves opened opened).afterAll steps).hand :=
      congrArg Shelves.hand hshelves
    rw [hhand, hsteps, Shelves.afterAll, List.foldl_append, List.foldl_cons]
    exact Shelves.hand_afterAll (if_pos rfl) hspared
  · obtain ⟨s, hkept, -⟩ := hstart.run_ok hrun
    obtain ⟨rfl, s', hkept', halike⟩ := hkept.persist hpersist
    obtain ⟨log, hopen'⟩ := hkept'.opens
    refine ⟨rfl, ⟨log, s', hopen', halike.get?, halike.size⟩, ?_⟩
    intro later c₃ d₃ hlater k body hbody
    exact hkept'.exists_get? ⟨halike.get?, halike.size⟩ hlater hbody
  · obtain ⟨s, -, hshelves⟩ := hstart.run_ok hrun
    have hdirty : c.dirty = ((shelves opened opened).afterAll steps).fresh :=
      congrArg Shelves.fresh hshelves
    refine persist_of_clean (hdirty.trans ?_) d₁
    exact Shelves.fresh_afterAll (path_of_openAt hopen).2 hlast

/-- A disk with nothing on it. -/
def bareDisk : Files.Disk := { tree := .emptyFolder, here := [] }

/-- A place for a snapshot in the working folder. -/
def barePath : Files.Path := ⟨false, ["cache.json"]⟩

/-- A text with all that is hard to write: quotes, backslashes, both characters of a line ending, a
control character and one beyond the basic plane. -/
def oddText : String := "\"\\\r\n\x01\u2028😀"

theorem locate_barePath : bareDisk.locate true barePath = .ok ["cache.json"] := by
  have hget : bareDisk.tree.get? (bareDisk.here ++ ["cache.json"]) = none := rfl
  exact Files.Disk.locate_name (by decide) (by decide) (by simp [hget]) true

theorem openAt_bareDisk : openAt bareDisk barePath = ([], .ok { path := some barePath }) := by
  have hread : bareDisk.readText barePath = .error (.file ⟨.missing, barePath.text⟩) := by
    rw [Files.Disk.readText, Files.Disk.read, Files.Disk.entry, locate_barePath]
    rfl
  rw [openAt, hread]
  rfl

theorem makeFolders_bareDisk : bareDisk.makeFolders barePath.parent = (.ok (), bareDisk) := by
  have hlocate (follow : Bool) : bareDisk.locate follow ⟨false, []⟩ = .ok [] := by
    rw [Files.Disk.locate, if_neg (by decide +kernel)]
    show Files.Disk.walk bareDisk.tree follow _ [] [] = _
    rw [Files.Disk.walk]
  have hmake : bareDisk.makeFolder ⟨false, []⟩ = .error ⟨.taken, "."⟩ := by
    rw [Files.Disk.makeFolder, hlocate]
    rfl
  have hfolder : bareDisk.isFolder ⟨false, []⟩ = true := by
    rw [Files.Disk.isFolder, Files.Disk.entry, hlocate]
    rfl
  show bareDisk.ensureFolder ⟨false, []⟩ = _
  simp only [Files.Disk.ensureFolder, hmake, hfolder, if_true]

theorem exists_persist_bareDisk {c : Cache} (hpath : c.path = some barePath)
    (hdirty : c.dirty = true) : ∃ d, c.persist bareDisk = (.ok { c with dirty := false }, d) := by
  have hwrite (text : String) : bareDisk.writeText barePath text = .ok { bareDisk with
      tree := bareDisk.tree.put ["cache.json"] (.file (Text.Utf8.ofString text)) } := by
    rw [Files.Disk.writeText, Files.Disk.write, locate_barePath]
    rfl
  rw [persist, hpath, hdirty]
  simp only [makeFolders_bareDisk, hwrite]
  exact ⟨_, rfl⟩

/-- A text with all that is hard to write is there after the cache is opened again, and what was
written is not written twice. -/
theorem cycle_keeps_oddText :
    bareDisk.Housed ∧ openAt bareDisk barePath = ([], .ok { path := some barePath }) ∧
    ({ path := some barePath } : Cache).Sound ∧
    ∃ c d log s,
      run barePath [.store "key" oddText ⟨0⟩, .persist] ({ path := some barePath }, bareDisk)
        = .ok (c, d) ∧
      openAt d barePath = (log, .ok s) ∧ s.get? "key" = some oddText ∧ s.size = 1 ∧
      c.persist d = (.ok c, d) := by
  have hhoused : bareDisk.Housed := rfl
  have hsound : ({ path := some barePath } : Cache).Sound := sound_of_nil rfl
  let stored := ({ path := some barePath } : Cache).store "key" oddText ⟨0⟩
  obtain ⟨d, hpersist⟩ := exists_persist_bareDisk (c := stored) rfl rfl
  have hrun : run barePath [.store "key" oddText ⟨0⟩, .persist]
      ({ path := some barePath }, bareDisk) = .ok ({ stored with dirty := false }, d) := by
    show (Step.apply barePath .persist (stored, bareDisk)).bind pure = _
    rw [Step.apply, hpersist]
    rfl
  obtain ⟨-, hstored⟩ := cycle_keeps hhoused openAt_bareDisk hsound [.store "key" oddText ⟨0⟩]
  obtain ⟨hkept, hwritten, -⟩ := hstored stored bareDisk rfl
  obtain ⟨-, ⟨log, s, hopen, hget, hsize⟩, -⟩ := hwritten _ d hpersist
  obtain ⟨-, hend⟩ := cycle_keeps hhoused openAt_bareDisk hsound
    [.store "key" oddText ⟨0⟩, .persist]
  obtain ⟨-, -, hagain⟩ := hend _ d hrun
  have hodd : stored.get? "key" = some oddText :=
    hkept [] "key" oddText ⟨0⟩ [] rfl fun step hstep ↦ absurd hstep List.not_mem_nil
  exact ⟨hhoused, openAt_bareDisk, hsound, _, d, log, s, hrun, hopen, (hget "key").trans hodd,
    hsize, hagain (by decide)⟩

end Docwright.Cache
