import Docwright.Proofs.Files.Disk

/-!
# A tree of files on the disk

`Disk.Carries` says that a folder without links stands where a path leads. From there on the disk
can be forgotten: finding, writing and making folders below that path are looking up and placing in
the tree (`Carries.find?_along`, `Carries.write_along`, `Carries.makeFolders_along`), and the tree
that comes out is carried again (`Carries.replaced`).

What the disk has to say about it is fixed with the `Ground`: which names are too long and which
places are refused. What the tree has to say is whether a folder is in the way.
-/

namespace Docwright.Files

/-- What a new member of a plain folder replaces is no folder, so folders are kept. -/
theorem Entry.keeps_put {e : Entry} (h : e.Plain) {ns : List String} (hne : ns ≠ [])
    (hparent : e.folderAt ns.dropLast = true) (hfolder : e.folderAt ns = false) (new : Entry) :
    e.Keeps (e.put ns new) := by
  -- there is a file where the new member goes, if anything, so no folder is lost with it
  have hbelow : ∀ k s, e.get? (ns ++ k) = some s → ∃ bytes, s = .file bytes := by
    intro k s hs
    rw [get?_append] at hs
    obtain ⟨old, hold, hk⟩ := Option.bind_eq_some_iff.1 hs
    cases h.get? hold with
    | file bytes =>
      cases k with
      | nil => exact ⟨bytes, (Option.some.inj hk).symm⟩
      | cons name rest => cases hk
    | folder =>
      rw [folderAt_iff.2 ⟨_, hold⟩] at hfolder
      cases hfolder
  refine ⟨fun {q ms} hq ↦ ?_, fun {q target} hq ↦ ?_⟩
  · rcases get?_put_cases hne hparent new q with ⟨k, rfl, -⟩ | ⟨-, hnew⟩ | ⟨hsame, -⟩
    · obtain ⟨bytes, hbytes⟩ := hbelow k _ hq
      cases hbytes
    · exact folderAt_iff.1 hnew
    · exact ⟨ms, hsame.trans hq⟩
  · cases h.get? hq

/-- Where a tree of files stands: the path, the place that it leads to, and what changes the disk
refuses. -/
structure Ground where
  path : Path
  place : List String
  refuses : List String → Option Trouble

namespace Ground

/-- Whether no name and no path is too long. -/
def fits (g : Ground) (ns : List String) : Bool :=
  decide ((g.path.along ns).text.utf8ByteSize ≤ Disk.pathLimit) &&
    ns.all fun n ↦ decide (n.utf8ByteSize ≤ Disk.nameLimit)

/-- Whether the disk allows changes where the names lead. -/
def allows (g : Ground) (ns : List String) : Bool :=
  (g.refuses (g.place ++ ns)).isNone

/-- Whether a file may be written where the names lead. -/
def grants (g : Ground) (site : Entry) (ns : List String) : Bool :=
  g.fits ns && g.allows ns && !site.folderAt ns

theorem fits_of_grants {g : Ground} {site : Entry} {ns : List String}
    (h : g.grants site ns = true) : g.fits ns = true := by
  simp only [grants, Bool.and_eq_true] at h
  exact h.1.1

/-- Whether a folder of the given name is there or may be made. -/
def opens (g : Ground) (site : Entry) (name : String) : Bool :=
  g.fits [name] && (site.folderAt [name] || (site.get? [name]).isNone && g.allows [name])

/-- The tree after a file is written, if it may be. -/
def write (g : Ground) (site : Entry) (ns : List String) (bytes : List UInt8) : Entry :=
  if g.grants site ns then site.put ns (.file bytes) else site

/-- The tree with a folder of the given name, if it may be made. -/
def make (g : Ground) (site : Entry) (name : String) : Entry :=
  if g.opens site name && (site.get? [name]).isNone then site.put [name] .emptyFolder else site

end Ground

namespace Disk

/-- The disk on which the path of the ground leads to a folder without links. -/
structure Carries (d : Disk) (g : Ground) (site : Entry) : Prop where
  refuses : d.refuses = g.refuses
  locate : d.locate true g.path = .ok g.place
  get? : d.tree.get? g.place = some site
  folder : site.isFolder = true
  plain : site.Plain

/-- The disk with another tree on the ground. -/
def replaced (d : Disk) (g : Ground) (site : Entry) : Disk :=
  { d with tree := d.tree.put g.place site }

variable {d : Disk} {g : Ground} {site : Entry} {ns : List String}

theorem carries_of_members {ms : List (String × Entry)} {p : Path} (h : d.members p = .ok ms)
    (hplain : (Entry.folder ms).Plain) :
    ∃ g : Ground, g.path = p ∧ d.Carries g (.folder ms) := by
  cases hplace : d.locate true p with
  | error trouble =>
    rw [Disk.members, entry, hplace] at h
    cases h
  | ok place =>
    refine ⟨⟨p, place, d.refuses⟩, rfl, rfl, hplace, ?_, rfl, hplain⟩
    rw [Disk.members, entry, hplace] at h
    simp only at h
    cases hget : d.tree.get? place with
    | none => simp [hget] at h
    | some e => cases e <;> simp_all

/-- A disk without links carries its whole tree. -/
theorem carries_root (hplain : d.tree.Plain) (hfolder : d.tree.isFolder = true) :
    d.Carries ⟨⟨true, []⟩, [], d.refuses⟩ d.tree := by
  have hfits : ¬pathLimit < (⟨true, []⟩ : Path).text.utf8ByteSize := by decide +kernel
  refine ⟨rfl, ?_, Entry.get?_nil _, hfolder, hplain⟩
  rw [locate, if_neg hfits, walk, startOf, if_pos rfl]

namespace Carries

theorem replaced_self (h : d.Carries g site) : d.replaced g site = d := by
  rw [replaced, Entry.put_of_get? h.get?]

theorem replaced_replaced (h : d.Carries g site) (a b : Entry) :
    (d.replaced g a).replaced g b = d.replaced g b := by
  rw [replaced, replaced, Entry.put_put h.get?, replaced]

theorem members (h : d.Carries g site) {ms : List (String × Entry)} (hms : site = .folder ms) :
    d.members g.path = .ok ms := by
  rw [Disk.members, entry, h.locate]
  simp only [h.get?, hms]

theorem find?_self (h : d.Carries g site) : d.find? g.path = .ok (some site) := by
  rw [find?, entry, h.locate]
  simp only [h.get?]

/-- **Another tree is carried just as well**, if it keeps the folders. -/
theorem replaced (h : d.Carries g site) {site' : Entry} (hkeeps : site.Keeps site')
    (hfolder : site'.isFolder = true) (hplain : site'.Plain) :
    (d.replaced g site').Carries g site' := by
  refine ⟨h.refuses, ?_, Entry.get?_put_self h.get? _, hfolder, hplain⟩
  obtain ⟨ms, hms⟩ := Entry.isFolder_iff.1 h.folder
  have hlocate := h.locate
  unfold Disk.locate at hlocate ⊢
  split at hlocate
  · cases hlocate
  · rename_i hfits
    -- the walk to the ground passes what `site'` keeps, so it leads to the same place
    obtain ⟨b', hpass⟩ := exists_passes hlocate (h.get?.trans (by rw [hms]))
    rw [if_neg hfits, ← List.append_nil g.path.parts]
    refine ((hpass.keeps (hkeeps.put h.get?)).walk_append (Or.inl rfl)).trans ?_
    rw [walk]

/-- Where names lead that stand below the ground. -/
theorem locate_along (h : d.Carries g site) (hne : ns ≠ []) (hdots : ".." ∉ ns)
    (hparent : site.folderAt ns.dropLast = true) (follow : Bool) :
    d.locate follow (g.path.along ns)
      = if g.fits ns then .ok (g.place ++ ns) else .error .nameTooLong := by
  obtain ⟨ms, hms⟩ := Entry.isFolder_iff.1 h.folder
  obtain ⟨ms', hms'⟩ := Entry.folderAt_iff.1 hparent
  have hlocate := h.locate
  unfold Disk.locate at hlocate ⊢
  split at hlocate
  · cases hlocate
  · obtain ⟨b', hpass⟩ := exists_passes hlocate (h.get?.trans (by rw [hms]))
    have hwalk : walk d.tree follow linkLimit (startOf d.here g.path) (g.path.parts ++ ns)
        = walk d.tree follow b' g.place ns := hpass.walk_append (Or.inr hne)
    rw [walk_below h.get? h.plain hne hdots ⟨ms', hms'⟩] at hwalk
    by_cases htext : pathLimit < (g.path.along ns).text.utf8ByteSize
    · have hfits : g.fits ns = false := by
        rw [Ground.fits, decide_eq_false (by omega), Bool.false_and]
      rw [if_pos htext, hfits]
      rfl
    · have hfits : g.fits ns = ns.all fun n ↦ decide (n.utf8ByteSize ≤ nameLimit) := by
        rw [Ground.fits, decide_eq_true (by omega), Bool.true_and]
      rw [if_neg htext, hfits]
      exact hwalk

theorem find?_along (h : d.Carries g site) (hne : ns ≠ []) (hdots : ".." ∉ ns)
    (hparent : site.folderAt ns.dropLast = true) :
    d.find? (g.path.along ns)
      = if g.fits ns then .ok (site.get? ns)
        else .error ⟨.nameTooLong, (g.path.along ns).text⟩ := by
  have hget := Entry.get?_append_of_get? h.get? ns
  rw [find?, entry, h.locate_along hne hdots hparent]
  by_cases hfits : g.fits ns = true
  · simp only [hfits, if_true, hget]
    cases site.get? ns with
    | none => rfl
    | some e => rfl
  · simp only [hfits]
    rfl

theorem read_along (h : d.Carries g site) (hne : ns ≠ []) (hdots : ".." ∉ ns)
    (hfits : g.fits ns = true) {bytes : List UInt8} (hfile : site.get? ns = some (.file bytes)) :
    d.read (g.path.along ns) = .ok bytes := by
  have hget := Entry.get?_append_of_get? h.get? ns
  rw [read, entry, h.locate_along hne hdots (Entry.folderAt_dropLast hne hfile), if_pos hfits]
  simp only [hget, hfile]

/-- What is read is what stands there. -/
theorem read_eq (h : d.Carries g site) (hne : ns ≠ []) (hdots : ".." ∉ ns)
    {bytes content : List UInt8} (hfile : site.get? ns = some (.file bytes))
    (hread : d.read (g.path.along ns) = .ok content) : content = bytes := by
  by_cases hfits : g.fits ns = true
  · exact Except.ok.inj (hread.symm.trans (h.read_along hne hdots hfits hfile))
  · rw [read, entry, h.locate_along hne hdots (Entry.folderAt_dropLast hne hfile),
      if_neg hfits] at hread
    cases hread

/-- **A write succeeds exactly where it is granted.** -/
theorem write_along (h : d.Carries g site) (hne : ns ≠ []) (hdots : ".." ∉ ns)
    (hparent : site.folderAt ns.dropLast = true) (bytes : List UInt8) :
    (g.grants site ns = true ∧
      d.write (g.path.along ns) bytes = .ok (d.replaced g (site.put ns (.file bytes)))) ∨
    (g.grants site ns = false ∧ ∃ e, d.write (g.path.along ns) bytes = .error e) := by
  have hget := Entry.get?_append_of_get? h.get? ns
  obtain ⟨ms, hms⟩ := Entry.folderAt_iff.1 hparent
  rw [write, h.locate_along hne hdots hparent, h.refuses]
  cases hfits : g.fits ns with
  | false => exact Or.inr ⟨by simp [Ground.grants, hfits], _, rfl⟩
  | true =>
    cases hfolder : site.folderAt ns with
    | true =>
      obtain ⟨ms', hms'⟩ := Entry.folderAt_iff.1 hfolder
      refine Or.inr ⟨by simp [Ground.grants, hfolder], ⟨.isFolder, (g.path.along ns).text⟩, ?_⟩
      simp only [if_true, hget, hms']
    | false =>
      simp only [if_true, hget]
      split
      · rename_i ms' hms'
        rw [Entry.folderAt_iff.2 ⟨ms', hms'⟩] at hfolder
        cases hfolder
      · cases hrefuses : g.refuses (g.place ++ ns) with
        | some trouble => exact Or.inr ⟨by simp [Ground.grants, Ground.allows, hrefuses], _, rfl⟩
        | none =>
          refine Or.inl ⟨by simp [Ground.grants, Ground.allows, hrefuses, hfits, hfolder], ?_⟩
          rw [Disk.replaced, Entry.put_append h.get?, h.refuses]

/-- The tree after a write is carried. -/
theorem replaced_write (h : d.Carries g site) (hne : ns ≠ []) (hdots : ".." ∉ ns)
    (hparent : site.folderAt ns.dropLast = true) (bytes : List UInt8) :
    (d.replaced g (g.write site ns bytes)).Carries g (g.write site ns bytes) := by
  unfold Ground.write
  split
  · rename_i hgrants
    have hfolder : site.folderAt ns = false := by
      simp only [Ground.grants, Bool.and_eq_true, Bool.not_eq_true'] at hgrants
      exact hgrants.2
    exact h.replaced (Entry.keeps_put h.plain hne hparent hfolder _)
      (Entry.isFolder_put h.folder hne) (h.plain.put (.file bytes) hdots)
  · rw [h.replaced_self]
    exact h

/-- Making the folder that is there changes nothing. -/
theorem makeFolders_self (h : d.Carries g site) : d.makeFolders g.path = (.ok (), d) := by
  obtain ⟨ms, hms⟩ := Entry.isFolder_iff.1 h.folder
  have hthere : d.isFolder g.path = true := by
    rw [isFolder, entry, h.locate]
    simp only [h.get?, h.folder]
  -- the last name may be a link to the folder; then the link is what is in the way
  have htaken : d.makeFolder g.path = .error ⟨.taken, g.path.text⟩ := by
    have hlocate := h.locate
    unfold Disk.locate at hlocate
    split at hlocate
    · cases hlocate
    · rename_i hfits
      obtain ⟨b', hpass⟩ := exists_passes hlocate (h.get?.trans (by rw [hms]))
      obtain ⟨place, e, hwalk, hget⟩ := hpass.exists_walk_false h.get?
      rw [makeFolder, Disk.locate, if_neg hfits, hwalk]
      simp only [hget]
  have hpath : (⟨g.path.absolute, g.path.parts.reverse.reverse⟩ : Path) = g.path := by
    rw [List.reverse_reverse]
  rw [makeFolders]
  cases hparts : g.path.parts.reverse with
  | nil =>
    rw [hparts] at hpath
    rw [makeFoldersTo, ensureFolder, show (⟨g.path.absolute, []⟩ : Path) = g.path from hpath,
      htaken]
    simp only [hthere, if_true]
  | cons name rest =>
    rw [hparts] at hpath
    rw [makeFoldersTo, hpath, htaken]
    simp only [hthere, if_true]
    rfl

theorem isFolder_along (h : d.Carries g site) (hne : ns ≠ []) (hdots : ".." ∉ ns)
    (hparent : site.folderAt ns.dropLast = true) :
    d.isFolder (g.path.along ns) = (g.fits ns && site.folderAt ns) := by
  have hget := Entry.get?_append_of_get? h.get? ns
  rw [isFolder, entry, h.locate_along hne hdots hparent, Entry.folderAt]
  cases g.fits ns with
  | false => rfl
  | true =>
    simp only [if_true, hget, Bool.true_and]
    cases site.get? ns <;> rfl

/-- A folder is made where there is nothing and the disk allows it. -/
theorem makeFolder_along (h : d.Carries g site) (hne : ns ≠ []) (hdots : ".." ∉ ns)
    (hparent : site.folderAt ns.dropLast = true) :
    ((g.fits ns && (site.get? ns).isNone && g.allows ns) = true ∧
      d.makeFolder (g.path.along ns) = .ok (d.replaced g (site.put ns .emptyFolder))) ∨
    ((g.fits ns && (site.get? ns).isNone && g.allows ns) = false ∧
      ∃ e, d.makeFolder (g.path.along ns) = .error e) := by
  have hget := Entry.get?_append_of_get? h.get? ns
  rw [makeFolder, h.locate_along hne hdots hparent, h.refuses]
  cases hfits : g.fits ns with
  | false => exact Or.inr ⟨rfl, _, rfl⟩
  | true =>
    simp only [if_true, hget]
    cases hsite : site.get? ns with
    | some e => exact Or.inr ⟨rfl, _, rfl⟩
    | none =>
      obtain ⟨s, hs⟩ := Entry.folderAt_iff.1 hparent
      rw [Ground.allows]
      cases hrefuses : g.refuses (g.place ++ ns) with
      | some trouble => exact Or.inr ⟨rfl, _, rfl⟩
      | none =>
        refine Or.inl ⟨rfl, ?_⟩
        rw [Disk.replaced, Entry.put_append h.get?, h.refuses]

theorem makeFolders_along_eq (g : Ground) (d : Disk) (name : String) :
    d.makeFolders (g.path.along [name])
      = match d.makeFolder (g.path.along [name]) with
        | .ok d => (.ok (), d)
        | .error e =>
          if e.trouble == .missing then
            match d.makeFolders g.path with
            | (.error e, d) => (.error e, d)
            | (.ok (), d) => d.ensureFolder (g.path.along [name])
          else (if d.isFolder (g.path.along [name]) then .ok () else .error e, d) := by
  have hpath : (⟨(g.path.along [name]).absolute, (name :: g.path.parts.reverse).reverse⟩ : Path)
      = g.path.along [name] := by
    rw [List.reverse_cons, List.reverse_reverse, Path.along]
  have hparts : (g.path.along [name]).parts.reverse = name :: g.path.parts.reverse := by
    rw [Path.along, List.reverse_append]
    rfl
  rw [makeFolders, hparts, makeFoldersTo, hpath]
  rfl

/-- Whatever the trouble is with making a folder, all that counts in the end is whether there is
one. -/
theorem makeFolders_along_of_error (h : d.Carries g site) {name : String} {e : FileError}
    (herror : d.makeFolder (g.path.along [name]) = .error e) :
    d.makeFolders (g.path.along [name])
      = (if d.isFolder (g.path.along [name]) then .ok () else .error e, d) := by
  rw [makeFolders_along_eq, herror]
  simp only [h.makeFolders_self, ensureFolder, herror, ite_self]

/-- **A folder is there afterwards exactly if it opens.** -/
theorem makeFolders_along (h : d.Carries g site) {name : String} (hdots : name ≠ "..") :
    (g.opens site name = true ∧
      d.makeFolders (g.path.along [name]) = (.ok (), d.replaced g (g.make site name))) ∨
    (g.opens site name = false ∧ ∃ e, d.makeFolders (g.path.along [name]) = (.error e, d)) := by
  have hparent : site.folderAt [name].dropLast = true := by
    simpa [Entry.folderAt] using h.folder
  have hnames : ".." ∉ [name] := by simpa using hdots.symm
  rcases h.makeFolder_along (by simp) hnames hparent with ⟨hcan, hok⟩ | ⟨hcannot, e, herror⟩
  · simp only [Bool.and_eq_true] at hcan
    refine Or.inl ⟨by simp [Ground.opens, hcan], ?_⟩
    rw [makeFolders_along_eq, hok, Ground.make, if_pos (by simp [Ground.opens, hcan])]
  · rw [h.makeFolders_along_of_error herror, h.isFolder_along (by simp) hnames hparent]
    cases hopens : g.opens site name with
    | false =>
      refine Or.inr ⟨rfl, e, ?_⟩
      rw [if_neg]
      rintro hthere
      simp only [Bool.and_eq_true] at hthere
      simp [Ground.opens, hthere] at hopens
    | true =>
      refine Or.inl ⟨rfl, ?_⟩
      simp only [Ground.opens, Bool.and_eq_true, Bool.or_eq_true] at hopens
      obtain ⟨hfits, hfolder | ⟨hnone, hallows⟩⟩ := hopens
      · obtain ⟨ms, hms⟩ := Entry.folderAt_iff.1 hfolder
        rw [if_pos (by simp [hfits, hfolder]), Ground.make, if_neg (by simp [hms]), h.replaced_self]
      · rw [hfits, hnone, hallows] at hcannot
        cases hcannot

/-- The tree with a folder that was made is carried. -/
theorem replaced_make (h : d.Carries g site) {name : String} (hdots : name ≠ "..") :
    (d.replaced g (g.make site name)).Carries g (g.make site name) := by
  unfold Ground.make
  split
  · rename_i hmake
    have hnone : site.get? [name] = none := by
      simp only [Bool.and_eq_true, Option.isNone_iff_eq_none] at hmake
      exact hmake.2
    refine h.replaced (Entry.keeps_put h.plain (by simp) ?_ ?_ _)
      (Entry.isFolder_put h.folder (by simp))
      (h.plain.put Entry.plain_emptyFolder (by simpa using hdots.symm))
    · simpa [Entry.folderAt] using h.folder
    · simp [Entry.folderAt, hnone]
  · rw [h.replaced_self]
    exact h

end Carries

end Disk

end Docwright.Files
