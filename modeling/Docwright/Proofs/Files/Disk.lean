import Docwright.Files.Disk
import Docwright.Proofs.Files.Entry

/-!
# Walks that end in a folder

A path may lead through links, through parents, and even through the folder it ends in. So changing
the tree below that folder could change where the path leads. It does not, because a walk that ends
in a folder only passes folders and links (`Disk.exists_passes`), and a walk of that kind is the
same in every tree that keeps both (`Passes.keeps`).

Below a folder without links there is no more to it: names lead where they say (`Disk.walk_below`).

Making a folder with all folders on the way is a row of attempts to make one, so what every folder
that is made keeps is kept by all of it (`Disk.makeFolders_induction`).
-/

namespace Docwright.Files

/-- The place that names lead to from a path. -/
def Path.along (p : Path) (ns : List String) : Path :=
  ⟨p.absolute, p.parts ++ ns⟩

theorem Path.child_eq_along (p : Path) (a : String) : p.child a = p.along [a] := rfl

theorem Path.child_child_eq_along (p : Path) (a b : String) :
    (p.child a).child b = p.along [a, b] := by
  simp [Path.child, Path.along]

/-- Folders stay folders and links stay as they are. -/
structure Entry.Keeps (t t' : Entry) : Prop where
  folder : ∀ {q ms}, t.get? q = some (.folder ms) → ∃ ms', t'.get? q = some (.folder ms')
  link : ∀ {q target}, t.get? q = some (.link target) → t'.get? q = some (.link target)

namespace Entry

/-- What is kept below a place is kept in the whole tree. -/
theorem Keeps.put {t s s' : Entry} {p : List String} (hs : t.get? p = some s) (h : s.Keeps s') :
    t.Keeps (t.put p s') := by
  induction p generalizing t with
  | nil =>
    rw [get?_nil, Option.some.injEq] at hs
    simpa [hs] using h
  | cons name rest ih =>
    obtain ⟨members, inner, rfl, hinner, hrest⟩ := exists_of_get?_cons hs
    have hbelow := ih hrest
    rw [put_folder_cons, hinner, Option.getD_some]
    -- beside the first name the trees agree, behind it the induction takes over
    refine ⟨fun {q ms} hq ↦ ?_, fun {q target} hq ↦ ?_⟩
    · cases q with
      | nil => exact ⟨_, rfl⟩
      | cons other k =>
        rw [get?_folder_cons] at hq ⊢
        rw [lookup_setMember]
        split
        · rename_i hname
          rw [hname, hinner, Option.bind_some] at hq
          exact hbelow.folder hq
        · exact ⟨_, hq⟩
    · cases q with
      | nil => cases hq
      | cons other k =>
        rw [get?_folder_cons] at hq ⊢
        rw [lookup_setMember]
        split
        · rename_i hname
          rw [hname, hinner, Option.bind_some] at hq
          exact hbelow.link hq
        · exact hq

end Entry

namespace Disk

/-! ### Walks -/

/-- The walk along names that passes folders and links only, all links followed, with the number of
links that may be followed before and after it. -/
inductive Passes (t : Entry) : Nat → List String → List String → List String → Nat → Prop
  | stop {b done} : Passes t b done [] done b
  | up {b done rest r b'} (h : Passes t b done.dropLast rest r b') :
      Passes t b done (".." :: rest) r b'
  | enter {b done name rest r b' ms} (hname : name ≠ "..") (hsize : name.utf8ByteSize ≤ nameLimit)
      (hget : t.get? (done ++ [name]) = some (.folder ms))
      (h : Passes t b (done ++ [name]) rest r b') :
      Passes t b done (name :: rest) r b'
  | follow {b done name rest r b' target} (hname : name ≠ "..")
      (hsize : name.utf8ByteSize ≤ nameLimit)
      (hget : t.get? (done ++ [name]) = some (.link target))
      (h : Passes t b (startOf done (Path.ofString target))
        ((Path.ofString target).parts ++ rest) r b') :
      Passes t (b + 1) done (name :: rest) r b'

variable {t t' : Entry} {b b' : Nat} {done todo r : List String} {follow : Bool}

/-- **A walk that ends in a folder passes folders and links only.** -/
theorem exists_passes {ms : List (String × Entry)} (h : walk t true b done todo = .ok r)
    (hr : t.get? r = some (.folder ms)) : ∃ b', Passes t b done todo r b' := by
  -- the cases in which the walk fails, or ends where nothing or a file is, contradict `h` or `hr`
  fun_induction walk t true b done todo with
  | case1 b done =>
    cases h
    exact ⟨b, .stop⟩
  | case2 b done name rest hname ih =>
    obtain ⟨b', hpass⟩ := ih h
    rw [beq_iff_eq.1 hname]
    exact ⟨b', .up hpass⟩
  | case3 => cases h
  | case4 b done name rest _ _ place hget =>
    rw [← Except.ok.inj h, hget] at hr
    cases hr
  | case5 => cases h
  | case6 b done name rest hname hsize place members hget ih =>
    obtain ⟨b', hpass⟩ := ih h
    exact ⟨b', .enter (by simpa using hname) (by omega) hget hpass⟩
  | case7 b done name rest _ _ place bytes hget =>
    rw [← Except.ok.inj h, hget] at hr
    cases hr
  | case8 => cases h
  | case9 b done name rest _ _ place target hget hlast => simp at hlast
  | case10 => cases h
  | case11 done name rest hname hsize place target hget _ b target' ih =>
    obtain ⟨b', hpass⟩ := ih h
    exact ⟨b', .follow (by simpa using hname) (by omega) hget hpass⟩

theorem Passes.keeps (hk : t.Keeps t') (h : Passes t b done todo r b') :
    Passes t' b done todo r b' := by
  induction h with
  | stop => exact .stop
  | up _ ih => exact .up ih
  | enter hname hsize hget _ ih =>
    obtain ⟨ms, hms⟩ := hk.folder hget
    exact .enter hname hsize hms ih
  | follow hname hsize hget _ ih => exact .follow hname hsize (hk.link hget) ih

/-- **What comes after is walked from the end of such a walk.** -/
theorem Passes.walk_append (h : Passes t b done todo r b') {rest : List String}
    (hlast : follow = true ∨ rest ≠ []) :
    walk t follow b done (todo ++ rest) = walk t follow b' r rest := by
  induction h with
  | stop => rfl
  | up _ ih => rw [List.cons_append, walk, if_pos (by simp), ih]
  | enter hname hsize hget _ ih =>
    rw [List.cons_append, walk, if_neg (by simpa using hname), if_neg (by omega)]
    simp only [hget]
    exact ih
  | @follow _ _ name todo _ _ _ hname hsize hget _ ih =>
    -- the link is not the last name any more, or is followed anyway
    have hgo : ((todo ++ rest).isEmpty && !follow) = false := by
      rcases hlast with rfl | hne
      · simp
      · simp [hne]
    rw [List.cons_append, walk, if_neg (by simpa using hname), if_neg (by omega)]
    simp only [hget, hgo, Bool.false_eq_true, if_false]
    rw [← List.append_assoc]
    exact ih

/-- Without following a last link, such a walk still ends at something. -/
theorem Passes.exists_walk_false {e : Entry} (h : Passes t b done todo r b')
    (hr : t.get? r = some e) :
    ∃ place e', walk t false b done todo = .ok place ∧ t.get? place = some e' := by
  induction h with
  | stop => exact ⟨_, e, by rw [walk], hr⟩
  | up _ ih =>
    obtain ⟨place, e', hwalk, hget⟩ := ih hr
    exact ⟨place, e', by rw [walk, if_pos (by simp), hwalk], hget⟩
  | enter hname hsize hfolder _ ih =>
    obtain ⟨place, e', hwalk, hget⟩ := ih hr
    refine ⟨place, e', ?_, hget⟩
    rw [walk, if_neg (by simpa using hname), if_neg (by omega)]
    simp only [hfolder]
    exact hwalk
  | @follow _ done name rest _ _ _ hname hsize hlink _ ih =>
    obtain ⟨place, e', hwalk, hget⟩ := ih hr
    cases rest with
    | nil =>
      -- a link at the very end is what the walk ends at
      refine ⟨done ++ [name], _, ?_, hlink⟩
      rw [walk, if_neg (by simpa using hname), if_neg (by omega)]
      simp only [hlink, List.isEmpty_nil, Bool.not_false, Bool.and_self, if_true]
    | cons next rest =>
      refine ⟨place, e', ?_, hget⟩
      rw [walk, if_neg (by simpa using hname), if_neg (by omega)]
      simp only [hlink, List.isEmpty_cons, Bool.false_and, Bool.false_eq_true, if_false]
      exact hwalk

/-- Names that lead to a place below a tree without links, whose folder is there, lead there unless
one of them is too long. -/
theorem walk_below {site : Entry} {place ns : List String} (hsite : t.get? place = some site)
    (hplain : site.Plain) (hne : ns ≠ []) (hdots : ".." ∉ ns)
    (hparent : ∃ ms, site.get? ns.dropLast = some (.folder ms)) :
    walk t follow b place ns
      = if ns.all fun n ↦ decide (n.utf8ByteSize ≤ nameLimit) then .ok (place ++ ns)
        else .error .nameTooLong := by
  induction ns generalizing place site with
  | nil => exact absurd rfl hne
  | cons name rest ih =>
    have hname : ¬(name == "..") = true := fun h ↦
      hdots (beq_iff_eq.1 h ▸ List.mem_cons_self)
    have hrest : ".." ∉ rest := fun h ↦ hdots (List.mem_cons_of_mem _ h)
    have hget : t.get? (place ++ [name]) = site.get? [name] :=
      Entry.get?_append_of_get? hsite [name]
    rw [walk, if_neg hname]
    by_cases hsize : nameLimit < name.utf8ByteSize
    · have hall : ¬((name :: rest).all fun n ↦ decide (n.utf8ByteSize ≤ nameLimit)) = true :=
        fun hall ↦ Nat.not_le.2 hsize (of_decide_eq_true (List.all_eq_true.1 hall _ (by simp)))
      rw [if_pos hsize, if_neg hall]
    rw [if_neg hsize]
    -- the last name needs its folder only, any other one has to be a folder itself
    cases rest with
    | nil =>
      have hall : ([name].all fun n ↦ decide (n.utf8ByteSize ≤ nameLimit)) = true := by
        simp
        omega
      rw [if_pos hall]
      simp only [hget]
      cases hmember : site.get? [name] with
      | none => simp
      | some e =>
        cases e with
        | file bytes => simp
        | folder ms => simp only [walk]
        | link target => cases hplain.get? hmember
    | cons next more =>
      obtain ⟨ms, hms⟩ := hparent
      rw [List.dropLast_cons_cons] at hms
      obtain ⟨members, inner, rfl, hinner, hbelow⟩ := Entry.exists_of_get?_cons hms
      have hmember : (Entry.folder members).get? [name] = some inner := by simp [hinner]
      have hfolder : ∃ ms', inner = .folder ms' := by
        cases inner with
        | folder ms' => exact ⟨ms', rfl⟩
        | file bytes => cases more <;> cases hbelow
        | link target => cases more <;> cases hbelow
      obtain ⟨ms', rfl⟩ := hfolder
      simp only [hget, hmember]
      rw [ih (hget.trans hmember) (hplain.get? hmember) (by simp) hrest ⟨ms, hbelow⟩]
      simp [show name.utf8ByteSize ≤ nameLimit by omega]

/-- A name in the working folder leads there if no link is there. -/
theorem locate_name {d : Disk} {name : String} (hdots : name ≠ "..")
    (hsize : name.utf8ByteSize ≤ nameLimit)
    (hlink : ∀ target, d.tree.get? (d.here ++ [name]) ≠ some (.link target)) (follow : Bool) :
    d.locate follow ⟨false, [name]⟩ = .ok (d.here ++ [name]) := by
  have hfits : ¬pathLimit < (⟨false, [name]⟩ : Path).text.utf8ByteSize := by
    show ¬4095 < name.utf8ByteSize
    have : nameLimit = 255 := rfl
    omega
  rw [locate, if_neg hfits]
  show walk d.tree follow linkLimit d.here [name] = _
  rw [walk, if_neg (by simpa using hdots), if_neg (by omega)]
  cases hget : d.tree.get? (d.here ++ [name]) with
  | none => simp only [hget, List.isEmpty_nil, if_true]
  | some e =>
    cases e with
    | file bytes => simp only [hget, List.isEmpty_nil, if_true]
    | folder members => simp only [hget, walk]
    | link target => exact absurd hget (hlink target)

/-! ### Making folders -/

variable {d d' : Disk} {p : Path}

/-- What a folder that has been made has done. -/
theorem exists_of_makeFolder (h : d.makeFolder p = .ok d') :
    ∃ place, d.locate false p = .ok place ∧ d.tree.get? place = none ∧
      d' = { d with tree := d.tree.put place .emptyFolder } := by
  rw [makeFolder] at h
  split at h
  · cases h
  · rename_i place hlocate
    split at h
    · cases h
    · rename_i hnone
      split at h
      · cases h
      · exact ⟨place, hlocate, hnone, (Except.ok.inj h).symm⟩

section Induction

variable {P : Disk → Prop} (step : ∀ {d d' p}, P d → makeFolder d p = .ok d' → P d')

include step

theorem ensureFolder_induction (h : P d) (p : Path) : P (d.ensureFolder p).2 := by
  rw [ensureFolder]
  cases hmake : d.makeFolder p with
  | ok d' => exact step h hmake
  | error e => exact h

theorem makeFoldersTo_induction (h : P d) (absolute : Bool) (names : List String) :
    P (d.makeFoldersTo absolute names).2 := by
  induction names with
  | nil => exact ensureFolder_induction step h _
  | cons name rest ih =>
    rw [makeFoldersTo]
    cases hmake : d.makeFolder ⟨absolute, (name :: rest).reverse⟩ with
    | ok d' => exact step h hmake
    | error e =>
      simp only
      split
      · cases hrest : d.makeFoldersTo absolute rest with
        | mk r d' =>
          rw [hrest] at ih
          cases r with
          | error e => exact ih
          | ok => exact ensureFolder_induction step ih _
      · exact h

/-- **What every folder that is made keeps, making folders keeps**, even when it fails. -/
theorem makeFolders_induction (h : P d) (p : Path) : P (d.makeFolders p).2 :=
  makeFoldersTo_induction step h p.absolute p.parts.reverse

end Induction

/-- **Making folders leaves what the disk refuses as it was.** -/
theorem refuses_makeFolders {made : Disk} {r : Except FileError Unit}
    (h : d.makeFolders p = (r, made)) : made.refuses = d.refuses := by
  have hmade : (d.makeFolders p).2.refuses = d.refuses := by
    refine makeFolders_induction (P := fun made ↦ made.refuses = d.refuses)
      (fun hd hmake ↦ ?_) rfl p
    obtain ⟨place, -, -, rfl⟩ := exists_of_makeFolder hmake
    exact hd
  rwa [h] at hmade

end Disk

end Docwright.Files
