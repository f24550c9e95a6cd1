import Docwright.Files.Entry
import Docwright.Proofs.Json.Fields

/-!
# Looking up and placing in trees of files

`get?` and `put` follow the same names, so their laws are those of a store with nested places: what
was put is found (`get?_put_append`), everything beside it stays (`get?_put_cases`), what is found
may be put back without a change (`put_of_get?`), and a change below a place is a change of what
stands at the place (`put_append`). All of them need what is replaced, or its folder, to be there;
`put` does nothing where a file is in the way.

`Entry.Plain` are the trees without links in which every name stands once and none is the name of
the parent. They are closed under `put` (`Plain.put`).
-/

namespace Docwright.Files

/-! ### Members by name -/

theorem setMember_eq_setField (members : List (String × Entry)) (name : String) (e : Entry) :
    setMember members name e = Json.setField members name e := by
  induction members with
  | nil => rfl
  | cons m rest ih => rw [setMember, Json.setField, ih]

theorem lookup_setMember (members : List (String × Entry)) (name other : String) (e : Entry) :
    (setMember members name e).lookup other
      = if other = name then some e else members.lookup other := by
  rw [setMember_eq_setField, Json.lookup_setField]

theorem setMember_of_lookup {members : List (String × Entry)} {name : String} {e : Entry}
    (h : members.lookup name = some e) : setMember members name e = members := by
  induction members with
  | nil => cases h
  | cons m rest ih =>
    obtain ⟨n, d⟩ := m
    rw [setMember]
    by_cases hn : n = name
    · subst hn
      rw [List.lookup_cons_self, Option.some.injEq] at h
      rw [if_pos (by simp), h]
    · have hne : (name == n) = false := by simpa using Ne.symm hn
      rw [List.lookup_cons, hne] at h
      rw [if_neg (by simpa using hn), ih h]

theorem setMember_setMember (members : List (String × Entry)) (name : String) (d e : Entry) :
    setMember (setMember members name d) name e = setMember members name e := by
  induction members with
  | nil => simp [setMember]
  | cons m rest ih =>
    obtain ⟨n, c⟩ := m
    by_cases hn : n = name
    · simp [setMember, hn]
    · simp [setMember, hn, ih]

theorem setMember_of_lookup_eq_none {members : List (String × Entry)} {name : String}
    (h : members.lookup name = none) (e : Entry) :
    setMember members name e = members ++ [(name, e)] := by
  induction members with
  | nil => rfl
  | cons m rest ih =>
    obtain ⟨n, d⟩ := m
    by_cases hn : name = n
    · simp [hn] at h
    · rw [List.lookup_cons, show (name == n) = false by simpa using hn] at h
      rw [setMember, if_neg (by simpa using Ne.symm hn), ih h, List.cons_append]

/-- The names of the members, with one more at the end when it is new. -/
theorem map_fst_setMember (members : List (String × Entry)) (name : String) (e : Entry) :
    (setMember members name e).map Prod.fst
      = if name ∈ members.map Prod.fst then members.map Prod.fst
        else members.map Prod.fst ++ [name] := by
  induction members with
  | nil => rfl
  | cons m rest ih =>
    obtain ⟨n, d⟩ := m
    by_cases hn : n = name
    · simp [setMember, hn]
    · simp only [setMember, beq_iff_eq, hn, if_false, List.map_cons, ih, List.mem_cons,
        Ne.symm hn, false_or]
      split <;> simp

theorem forall_mem_setMember {p : String × Entry → Prop} {members : List (String × Entry)}
    {name : String} {e : Entry} (h : ∀ m ∈ members, p m) (he : p (name, e)) :
    ∀ m ∈ setMember members name e, p m := by
  induction members with
  | nil => simpa [setMember] using he
  | cons m rest ih =>
    obtain ⟨hm, hrest⟩ := List.forall_mem_cons.1 h
    rw [setMember]
    split
    · rename_i hname
      rw [beq_iff_eq.1 hname]
      exact List.forall_mem_cons.2 ⟨he, hrest⟩
    · exact List.forall_mem_cons.2 ⟨hm, ih hrest⟩

theorem mem_of_lookup {members : List (String × Entry)} {name : String} {e : Entry}
    (h : members.lookup name = some e) : (name, e) ∈ members := by
  induction members with
  | nil => cases h
  | cons m rest ih =>
    obtain ⟨n, d⟩ := m
    rw [List.lookup_cons] at h
    split at h
    · rename_i hname
      rw [beq_iff_eq.1 hname, Option.some.inj h]
      exact List.mem_cons_self
    · exact List.mem_cons_of_mem _ (ih h)

theorem lookup_of_mem {members : List (String × Entry)} (hnodup : (members.map Prod.fst).Nodup)
    {name : String} {e : Entry} (h : (name, e) ∈ members) : members.lookup name = some e := by
  induction members with
  | nil => cases h
  | cons m rest ih =>
    obtain ⟨n, d⟩ := m
    obtain ⟨hfresh, hnodup⟩ := List.nodup_cons.1 hnodup
    rcases List.mem_cons.1 h with heq | hmem
    · cases heq
      exact List.lookup_cons_self
    · have hne : (name == n) = false := by
        rw [beq_eq_false_iff_ne]
        rintro rfl
        exact hfresh (List.mem_map.2 ⟨_, hmem, rfl⟩)
      rw [List.lookup_cons, hne]
      exact ih hnodup hmem

/-! ### Members that are given by a function of their names -/

section Map

variable {names : List String} {F : String → Entry}

theorem lookup_map_pair (names : List String) (F : String → Entry) (name : String) :
    (names.map fun n ↦ (n, F n)).lookup name = if name ∈ names then some (F name) else none := by
  induction names with
  | nil => rfl
  | cons n rest ih =>
    rw [List.map_cons, List.lookup_cons, ih]
    by_cases h : name = n
    · simp [h]
    · have hne : (name == n) = false := by simpa using h
      simp [hne, h]

/-- Setting a member that is there changes the function at its name. -/
theorem setMember_map_of_mem (hnodup : names.Nodup) {name : String} (h : name ∈ names) (e : Entry) :
    setMember (names.map fun n ↦ (n, F n)) name e
      = names.map fun n ↦ (n, if n = name then e else F n) := by
  induction names with
  | nil => cases h
  | cons n rest ih =>
    obtain ⟨hfresh, hnodup⟩ := List.nodup_cons.1 hnodup
    rw [List.map_cons, List.map_cons, setMember]
    by_cases hn : n = name
    · subst hn
      rw [if_pos (by simp), if_pos rfl]
      congr 1
      -- the names behind it are other ones, so nothing changes there
      refine List.map_congr_left fun m hm ↦ ?_
      rw [if_neg]
      rintro rfl
      exact hfresh hm
    · rw [if_neg (by simpa using hn), if_neg hn]
      rw [ih hnodup ((List.mem_cons.1 h).resolve_left (Ne.symm hn))]

end Map

namespace Entry

/-! ### Looking up -/

@[simp] theorem get?_nil (e : Entry) : e.get? [] = some e := by
  cases e <;> rfl

@[simp] theorem get?_folder_cons (members : List (String × Entry)) (name : String)
    (rest : List String) :
    (folder members).get? (name :: rest) = (members.lookup name).bind (get? · rest) := rfl

theorem get?_append (e : Entry) (p q : List String) :
    e.get? (p ++ q) = (e.get? p).bind (get? · q) := by
  induction p generalizing e with
  | nil => simp
  | cons name rest ih =>
    cases e with
    | file bytes => rfl
    | link target => rfl
    | folder members =>
      rw [List.cons_append, get?_folder_cons, get?_folder_cons, Option.bind_assoc]
      exact Option.bind_congr fun inner _ ↦ ih inner

theorem get?_append_of_get? {e s : Entry} {p : List String} (h : e.get? p = some s)
    (q : List String) : e.get? (p ++ q) = s.get? q := by
  rw [get?_append, h, Option.bind_some]

/-- Below a file there is nothing. -/
theorem get?_file_of_ne_nil {bytes : List UInt8} {k : List String} (hk : k ≠ []) :
    (file bytes).get? k = none := by
  obtain ⟨name, rest, rfl⟩ := List.exists_cons_of_ne_nil hk
  rfl

theorem eq_nil_of_get?_file {bytes : List UInt8} {k : List String} {s : Entry}
    (h : (file bytes).get? k = some s) : k = [] := by
  by_contra hk
  rw [get?_file_of_ne_nil hk] at h
  cases h

/-- Below an empty folder there is nothing. -/
theorem get?_emptyFolder_of_ne_nil {k : List String} (hk : k ≠ []) :
    emptyFolder.get? k = none := by
  obtain ⟨name, rest, rfl⟩ := List.exists_cons_of_ne_nil hk
  rfl

theorem ne_nil_of_get?_file {members : List (String × Entry)} {p : List String}
    {bytes : List UInt8} (h : (folder members).get? p = some (file bytes)) : p ≠ [] := by
  rintro rfl
  cases h

/-- A file in a folder stands at or below a member of it. -/
theorem exists_mem_of_get? {members : List (String × Entry)} {p : List String}
    {bytes : List UInt8} (h : (folder members).get? p = some (file bytes)) :
    ∃ name e rest, p = name :: rest ∧ (name, e) ∈ members ∧ e.get? rest = some (file bytes) := by
  cases p with
  | nil => cases h
  | cons name rest =>
    obtain ⟨e, he, hrest⟩ := Option.bind_eq_some_iff.1 h
    exact ⟨name, e, rest, rfl, mem_of_lookup he, hrest⟩

/-! ### Placing -/

@[simp] theorem put_nil (e new : Entry) : e.put [] new = new := by
  cases e <;> rfl

@[simp] theorem put_folder_cons (members : List (String × Entry)) (name : String)
    (rest : List String) (new : Entry) :
    (folder members).put (name :: rest) new
      = folder (setMember members name
        (((members.lookup name).getD emptyFolder).put rest new)) := by
  rw [put]

/-- Where something stands it is what is changed. -/
theorem exists_of_get?_cons {e s : Entry} {name : String} {rest : List String}
    (h : e.get? (name :: rest) = some s) :
    ∃ members inner, e = folder members ∧ members.lookup name = some inner ∧
      inner.get? rest = some s := by
  cases e with
  | file bytes => cases h
  | link target => cases h
  | folder members =>
    obtain ⟨inner, hinner, hrest⟩ := Option.bind_eq_some_iff.1 h
    exact ⟨members, inner, rfl, hinner, hrest⟩

/-- **A change below a place is a change of what stands there.** -/
theorem put_append {e s : Entry} {p : List String} (h : e.get? p = some s) (q : List String)
    (new : Entry) : e.put (p ++ q) new = e.put p (s.put q new) := by
  induction p generalizing e with
  | nil =>
    rw [get?_nil, Option.some.injEq] at h
    rw [h, List.nil_append, put_nil]
  | cons name rest ih =>
    obtain ⟨members, inner, rfl, hinner, hrest⟩ := exists_of_get?_cons h
    rw [List.cons_append, put_folder_cons, put_folder_cons, hinner, Option.getD_some, ih hrest]

/-- **What was put is found, and so is everything below it.** -/
theorem get?_put_append {e s : Entry} {p : List String} (h : e.get? p = some s) (new : Entry)
    (q : List String) : (e.put p new).get? (p ++ q) = new.get? q := by
  induction p generalizing e with
  | nil => simp
  | cons name rest ih =>
    obtain ⟨members, inner, rfl, hinner, hrest⟩ := exists_of_get?_cons h
    rw [put_folder_cons, List.cons_append, get?_folder_cons, lookup_setMember, if_pos rfl,
      Option.bind_some, hinner, Option.getD_some, ih hrest]

theorem get?_put_self {e s : Entry} {p : List String} (h : e.get? p = some s) (new : Entry) :
    (e.put p new).get? p = some new := by
  simpa using get?_put_append h new []

/-- **Putting back what is found changes nothing.** -/
theorem put_of_get? {e s : Entry} {p : List String} (h : e.get? p = some s) : e.put p s = e := by
  induction p generalizing e with
  | nil => simpa using h.symm
  | cons name rest ih =>
    obtain ⟨members, inner, rfl, hinner, hrest⟩ := exists_of_get?_cons h
    rw [put_folder_cons, hinner, Option.getD_some, ih hrest, setMember_of_lookup hinner]

/-- The later of two changes at one place counts. -/
theorem put_put {e s : Entry} {p : List String} (h : e.get? p = some s) (a b : Entry) :
    (e.put p a).put p b = e.put p b := by
  induction p generalizing e with
  | nil => simp
  | cons name rest ih =>
    obtain ⟨members, inner, rfl, hinner, hrest⟩ := exists_of_get?_cons h
    rw [put_folder_cons, put_folder_cons, put_folder_cons, lookup_setMember, if_pos rfl, hinner,
      Option.getD_some, Option.getD_some, ih hrest, setMember_setMember]

/-! ### Folders -/

/-- Whether there is a folder where the names lead. -/
def folderAt (e : Entry) (ns : List String) : Bool :=
  (e.get? ns).any isFolder

theorem isFolder_iff {e : Entry} : e.isFolder = true ↔ ∃ ms, e = folder ms := by
  cases e <;> simp [isFolder]

theorem folderAt_iff {e : Entry} {ns : List String} :
    e.folderAt ns = true ↔ ∃ ms, e.get? ns = some (folder ms) := by
  rw [folderAt]
  cases e.get? ns with
  | none => simp
  | some s => simpa using isFolder_iff

/-- What is found at names stands in a folder. -/
theorem folderAt_dropLast {e s : Entry} {ns : List String} (hne : ns ≠ [])
    (h : e.get? ns = some s) : e.folderAt ns.dropLast = true := by
  rw [← List.dropLast_concat_getLast hne, get?_append] at h
  obtain ⟨inner, hinner, hlast⟩ := Option.bind_eq_some_iff.1 h
  obtain ⟨ms, -, rfl, -, -⟩ := exists_of_get?_cons hlast
  exact folderAt_iff.2 ⟨ms, hinner⟩

theorem isFolder_put {e new : Entry} (h : e.isFolder = true) {ns : List String} (hne : ns ≠ []) :
    (e.put ns new).isFolder = true := by
  obtain ⟨ms, rfl⟩ := isFolder_iff.1 h
  cases ns with
  | nil => exact absurd rfl hne
  | cons name rest => rfl

/-- **What is placed in a folder is seen there and below**, the folders on the way stay folders, and
everything else stays as it is. -/
theorem get?_put_cases {e : Entry} {ns : List String} (hne : ns ≠ [])
    (hparent : e.folderAt ns.dropLast = true) (new : Entry) (q : List String) :
    (∃ k, q = ns ++ k ∧ (e.put ns new).get? q = new.get? k) ∨
    (e.folderAt q = true ∧ (e.put ns new).folderAt q = true) ∨
    ((e.put ns new).get? q = e.get? q ∧ ¬ns <+: q) := by
  induction ns generalizing e q with
  | nil => exact absurd rfl hne
  | cons name rest ih =>
    -- the parent is found, so `e` itself is a folder
    have hfolder : ∃ members, e = folder members := by
      obtain ⟨ms, hms⟩ := folderAt_iff.1 hparent
      cases rest with
      | nil => exact ⟨ms, by simpa using hms⟩
      | cons next more =>
        obtain ⟨members, -, rfl, -⟩ := exists_of_get?_cons hms
        exact ⟨members, rfl⟩
    obtain ⟨members, rfl⟩ := hfolder
    rw [put_folder_cons]
    cases q with
    | nil => exact Or.inr (Or.inl ⟨rfl, rfl⟩)
    | cons other k =>
      simp only [folderAt, get?_folder_cons, lookup_setMember]
      by_cases hname : other = name
      · subst hname
        simp only [if_true, Option.bind_some]
        cases rest with
        | nil => exact Or.inl ⟨k, rfl, by simp⟩
        | cons next more =>
          obtain ⟨ms, hms⟩ := folderAt_iff.1 hparent
          rw [List.dropLast_cons_cons] at hms
          obtain ⟨members', inner, hmembers, hinner, hbelow⟩ := exists_of_get?_cons hms
          cases hmembers
          rw [hinner, Option.getD_some, Option.bind_some]
          -- both lead into the same member, where the same question comes up again
          rcases ih (by simp) (folderAt_iff.2 ⟨ms, hbelow⟩) k with ⟨k', rfl, h⟩ | h | ⟨h, hne⟩
          · exact Or.inl ⟨k', rfl, h⟩
          · exact Or.inr (Or.inl h)
          · exact Or.inr (Or.inr ⟨h, by simpa using hne⟩)
      · rw [if_neg hname]
        exact Or.inr (Or.inr ⟨rfl, by simp [Ne.symm hname]⟩)

theorem get?_put_self_of_folderAt {e : Entry} {ns : List String} (hne : ns ≠ [])
    (hparent : e.folderAt ns.dropLast = true) (new : Entry) :
    (e.put ns new).get? ns = some new := by
  obtain ⟨ms, hms⟩ := folderAt_iff.1 hparent
  have hput := put_append hms [ns.getLast hne] new
  have hget := get?_put_append hms (folder (setMember ms (ns.getLast hne) new)) [ns.getLast hne]
  rw [List.dropLast_concat_getLast hne] at hput hget
  rw [hput, put_folder_cons, put_nil, hget, get?_folder_cons, lookup_setMember, if_pos rfl,
    Option.bind_some, get?_nil]

/-- **Something without members that is placed where no folder stands changes that place alone.** -/
theorem get?_put_of_ne {e : Entry} {ns : List String} (hne : ns ≠ [])
    (hparent : e.folderAt ns.dropLast = true) (hfolder : e.folderAt ns = false) {new : Entry}
    (hleaf : ∀ k, k ≠ [] → new.get? k = none) {q : List String} (hq : q ≠ ns) :
    (e.put ns new).get? q = e.get? q ∨
      (e.folderAt q = true ∧ (e.put ns new).folderAt q = true) := by
  rcases get?_put_cases hne hparent new q with ⟨k, rfl, h⟩ | h | ⟨h, -⟩
  · left
    have hk : k ≠ [] := fun hk ↦ hq (by rw [hk, List.append_nil])
    rw [h, hleaf k hk]
    cases hbelow : e.get? (ns ++ k) with
    | none => rfl
    | some s =>
      rw [get?_append] at hbelow
      obtain ⟨old, hold, hs⟩ := Option.bind_eq_some_iff.1 hbelow
      obtain ⟨name, rest, rfl⟩ := List.exists_cons_of_ne_nil hk
      obtain ⟨ms, -, rfl, -⟩ := exists_of_get?_cons hs
      rw [folderAt_iff.2 ⟨ms, hold⟩] at hfolder
      cases hfolder
  · exact Or.inr h
  · exact Or.inl h

/-! ### Trees without links -/

/-- A tree without links whose folders hold every name once and never the name of the parent. -/
inductive Plain : Entry → Prop
  | file (bytes : List UInt8) : Plain (.file bytes)
  | folder {members : List (String × Entry)} (distinct : (members.map Prod.fst).Nodup)
      (names : ".." ∉ members.map Prod.fst) (inner : ∀ m ∈ members, m.2.Plain) :
      Plain (.folder members)

theorem plain_emptyFolder : emptyFolder.Plain :=
  .folder List.nodup_nil (List.not_mem_nil) (by simp)

theorem Plain.get? {e : Entry} (h : e.Plain) {p : List String} {s : Entry}
    (hs : e.get? p = some s) : s.Plain := by
  induction p generalizing e with
  | nil =>
    rw [get?_nil, Option.some.injEq] at hs
    exact hs ▸ h
  | cons name rest ih =>
    obtain ⟨members, inner, rfl, hinner, hrest⟩ := exists_of_get?_cons hs
    cases h with
    | folder distinct names hmembers => exact ih (hmembers _ (mem_of_lookup hinner)) hrest

/-- In a plain tree no way leads through a parent. -/
theorem Plain.not_mem_of_get? {e : Entry} (h : e.Plain) {p : List String} {s : Entry}
    (hs : e.get? p = some s) : ".." ∉ p := by
  induction p generalizing e with
  | nil => exact List.not_mem_nil
  | cons name rest ih =>
    obtain ⟨members, inner, rfl, hinner, hrest⟩ := exists_of_get?_cons hs
    have hmem := mem_of_lookup hinner
    cases h with
    | folder distinct names hmembers =>
      have hname : ".." ≠ name := fun heq ↦ names (heq ▸ List.mem_map_of_mem hmem)
      exact List.not_mem_cons_of_ne_of_not_mem hname (ih (hmembers _ hmem) hrest)

/-- **Placing a plain tree in a plain tree leaves it plain.** -/
theorem Plain.put {e new : Entry} (h : e.Plain) (hnew : new.Plain) {p : List String}
    (hp : ".." ∉ p) : (e.put p new).Plain := by
  induction p generalizing e with
  | nil => simpa using hnew
  | cons name rest ih =>
    have hname : ".." ≠ name := fun heq ↦ hp (heq ▸ List.mem_cons_self)
    have hrest : ".." ∉ rest := fun hmem ↦ hp (List.mem_cons_of_mem _ hmem)
    cases h with
    | file bytes => exact .file bytes
    | @folder members distinct names inner =>
      have hold : ((members.lookup name).getD emptyFolder).Plain := by
        cases hlookup : members.lookup name with
        | none => exact plain_emptyFolder
        | some e => exact inner _ (mem_of_lookup hlookup)
      rw [put_folder_cons]
      -- only the names are left: one is added at most, and it is not the parent's
      refine .folder ?_ ?_ (forall_mem_setMember inner (ih hold hrest))
      · rw [map_fst_setMember]
        split
        · exact distinct
        · rename_i hfresh
          exact List.nodup_append.2 ⟨distinct, by simp, fun a ha b hb ↦ by
            rintro rfl
            exact hfresh (List.mem_singleton.1 hb ▸ ha)⟩
      · rw [map_fst_setMember]
        split
        · exact names
        · simpa [hname] using names

end Entry

end Docwright.Files
