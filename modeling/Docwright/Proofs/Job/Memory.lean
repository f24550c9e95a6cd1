import Docwright.Proofs.Job.Actions

/-!
# The ledger in memory

A ledger is a value here. In a running program its jobs are records in memory that are written to in
place, and a record that is given out would change with the job if it were the same one, or if both
had the same list of lines. `Memory` is the ledger as it is kept there: records and lists of lines
at addresses, and a table that leads from ids to records. Reading gives out the address of a copy.

* `Represents.perform` - the memory and the ledger do the same: at every step the table leads to
  records that read like the jobs of the ledger.
* `reads_after` - what was given out reads the same ever after.

Both rest on what an action on one id may write to (`Changes`): the record of that id, its list, and
what was not there before. Records of the table do not share lists (`Represents.apart`), and a copy
has neither its record nor its list in the table (`Loose`).
-/

namespace Docwright.Ledger

/-- A record in memory, with the address of the list of its lines. -/
structure Cell where
  id : String
  status : JobStatus
  progress : Int
  step : String
  lines : Nat

/-- What stands in memory. The address of a record or a list is its place. -/
structure Memory where
  cells : List Cell := []
  lists : List (List String) := []
  /-- The addresses of the records by id, latest first. -/
  table : List (String × Nat) := []
  clock : Moment

/-- What is given out: in place of a job the address of a record. -/
inductive Given
  | done
  | failed (fault : Number.Fault)
  | record (address : Option Nat)

namespace Memory

/-- The record at an address. -/
def view (m : Memory) (x : Nat) : Option Job :=
  m.cells[x]?.bind fun c ↦ m.lists[c.lines]?.map fun log ↦
    { id := c.id, status := c.status, progress := c.progress, step := c.step, log }

/-- Makes a new record with a new list of lines. -/
def make (m : Memory) (j : Job) : Memory where
  cells := m.cells ++ [⟨j.id, j.status, j.progress, j.step, m.lists.length⟩]
  lists := m.lists ++ [j.log]
  table := m.table
  clock := m.clock

/-- Makes a new record for a job, to which the table leads from now on. -/
def enter (m : Memory) (id : String) (j : Job) : Memory :=
  { m.make j with table := (id, m.cells.length) :: m.table }

/-- The record of a job, which is made when there is none. -/
def setDefault (m : Memory) (id : String) : Nat × Memory :=
  match m.table.lookup id with
  | some x => (x, m)
  | none => (m.cells.length, m.enter id { id })

/-- Adds a line to the list of a record, in place. -/
def addLine (m : Memory) (x : Nat) (line : String) : Memory :=
  match m.cells[x]? with
  | some c => { m with lists := m.lists.modify c.lines (· ++ [line]) }
  | none => m

/-- Reads the clock. -/
def tick (m : Memory) : Memory :=
  { m with clock := m.clock.next }

/-- Adds a stamped message to the list of a job, and gives the record of the job. -/
def addMessage (m : Memory) (id message : String) : Nat × Memory :=
  let (x, m) := m.tick.setDefault id
  (x, m.addLine x (Job.stampLine m.clock message))

/-- Writes everything but the lines into a record, in place. -/
def store (m : Memory) (x : Nat) (j : Job) : Memory :=
  { m with cells := m.cells.modify x fun c ↦
      { c with status := j.status, progress := j.progress, step := j.step } }

/-- Copies a record together with its list, and gives the copy out. -/
def giveOut (m : Memory) (x : Option Nat) : Given × Memory :=
  match x.bind m.view with
  | some j => (.record (some m.cells.length), m.make j)
  | none => (.record none, m)

/-- Does what is asked. -/
def perform (m : Memory) : Action → Given × Memory
  | .create id => (m.enter id { id }).giveOut (some m.cells.length)
  | .append id message progress step =>
    let (x, m) := m.addMessage id message
    match m.view x with
    | none => (.done, m)
    | some j =>
      match progressFor j progress with
      | some (.error fault) => (.failed fault, m)
      | some (.ok n) => (.done, m.store x (j.advance (some n) step))
      | none => (.done, m.store x (j.advance none step))
  | .setStatus id status =>
    let (x, m) := m.setDefault id
    match m.view x with
    | none => (.done, m)
    | some j => (.done, m.store x (j.setStatus status))
  | .read id => m.giveOut (m.table.lookup id)

/-- The memory after some actions. -/
def after (m : Memory) (actions : List Action) : Memory :=
  actions.foldl (fun m a ↦ (m.perform a).2) m

end Memory

/-- What somebody sees who looks at what was given out. -/
def Given.reads (m : Memory) : Given → Answer
  | done => .done
  | failed fault => .failed fault
  | record x => .job (x.bind m.view)

variable {m m' : Memory} {l : Ledger} {id : String} {x : Nat} {j : Job}

/-! ### Records -/

/-- What stands at a place stays there when more is added at the end. -/
theorem getElem?_append_of_eq_some {α : Type} {l : List α} {i : Nat} {a : α} (h : l[i]? = some a)
    (l' : List α) : (l ++ l')[i]? = some a := by
  rw [List.getElem?_append_left (List.getElem?_eq_some_iff.1 h).1, h]

theorem view_eq_some_iff : m.view x = some j ↔ ∃ c, m.cells[x]? = some c ∧
    m.lists[c.lines]? = some j.log ∧ c = ⟨j.id, j.status, j.progress, j.step, c.lines⟩ := by
  rw [Memory.view]
  cases hcell : m.cells[x]? with
  | none => simp
  | some c =>
    simp only [Option.bind_some, Option.map_eq_some_iff, Option.some.injEq, exists_eq_left']
    constructor
    · rintro ⟨log, hlog, rfl⟩
      exact ⟨hlog, rfl⟩
    · rintro ⟨hlog, hc⟩
      refine ⟨j.log, hlog, ?_⟩
      rw [hc]

/-- The record that is made last. -/
theorem view_make (m : Memory) (j : Job) : (m.make j).view m.cells.length = some j := by
  exact view_eq_some_iff.2 ⟨⟨j.id, j.status, j.progress, j.step, m.lists.length⟩,
    List.getElem?_concat_length, List.getElem?_concat_length, rfl⟩

theorem view_addLine (h : m.view x = some j) (line : String) :
    (m.addLine x line).view x = some (j.addLine line) := by
  obtain ⟨c, hcell, hlog, hc⟩ := view_eq_some_iff.1 h
  have hline : m.addLine x line = { m with lists := m.lists.modify c.lines (· ++ [line]) } := by
    rw [Memory.addLine, hcell]
  rw [hline]
  refine view_eq_some_iff.2 ⟨c, hcell, ?_, hc⟩
  rw [List.getElem?_modify_eq, hlog]
  rfl

theorem table_addLine (m : Memory) (x : Nat) (line : String) :
    (m.addLine x line).table = m.table := by
  rw [Memory.addLine]
  split <;> rfl

theorem clock_addLine (m : Memory) (x : Nat) (line : String) :
    (m.addLine x line).clock = m.clock := by
  rw [Memory.addLine]
  split <;> rfl

/-- A job that is written into its record is what the record reads. -/
theorem view_store {j' : Job} (h : m.view x = some j) (hid : j'.id = j.id) (hlog : j'.log = j.log) :
    (m.store x j').view x = some j' := by
  obtain ⟨c, hcell, hlines, hc⟩ := view_eq_some_iff.1 h
  refine view_eq_some_iff.2 ⟨⟨c.id, j'.status, j'.progress, j'.step, c.lines⟩, ?_, ?_, ?_⟩
  · rw [Memory.store, List.getElem?_modify_eq, hcell]
    rfl
  · rw [hlog]
    exact hlines
  · rw [hid, hc]

/-! ### What may be written to -/

/-- From one memory to another only the record of one id and its list are written to, or the table
leads from that id to a record that is new and has a new list. All else stays at its place. -/
structure Changes (id : String) (m m' : Memory) : Prop where
  cells : ∀ x c, m.cells[x]? = some c → m.table.lookup id ≠ some x → m'.cells[x]? = some c
  lists : ∀ y log, m.lists[y]? = some log →
    (∀ x c, m.table.lookup id = some x → m.cells[x]? = some c → c.lines ≠ y) →
    m'.lists[y]? = some log
  others : ∀ id', id' ≠ id → m'.table.lookup id' = m.table.lookup id'
  own : ∀ x c, m'.table.lookup id = some x → m'.cells[x]? = some c →
    (m.table.lookup id = some x ∧ ∃ c₀, m.cells[x]? = some c₀ ∧ c₀.lines = c.lines) ∨
      (m.cells.length ≤ x ∧ m.lists.length ≤ c.lines)
  grows : m.cells.length ≤ m'.cells.length ∧ m.lists.length ≤ m'.lists.length

namespace Changes

theorem of_eq (hcells : m'.cells = m.cells) (hlists : m'.lists = m.lists)
    (htable : m'.table = m.table) : Changes id m m' where
  cells x c h _ := by rwa [hcells]
  lists y log h _ := by rwa [hlists]
  others _ _ := by rw [htable]
  own x c h hc := by
    rw [htable] at h
    rw [hcells] at hc
    exact Or.inl ⟨h, c, hc, rfl⟩
  grows := ⟨by rw [hcells], by rw [hlists]⟩

theorem trans {m₁ m₂ m₃ : Memory} (h : Changes id m₁ m₂) (h' : Changes id m₂ m₃) :
    Changes id m₁ m₃ where
  cells x c hx hne := by
    have hx₂ := h.cells x c hx hne
    refine h'.cells x c hx₂ fun hlook ↦ ?_
    rcases h.own x c hlook hx₂ with ⟨hlook, -⟩ | ⟨hnew, -⟩
    · exact hne hlook
    · exact absurd (List.getElem?_eq_some_iff.1 hx).1 (by omega)
  lists y log hy hne := by
    refine h'.lists y log (h.lists y log hy hne) fun x c hlook hc heq ↦ ?_
    rcases h.own x c hlook hc with ⟨hlook, c₀, hc₀, hlines⟩ | ⟨-, hnew⟩
    · exact hne x c₀ hlook hc₀ (hlines.trans heq)
    · exact absurd (List.getElem?_eq_some_iff.1 hy).1 (by omega)
  others id' hne := by rw [h'.others id' hne, h.others id' hne]
  own x c hlook hc := by
    have hgrows := h.grows
    rcases h'.own x c hlook hc with ⟨hlook₂, c₂, hc₂, hlines⟩ | ⟨hx, hc⟩
    · rcases h.own x c₂ hlook₂ hc₂ with ⟨hlook₁, c₁, hc₁, hlines'⟩ | ⟨hx, hnew⟩
      · exact Or.inl ⟨hlook₁, c₁, hc₁, hlines'.trans hlines⟩
      · exact Or.inr ⟨hx, hlines ▸ hnew⟩
    · exact Or.inr ⟨by omega, by omega⟩
  grows := ⟨h.grows.1.trans h'.grows.1, h.grows.2.trans h'.grows.2⟩

theorem make (m : Memory) (j : Job) : Changes id m (m.make j) where
  cells _ _ h _ := getElem?_append_of_eq_some h _
  lists _ _ h _ := getElem?_append_of_eq_some h _
  others _ _ := rfl
  own x c hlook hc := by
    rw [Memory.make, List.getElem?_append] at hc
    split at hc
    · exact Or.inl ⟨hlook, c, hc, rfl⟩
    · rename_i hx
      have hnew : c.lines = m.lists.length := by
        have hmem := List.mem_of_getElem? hc
        rw [List.mem_singleton.1 hmem]
      exact Or.inr ⟨Nat.le_of_not_lt hx, hnew.ge⟩
  grows := by simp [Memory.make]

theorem enter (m : Memory) (id : String) (j : Job) : Changes id m (m.enter id j) where
  cells := (make m j).cells
  lists := (make m j).lists
  others id' hne := by
    show List.lookup id' ((id, m.cells.length) :: m.table) = m.table.lookup id'
    rw [List.lookup_cons, beq_eq_false_iff_ne.2 hne]
  own x c hlook hc := by
    rw [Memory.enter, List.lookup_cons_self, Option.some.injEq] at hlook
    subst hlook
    rw [Memory.enter, Memory.make, List.getElem?_concat_length] at hc
    cases hc
    exact Or.inr ⟨Nat.le_refl _, Nat.le_refl _⟩
  grows := by simp [Memory.enter, Memory.make]

theorem addLine (h : m.table.lookup id = some x) (line : String) :
    Changes id m (m.addLine x line) := by
  rw [Memory.addLine]
  split
  · rename_i c hc
    refine ⟨fun _ _ h _ ↦ h, fun y log hy hne ↦ ?_, fun _ _ ↦ rfl,
      fun x c h hc ↦ Or.inl ⟨h, c, hc, rfl⟩, Nat.le_refl _, by simp⟩
    rw [List.getElem?_modify_ne _ _ (hne x c h hc), hy]
  · exact of_eq rfl rfl rfl

theorem store (h : m.table.lookup id = some x) (j : Job) : Changes id m (m.store x j) := by
  refine ⟨fun x' c hx' hne ↦ ?_, fun _ _ h _ ↦ h, fun _ _ ↦ rfl, fun x' c hlook hc ↦ ?_,
    by simp [Memory.store], Nat.le_refl _⟩
  · have hne : x ≠ x' := fun heq ↦ hne (heq ▸ h)
    rw [Memory.store, List.getElem?_modify_ne _ _ hne, hx']
  · rw [show (m.store x j).table = m.table from rfl, h, Option.some.injEq] at hlook
    subst hlook
    rw [Memory.store, List.getElem?_modify_eq, Option.map_eq_map, Option.map_eq_some_iff] at hc
    obtain ⟨c₀, hc₀, rfl⟩ := hc
    exact Or.inl ⟨h, c₀, hc₀, rfl⟩

end Changes

/-- A record that is not the one of an id and does not share its list. -/
structure Apart (m : Memory) (id : String) (x : Nat) (c : Cell) : Prop where
  cell : m.cells[x]? = some c
  inside : c.lines < m.lists.length
  ne : ∀ x' c', m.table.lookup id = some x' → m.cells[x']? = some c' →
    x' ≠ x ∧ c'.lines ≠ c.lines

/-- **What is done for an id leaves the records apart from its own as they are**, and apart. -/
theorem Apart.changes {c : Cell} (h : Apart m id x c) (hchanges : Changes id m m') :
    Apart m' id x c ∧ m'.view x = m.view x := by
  have hcell : m'.cells[x]? = some c := hchanges.cells x c h.cell fun hlook ↦
    (h.ne x c hlook h.cell).1 rfl
  have hx : x < m.cells.length := (List.getElem?_eq_some_iff.1 h.cell).1
  have hinside : c.lines < m.lists.length := h.inside
  refine ⟨⟨hcell, hinside.trans_le hchanges.grows.2, fun x' c' hlook hc' ↦ ?_⟩, ?_⟩
  · rcases hchanges.own x' c' hlook hc' with ⟨hlook, c₀, hc₀, hlines⟩ | ⟨hnew, hlines⟩
    · rw [← hlines]
      exact h.ne x' c₀ hlook hc₀
    · exact ⟨by omega, by omega⟩
  · have hlog := List.getElem?_eq_getElem hinside
    have hlog' := hchanges.lists _ _ hlog fun x' c' hlook hc' ↦ (h.ne x' c' hlook hc').2
    rw [Memory.view, Memory.view, hcell, h.cell, Option.bind_some, Option.bind_some, hlog, hlog']

/-- The table leads to records that are there, for different ids to different ones with lists of
their own. -/
structure Tidy (m : Memory) : Prop where
  inside : ∀ id x, m.table.lookup id = some x →
    ∃ c, m.cells[x]? = some c ∧ c.lines < m.lists.length
  apart : ∀ id id' x c, id' ≠ id → m.table.lookup id' = some x → m.cells[x]? = some c →
    Apart m id x c

namespace Tidy

/-- The record of another id is not touched. -/
theorem apart_changes (h : Tidy m) (hchanges : Changes id m m') {id' : String} (hne : id' ≠ id)
    (hlook : m'.table.lookup id' = some x) :
    ∃ c, Apart m id x c ∧ Apart m' id x c ∧ m'.view x = m.view x := by
  rw [hchanges.others id' hne] at hlook
  obtain ⟨c, hc, -⟩ := h.inside id' x hlook
  have hapart := h.apart id id' x c hne hlook hc
  exact ⟨c, hapart, hapart.changes hchanges⟩

theorem changes (h : Tidy m) (hchanges : Changes id m m')
    (hown : ∀ x, m'.table.lookup id = some x → ∃ j, m'.view x = some j) : Tidy m' where
  inside id' x hlook := by
    by_cases hid : id' = id
    · subst hid
      obtain ⟨j, hj⟩ := hown x hlook
      obtain ⟨c, hc, hlog, -⟩ := view_eq_some_iff.1 hj
      exact ⟨c, hc, (List.getElem?_eq_some_iff.1 hlog).1⟩
    · obtain ⟨c, -, hapart, -⟩ := h.apart_changes hchanges hid hlook
      exact ⟨c, hapart.cell, hapart.inside⟩
  apart id₁ id₂ x c hne hlook hc := by
    by_cases hid₂ : id₂ = id
    · -- the record of the id itself, which all others are apart from
      subst hid₂
      obtain ⟨j, hj⟩ := hown x hlook
      obtain ⟨c', hc', hlog, -⟩ := view_eq_some_iff.1 hj
      obtain rfl : c = c' := Option.some.inj (hc.symm.trans hc')
      refine ⟨hc, (List.getElem?_eq_some_iff.1 hlog).1, fun x' c' hlook' hc' ↦ ?_⟩
      obtain ⟨c₀, -, hapart, -⟩ := h.apart_changes hchanges (Ne.symm hne) hlook'
      obtain rfl : c' = c₀ := Option.some.inj (hc'.symm.trans hapart.cell)
      exact ⟨(hapart.ne x c hlook hc).1.symm, (hapart.ne x c hlook hc).2.symm⟩
    · obtain ⟨c₀, hapart, hapart', -⟩ := h.apart_changes hchanges hid₂ hlook
      obtain rfl : c = c₀ := Option.some.inj (hc.symm.trans hapart'.cell)
      by_cases hid₁ : id₁ = id
      · rw [hid₁]
        exact hapart'
      · refine ⟨hc, hapart'.inside, fun x' c' hlook' hc' ↦ ?_⟩
        obtain ⟨c₁, happ, happ', -⟩ := h.apart_changes hchanges hid₁ hlook'
        obtain rfl : c' = c₁ := Option.some.inj (hc'.symm.trans happ'.cell)
        rw [hchanges.others _ hid₁] at hlook'
        rw [hchanges.others _ hid₂] at hlook
        exact (h.apart id₁ id₂ x c hne hlook hapart.cell).ne x' c' hlook' happ.cell

/-- A record that is apart from all others stays so. -/
theorem loose_changes (h : Tidy m) (hchanges : Changes id m m') {c : Cell}
    (hloose : ∀ id, Apart m id x c) :
    (∀ id, Apart m' id x c) ∧ m'.view x = m.view x := by
  have hown := (hloose id).changes hchanges
  refine ⟨fun id' ↦ ?_, hown.2⟩
  by_cases hid : id' = id
  · rw [hid]
    exact hown.1
  · refine ⟨hown.1.cell, hown.1.inside, fun x' c' hlook hc' ↦ ?_⟩
    obtain ⟨c₀, hapart, hapart', -⟩ := h.apart_changes hchanges hid hlook
    obtain rfl : c' = c₀ := Option.some.inj (hc'.symm.trans hapart'.cell)
    rw [hchanges.others id' hid] at hlook
    exact (hloose id').ne x' c' hlook hapart.cell

end Tidy

/-! ### What is done in memory -/

/-- The clock after an action. Only appending reads it. -/
def clockAfter (now : Moment) : Action → Moment
  | .append .. => now.next
  | _ => now

/-- The job with an id, as its record reads. -/
def Memory.job? (m : Memory) (id : String) : Option Job :=
  (m.table.lookup id).bind m.view

namespace Tidy

/-- There is a record where the table leads to one. -/
theorem exists_view (h : Tidy m) (hlook : m.table.lookup id = some x) : ∃ j, m.view x = some j := by
  obtain ⟨c, hc, hlines⟩ := h.inside id x hlook
  refine ⟨⟨c.id, c.status, c.progress, c.step, m.lists[c.lines]⟩, ?_⟩
  rw [Memory.view, hc, Option.bind_some, List.getElem?_eq_getElem hlines]
  rfl

end Tidy

/-- Jobs with other ids read as before. -/
theorem Tidy.job?_changes (h : Tidy m) (hchanges : Changes id m m') {id' : String}
    (hne : id' ≠ id) : m'.job? id' = m.job? id' := by
  rw [Memory.job?, Memory.job?, ← hchanges.others id' hne]
  cases hlook : m'.table.lookup id' with
  | none => rfl
  | some x =>
    obtain ⟨c, -, -, hview⟩ := h.apart_changes hchanges hne hlook
    exact hview

theorem view_enter (m : Memory) (id : String) (j : Job) :
    (m.enter id j).view m.cells.length = some j :=
  view_make m j

/-- The record of a job is there then, and it reads like the job, or like a new one. -/
theorem setDefault_spec (h : Tidy m) (id : String) :
    Changes id m (m.setDefault id).2 ∧
      (m.setDefault id).2.table.lookup id = some (m.setDefault id).1 ∧
      (m.setDefault id).2.view (m.setDefault id).1 = some ((m.job? id).getD { id }) ∧
      (m.setDefault id).2.clock = m.clock := by
  rw [Memory.setDefault, Memory.job?]
  cases hlook : m.table.lookup id with
  | none => exact ⟨.enter m id _, List.lookup_cons_self, view_enter m id _, rfl⟩
  | some x =>
    obtain ⟨j, hj⟩ := h.exists_view hlook
    refine ⟨.of_eq rfl rfl rfl, hlook, ?_, rfl⟩
    rw [Option.bind_some, hj, Option.getD_some]

/-- The line is in the list of the job's record then. -/
theorem addMessage_spec (h : Tidy m) (id message : String) :
    Changes id m (m.addMessage id message).2 ∧
      (m.addMessage id message).2.table.lookup id = some (m.addMessage id message).1 ∧
      (m.addMessage id message).2.view (m.addMessage id message).1
        = some (((m.job? id).getD { id }).addLine (Job.stampLine m.clock.next message)) ∧
      (m.addMessage id message).2.clock = m.clock.next := by
  have hticked : Changes id m m.tick := .of_eq rfl rfl rfl
  have htick : Tidy m.tick := h.changes hticked fun x hlook ↦ h.exists_view hlook
  obtain ⟨hchanges, hlook, hj, hclock⟩ := setDefault_spec htick id
  have hnow : (m.tick.setDefault id).2.clock = m.clock.next := hclock
  rw [Memory.addMessage]
  simp only [hnow]
  refine ⟨?_, ?_, view_addLine hj _, ?_⟩
  · exact hticked.trans (hchanges.trans (.addLine hlook _))
  · rw [table_addLine, hlook]
  · rw [clock_addLine, hnow]

/-- What is given out is nothing that the table leads to. -/
def Given.Loose (m : Memory) : Given → Prop
  | record (some x) => ∃ c, ∀ id, Apart m id x c
  | _ => True

/-- What one action does in memory. -/
structure Performed (m : Memory) (a : Action) (p : Given × Memory) : Prop where
  tidy : Tidy p.2
  changes : Changes a.id m p.2
  clock : p.2.clock = clockAfter m.clock a
  job : p.2.job? a.id = told (Job.stampLine m.clock.next) (m.job? a.id) a
  reads : p.1.reads p.2 = reply (m.job? a.id) a
  loose : p.1.Loose p.2

theorem view_make_of_some (h : m.view x = some j) (j' : Job) : (m.make j').view x = some j := by
  obtain ⟨c, hcell, hlog, hc⟩ := view_eq_some_iff.1 h
  exact view_eq_some_iff.2
    ⟨c, getElem?_append_of_eq_some hcell _, getElem?_append_of_eq_some hlog _, hc⟩

theorem Tidy.make (h : Tidy m) (j : Job) : Tidy (m.make j) := by
  have hmake : Changes "" m (m.make j) := .make m j
  refine h.changes hmake fun x hlook ↦ ?_
  obtain ⟨j', hj'⟩ := h.exists_view hlook
  exact ⟨j', view_make_of_some hj' j⟩

theorem Tidy.job?_make (h : Tidy m) (j : Job) (id : String) : (m.make j).job? id = m.job? id := by
  show (m.table.lookup id).bind (m.make j).view = (m.table.lookup id).bind m.view
  cases hlook : m.table.lookup id with
  | none => rfl
  | some x =>
    obtain ⟨j', hj'⟩ := h.exists_view hlook
    rw [Option.bind_some, Option.bind_some, hj']
    exact view_make_of_some hj' j

/-- A copy reads like the record that it was made of, and is apart from all records of the table. -/
theorem giveOut_spec (h : Tidy m) (id : String) (x : Option Nat) :
    Tidy (m.giveOut x).2 ∧ Changes id m (m.giveOut x).2 ∧ (m.giveOut x).2.clock = m.clock ∧
      (m.giveOut x).2.job? id = m.job? id ∧
      (m.giveOut x).1.reads (m.giveOut x).2 = .job (x.bind m.view) ∧
      (m.giveOut x).1.Loose (m.giveOut x).2 := by
  rw [Memory.giveOut]
  cases hj : x.bind m.view with
  | none => exact ⟨h, .of_eq rfl rfl rfl, rfl, rfl, rfl, trivial⟩
  | some j =>
    refine ⟨h.make j, .make m j, rfl, h.job?_make j id, congrArg Answer.job (view_make m j),
      ⟨j.id, j.status, j.progress, j.step, m.lists.length⟩,
      fun id' ↦ ⟨List.getElem?_concat_length, by simp [Memory.make], ?_⟩⟩
    -- the copy stands behind all records that the table leads to, and so does its list
    intro x' c' hlook hc'
    obtain ⟨c, hc, hlines⟩ := h.inside id' x' hlook
    have hkept : (m.make j).cells[x']? = some c := getElem?_append_of_eq_some hc _
    obtain rfl : c' = c := Option.some.inj (hc'.symm.trans hkept)
    exact ⟨(List.getElem?_eq_some_iff.1 hc).1.ne, hlines.ne⟩

/-- The memory is tidy after the record of an id was written to. -/
theorem Tidy.written (h : Tidy m) (hchanges : Changes id m m') (hlook : m'.table.lookup id = some x)
    (hj : m'.view x = some j) : Tidy m' ∧ m'.job? id = some j := by
  refine ⟨h.changes hchanges fun x' hlook' ↦ ⟨j, ?_⟩, ?_⟩
  · rw [hlook, Option.some.injEq] at hlook'
    rwa [← hlook']
  · rw [Memory.job?, hlook, Option.bind_some, hj]

theorem Tidy.stored (h : Tidy m) (hchanges : Changes id m m') (hlook : m'.table.lookup id = some x)
    (hj : m'.view x = some j) {j' : Job} (hid : j'.id = j.id) (hlog : j'.log = j.log) :
    Tidy (m'.store x j') ∧ Changes id m (m'.store x j') ∧ (m'.store x j').job? id = some j' := by
  have hall := hchanges.trans (.store hlook j')
  obtain ⟨htidy, hjob⟩ := h.written hall hlook (view_store hj hid hlog)
  exact ⟨htidy, hall, hjob⟩

theorem performed_create (h : Tidy m) (id : String) :
    Performed m (.create id) (m.perform (.create id)) := by
  have hlook : (m.enter id { id }).table.lookup id = some m.cells.length := List.lookup_cons_self
  obtain ⟨htidy, hjob⟩ := h.written (.enter m id _) hlook (view_enter m id _)
  obtain ⟨htidy', hchanges, hclock, hjob', hreads, hloose⟩ :=
    giveOut_spec htidy id (some m.cells.length)
  exact ⟨htidy', (Changes.enter m id _).trans hchanges, hclock, hjob'.trans hjob,
    hreads.trans (congrArg Answer.job (view_enter m id _)), hloose⟩

theorem performed_read (h : Tidy m) (id : String) :
    Performed m (.read id) (m.perform (.read id)) := by
  obtain ⟨htidy, hchanges, hclock, hjob, hreads, hloose⟩ :=
    giveOut_spec h id (m.table.lookup id)
  exact ⟨htidy, hchanges, hclock, hjob, hreads, hloose⟩

theorem performed_setStatus (h : Tidy m) (id : String) (status : JobStatus) :
    Performed m (.setStatus id status) (m.perform (.setStatus id status)) := by
  obtain ⟨hchanges, hlook, hj, hclock⟩ := setDefault_spec h id
  obtain ⟨htidy, hall, hjob⟩ := h.stored hchanges hlook hj
    (Job.id_setStatus _ status) (Job.log_setStatus _ status)
  rw [Memory.perform]
  simp only [hj]
  exact ⟨htidy, hall, hclock, hjob, rfl, trivial⟩

theorem performed_append (h : Tidy m) (id message : String) (progress : Option Json)
    (step : Option String) : Performed m (.append id message progress step)
      (m.perform (.append id message progress step)) := by
  obtain ⟨hchanges, hlook, hj, hclock⟩ := addMessage_spec h id message
  have hread : progressFor (((m.job? id).getD { id }).addLine (Job.stampLine m.clock.next message))
      progress = progressFor ((m.job? id).getD { id }) progress := rfl
  rw [Memory.perform]
  simp only [hj, hread]
  cases hprogress : progressFor ((m.job? id).getD { id }) progress with
  | none =>
    obtain ⟨htidy, hall, hjob⟩ :=
      h.stored hchanges hlook hj (Job.id_advance _ none step) (Job.log_advance _ none step)
    refine ⟨htidy, hall, hclock, hjob.trans ?_, ?_, trivial⟩
    · simp only [Action.id, told, hprogress]
    · simp only [Action.id, reply, hprogress, Given.reads]
  | some read =>
    cases read with
    | error fault =>
      obtain ⟨htidy, hjob⟩ := h.written hchanges hlook hj
      refine ⟨htidy, hchanges, hclock, hjob.trans ?_, ?_, trivial⟩
      · simp only [Action.id, told, hprogress]
      · simp only [Action.id, reply, hprogress, Given.reads]
    | ok n =>
      obtain ⟨htidy, hall, hjob⟩ := h.stored hchanges hlook hj
        (Job.id_advance _ (some n) step) (Job.log_advance _ (some n) step)
      refine ⟨htidy, hall, hclock, hjob.trans ?_, ?_, trivial⟩
      · simp only [Action.id, told, hprogress]
      · simp only [Action.id, reply, hprogress, Given.reads]

theorem performed (h : Tidy m) (a : Action) : Performed m a (m.perform a) := by
  cases a with
  | create id => exact performed_create h id
  | append id message progress step => exact performed_append h id message progress step
  | setStatus id status => exact performed_setStatus h id status
  | read id => exact performed_read h id

/-! ### Memory and ledger -/

/-- The table leads to records that read like the jobs of the ledger. -/
structure Represents (m : Memory) (l : Ledger) : Prop where
  tidy : Tidy m
  clock : m.clock = l.clock
  job? : ∀ id, m.job? id = l.job? id

/-- An empty memory stands for an empty ledger. -/
theorem represents_empty (now : Moment) (log : Log) :
    Represents { clock := now } { clock := now, log } where
  tidy := ⟨fun _ _ h ↦ (by cases h), fun _ _ _ _ _ h ↦ (by cases h)⟩
  clock := rfl
  job? _ := rfl

theorem Represents.setJob (h : Represents m l) (id : String) (j : Job) :
    Represents (m.enter id j) (l.setJob id j) := by
  have hlook : (m.enter id j).table.lookup id = some m.cells.length := List.lookup_cons_self
  obtain ⟨htidy, hjob⟩ := h.tidy.written (.enter m id j) hlook (view_enter m id j)
  refine ⟨htidy, h.clock, fun id' ↦ ?_⟩
  by_cases hid : id' = id
  · rw [hid, hjob, job?_setJob]
  · rw [job?_setJob_of_ne hid, ← h.job?]
    exact h.tidy.job?_changes (.enter m id j) hid

/-- Every ledger can stand in memory. -/
theorem exists_represents (l : Ledger) : ∃ m, Represents m l := by
  obtain ⟨history, clock, log⟩ := l
  induction history with
  | nil => exact ⟨_, represents_empty clock log⟩
  | cons entry history ih =>
    obtain ⟨m, hm⟩ := ih
    exact ⟨m.enter entry.1 entry.2, hm.setJob entry.1 entry.2⟩

theorem clock_perform (l : Ledger) (a : Action) :
    (l.perform a).2.clock = clockAfter l.clock a := by
  cases a with
  | create id => rfl
  | append id message progress step =>
    rw [perform, appendReading_eq]
    cases progressFor (l.jobOrNew id) progress with
    | none => rfl
    | some read => cases read <;> rfl
  | setStatus id status =>
    rw [perform, Ledger.setStatus]
    split <;> rfl
  | read id => rfl

/-- **Memory and ledger do the same**, and what the memory gives out reads like what the ledger
answers. -/
theorem Represents.perform (h : Represents m l) (a : Action) :
    Represents (m.perform a).2 (l.perform a).2 ∧
      (m.perform a).1.reads (m.perform a).2 = (l.perform a).1 := by
  have hdone := performed h.tidy a
  obtain ⟨hjob, hanswer⟩ := perform_spec l a
  refine ⟨⟨hdone.tidy, ?_, fun id ↦ ?_⟩, ?_⟩
  · rw [hdone.clock, clock_perform, h.clock]
  · by_cases hid : id = a.id
    · rw [hid, hdone.job, hjob, h.clock, h.job?]
    · rw [job?_perform_of_ne hid, ← h.job?]
      exact h.tidy.job?_changes hdone.changes hid
  · rw [hdone.reads, hanswer, h.job?]

theorem Represents.after (h : Represents m l) (actions : List Action) :
    Represents (m.after actions) (l.after actions) := by
  induction actions generalizing m l with
  | nil => exact h
  | cons a rest ih => exact ih (h.perform a).1

/-- **What was given out reads the same ever after.** -/
theorem reads_after (h : Tidy m) {given : Given} (hloose : given.Loose m) (actions : List Action) :
    given.reads (m.after actions) = given.reads m := by
  induction actions generalizing m with
  | nil => rfl
  | cons a rest ih =>
    have hdone := performed h a
    cases given with
    | done => rfl
    | failed fault => rfl
    | record x =>
      cases x with
      | none => rfl
      | some x =>
        obtain ⟨c, hc⟩ := hloose
        obtain ⟨hc', hview⟩ := h.loose_changes hdone.changes hc
        exact (ih hdone.tidy ⟨c, hc'⟩).trans (congrArg Answer.job hview)

end Docwright.Ledger
