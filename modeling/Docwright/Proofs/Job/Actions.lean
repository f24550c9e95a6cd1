import Docwright.Proofs.Job.Ledger

/-!
# What a job is told

A ledger is asked to create, append to, set the status of and read jobs under any ids (`Action`),
one after the other (`after`). An action on one id leaves all other jobs alone
(`job?_perform_of_ne`), and of the job itself it makes what `told` says (`perform_spec`). The clock
has a say in nothing but the stamp of a line.

Without their stamps the lines of a log are the messages, so a job is up to its stamps a function of
the actions that are addressed to it, whatever else goes on in the ledger (`unstamped_after`). What
an action cannot do to a job that is there is `Continues`; it is kept by a whole run
(`exists_after`).
-/

namespace Docwright

namespace Job

/-- A message with the time of a moment in front. -/
def stampLine (now : Moment) (message : String) : String :=
  s!"[{now.timeOfDay}] {message}"

/-- A line without its stamp, which takes eleven characters. -/
def messageOf (line : String) : String :=
  String.ofList (line.toList.drop 11)

/-- The job with its log as bare messages. -/
def unstamped (j : Job) : Job :=
  { j with log := j.log.map messageOf }

theorem length_padded_two {n : Nat} (h : n < 100) : (Number.padded 2 n).length = 2 := by
  have hall : ∀ n < 100, (Number.padded 2 n).length = 2 := by decide +kernel
  exact hall n h

theorem length_timeOfDay (now : Moment) : now.timeOfDay.length = 8 := by
  have hhour : now.seconds % 86400 / 3600 < 100 := by omega
  have hminute : now.seconds % 86400 / 60 % 60 < 100 := by omega
  have hsecond : now.seconds % 86400 % 60 < 100 := by omega
  simp only [Moment.timeOfDay, String.length_append, length_padded_two hhour,
    length_padded_two hminute, length_padded_two hsecond]
  rfl

/-- **The message of a stamped line.** -/
@[simp] theorem messageOf_stampLine (now : Moment) (message : String) :
    messageOf (stampLine now message) = message := by
  have hline : (stampLine now message).toList
      = ('[' :: now.timeOfDay.toList ++ [']', ' ']) ++ message.toList := by
    rw [stampLine, show s!"[{now.timeOfDay}] {message}"
      = "[" ++ now.timeOfDay ++ "] " ++ message from rfl]
    simp
  have hlength : ('[' :: now.timeOfDay.toList ++ [']', ' ']).length = 11 := by
    rw [List.length_append, List.length_cons, String.length_toList, length_timeOfDay]
    rfl
  rw [messageOf, hline, ← hlength, List.drop_left, String.ofList_toList]

@[simp] theorem id_advance (j : Job) (progress : Option Int) (step : Option String) :
    (j.advance progress step).id = j.id := by
  unfold advance
  split <;> rfl

@[simp] theorem id_setStatus (j : Job) (status : JobStatus) : (j.setStatus status).id = j.id := by
  unfold setStatus
  split <;> rfl

end Job

namespace Ledger

/-- What a ledger may be asked to do. -/
inductive Action
  | create (id : String)
  | append (id message : String) (progress : Option Json) (step : Option String)
  | setStatus (id : String) (status : JobStatus)
  | read (id : String)

namespace Action

/-- The id that an action is addressed to. -/
def id : Action → String
  | create id => id
  | append id .. => id
  | setStatus id _ => id
  | read id => id

/-- The message that an action adds to the log of its job. -/
def message? : Action → Option String
  | append _ message .. => some message
  | _ => none

end Action

/-- What is given back. -/
inductive Answer
  | done
  /-- The progress is no number. -/
  | failed (fault : Number.Fault)
  /-- The job as it is, if there is one. -/
  | job (j : Option Job)

/-- Does what is asked. -/
def perform (l : Ledger) : Action → Answer × Ledger
  | .create id => (.job ((l.create id).job? id), l.create id)
  | .append id message progress step =>
    match l.appendReading id message progress step with
    | (.ok _, l) => (.done, l)
    | (.error fault, l) => (.failed fault, l)
  | .setStatus id status => (.done, l.setStatus id status)
  | .read id => (.job (l.job? id), l)

/-- The ledger after some actions. -/
def after (l : Ledger) (actions : List Action) : Ledger :=
  actions.foldl (fun l a ↦ (l.perform a).2) l

/-- The progress that a job is to take on: none when it is over or none is given. -/
def progressFor (j : Job) (progress : Option Json) : Option (Except Number.Fault Int) :=
  if j.status.isTerminal then none else progress.map Json.toWhole

/-- **What an action makes of its job**, if there is one, when `line` is the line of a message. -/
def told (line : String → String) (j : Option Job) : Action → Option Job
  | .create id => some { id }
  | .append id message progress step =>
    let j := j.getD { id }
    some <|
      match progressFor j progress with
      | some (.error _) => j.addLine (line message)
      | some (.ok n) => (j.addLine (line message)).advance (some n) step
      | none => (j.addLine (line message)).advance none step
  | .setStatus id status => some ((j.getD { id }).setStatus status)
  | .read _ => j

/-- What an action gives back, by what its job is. -/
def reply (j : Option Job) : Action → Answer
  | .create id => .job (some { id })
  | .append id _ progress _ =>
    match progressFor (j.getD { id }) progress with
    | some (.error fault) => .failed fault
    | _ => .done
  | .setStatus .. => .done
  | .read _ => .job j

/-! ### One action -/

variable {l : Ledger} {id : String} {a : Action} {j j' : Job} {line : String → String}

theorem job?_setJob_of_ne {id' : String} (h : id' ≠ id) (l : Ledger) (j : Job) :
    (l.setJob id j).job? id' = l.job? id' := by
  rw [job?, setJob, List.lookup_cons, beq_eq_false_iff_ne.2 h]
  rfl

theorem job?_append (l : Ledger) (id message : String) (progress : Option Int)
    (step : Option String) :
    (l.append id message progress step).job? id = some
      (((l.jobOrNew id).addLine (Job.stampLine l.clock.next message)).advance progress step) :=
  job?_setJob l.tick id _

theorem job?_append_of_ne {id' : String} (h : id' ≠ id) (l : Ledger) (message : String)
    (progress : Option Int) (step : Option String) :
    (l.append id message progress step).job? id' = l.job? id' :=
  job?_setJob_of_ne h l.tick _

/-- The three ways in which appending goes, by what is read of the progress. -/
theorem appendReading_eq (l : Ledger) (id message : String) (progress : Option Json)
    (step : Option String) :
    l.appendReading id message progress step =
      match progressFor (l.jobOrNew id) progress with
      | some (.error fault) => (.error fault, l.tick.setJob id
          ((l.jobOrNew id).addLine (Job.stampLine l.clock.next message)))
      | some (.ok n) =>
        (.ok (l.append id message (some n) step), l.append id message (some n) step)
      | none => (.ok (l.append id message none step), l.append id message none step) := by
  have hended : ((l.job? id).map (·.status.isTerminal)).getD false
      = (l.jobOrNew id).status.isTerminal := by
    rw [jobOrNew]
    cases l.job? id <;> rfl
  rw [appendReading, hended, progressFor]
  rfl

/-- **An action makes of its job what `told` says**, and gives back what `reply` says. -/
theorem perform_spec (l : Ledger) (a : Action) :
    (l.perform a).2.job? a.id = told (Job.stampLine l.clock.next) (l.job? a.id) a ∧
      (l.perform a).1 = reply (l.job? a.id) a := by
  cases a with
  | create id => exact ⟨job?_setJob l id _, congrArg Answer.job (job?_setJob l id _)⟩
  | append id message progress step =>
    have hjob : (l.job? id).getD { id } = l.jobOrNew id := rfl
    rw [perform, appendReading_eq, told, reply, Action.id, hjob]
    cases progressFor (l.jobOrNew id) progress with
    | none => exact ⟨job?_append l id message none step, rfl⟩
    | some read =>
      cases read with
      | error fault => exact ⟨job?_setJob l.tick id _, rfl⟩
      | ok n => exact ⟨job?_append l id message (some n) step, rfl⟩
  | setStatus id status =>
    refine ⟨?_, rfl⟩
    rw [perform, Ledger.setStatus]
    split
    · exact job?_setJob l id _
    · exact job?_setJob l id _
  | read id => exact ⟨rfl, rfl⟩

/-- **An action leaves every other job as it is.** -/
theorem job?_perform_of_ne (h : id ≠ a.id) : (l.perform a).2.job? id = l.job? id := by
  cases a with
  | create id' => exact job?_setJob_of_ne h l _
  | append id' message progress step =>
    rw [perform, appendReading_eq]
    cases progressFor (l.jobOrNew id') progress with
    | none => exact job?_append_of_ne h l message none step
    | some read =>
      cases read with
      | error fault => exact job?_setJob_of_ne h l.tick _
      | ok n => exact job?_append_of_ne h l message (some n) step
  | setStatus id' status =>
    rw [perform, Ledger.setStatus]
    split
    · exact job?_setJob_of_ne h l _
    · exact job?_setJob_of_ne h l _
  | read id' => rfl

/-- The ledger after an action and some more. -/
theorem after_cons (l : Ledger) (a : Action) (rest : List Action) :
    l.after (a :: rest) = (l.perform a).2.after rest :=
  rfl

theorem after_append (l : Ledger) (earlier later : List Action) :
    l.after (earlier ++ later) = (l.after earlier).after later :=
  List.foldl_append

/-! ### What stays of a job -/

/-- From one state of a job to another these lines are added to the log. The progress keeps its
bounds, and nothing but the log changes once the job is over. -/
structure Continues (lines : List String) (j j' : Job) : Prop where
  log : j'.log = j.log ++ lines
  bounded : 0 ≤ j.progress ∧ j.progress ≤ 100 → 0 ≤ j'.progress ∧ j'.progress ≤ 100
  frozen : j.status.isTerminal = true →
    j'.status = j.status ∧ j'.progress = j.progress ∧ j'.step = j.step

namespace Continues

variable {lines : List String}

theorem refl (j : Job) : Continues [] j j :=
  ⟨(List.append_nil _).symm, fun h ↦ h, fun _ ↦ ⟨rfl, rfl, rfl⟩⟩

theorem trans {j₁ j₂ j₃ : Job} {lines' : List String} (h : Continues lines j₁ j₂)
    (h' : Continues lines' j₂ j₃) : Continues (lines ++ lines') j₁ j₃ := by
  refine ⟨by rw [h'.log, h.log, List.append_assoc], fun hin ↦ h'.bounded (h.bounded hin),
    fun hover ↦ ?_⟩
  obtain ⟨hstatus, hprogress, hstep⟩ := h.frozen hover
  obtain ⟨hstatus', hprogress', hstep'⟩ := h'.frozen (by rw [hstatus, hover])
  exact ⟨hstatus'.trans hstatus, hprogress'.trans hprogress, hstep'.trans hstep⟩

theorem addLine (h : Continues lines j j') (line : String) :
    Continues (lines ++ [line]) j (j'.addLine line) :=
  h.trans ⟨rfl, fun hin ↦ hin, fun _ ↦ ⟨rfl, rfl, rfl⟩⟩

theorem advance (h : Continues lines j j') (progress : Option Int) (step : Option String) :
    Continues lines j (j'.advance progress step) := by
  have hstep : Continues [] j' (j'.advance progress step) := by
    refine ⟨by rw [Job.log_advance, List.append_nil], fun hin ↦ ?_, fun hover ↦ ?_⟩
    · cases hover : j'.status.isTerminal with
      | true =>
        rw [Job.advance, if_pos hover]
        exact hin
      | false =>
        rw [Job.advance_of_not_terminal hover]
        cases progress with
        | none => exact hin
        | some n =>
          show 0 ≤ Job.clamp n ∧ Job.clamp n ≤ 100
          unfold Job.clamp
          omega
    · rw [Job.advance, if_pos hover]
      exact ⟨rfl, rfl, rfl⟩
  simpa using h.trans hstep

theorem setStatus (h : Continues lines j j') (status : JobStatus) :
    Continues lines j (j'.setStatus status) := by
  have hset : Continues [] j' (j'.setStatus status) := by
    refine ⟨by rw [Job.log_setStatus, List.append_nil], fun hin ↦ ?_, fun hover ↦ ?_⟩
    · rw [Job.setStatus]
      split
      · exact hin
      · exact hin
    · rw [Job.setStatus, if_pos hover]
      exact ⟨rfl, rfl, rfl⟩
  simpa using h.trans hset

end Continues

/-- A job that is told anything but to start afresh goes on, with a line if there is a message. -/
theorem exists_told (line : String → String) (j : Job) (h : a ≠ .create a.id) :
    ∃ j', told line (some j) a = some j' ∧ Continues (a.message?.map line).toList j j' := by
  cases a with
  | create id => exact absurd rfl h
  | append id message progress step =>
    have hline : Continues [line message] j (j.addLine (line message)) :=
      (Continues.refl j).addLine (line message)
    rw [told, Option.getD_some]
    cases progressFor j progress with
    | none => exact ⟨_, rfl, hline.advance none step⟩
    | some read =>
      cases read with
      | error fault => exact ⟨_, rfl, hline⟩
      | ok n => exact ⟨_, rfl, hline.advance (some n) step⟩
  | setStatus id status => exact ⟨_, rfl, (Continues.refl j).setStatus status⟩
  | read id => exact ⟨j, rfl, Continues.refl j⟩

/-- The actions that are addressed to an id, in order. -/
def addressed (id : String) (actions : List Action) : List Action :=
  actions.filter (·.id == id)

/-- The messages that are added to the log of a job, in order. -/
def messagesTo (id : String) (actions : List Action) : List String :=
  (addressed id actions).filterMap Action.message?

theorem addressed_cons_of_eq (h : a.id = id) (rest : List Action) :
    addressed id (a :: rest) = a :: addressed id rest :=
  List.filter_cons_of_pos (by simpa using h)

theorem addressed_cons_of_ne (h : a.id ≠ id) (rest : List Action) :
    addressed id (a :: rest) = addressed id rest :=
  List.filter_cons_of_neg (by simpa using h)

/-- The line is a message with some time in front. -/
def IsStamped (line message : String) : Prop :=
  ∃ now, line = Job.stampLine now message

/-- **A job goes on through all actions** that do not start it afresh, with a stamped line for every
message to it. -/
theorem exists_after {actions : List Action} (hkept : .create id ∉ actions)
    (hj : l.job? id = some j) :
    ∃ j' lines, (l.after actions).job? id = some j' ∧ Continues lines j j' ∧
      List.Forall₂ IsStamped lines (messagesTo id actions) := by
  induction actions generalizing l j with
  | nil => exact ⟨j, [], hj, .refl j, List.Forall₂.nil⟩
  | cons a rest ih =>
    have hrest : .create id ∉ rest := fun h ↦ hkept (List.mem_cons_of_mem _ h)
    rw [after_cons, messagesTo]
    by_cases hid : a.id = id
    · subst hid
      have hne : a ≠ .create a.id := fun heq ↦ hkept (by rw [← heq]; exact List.mem_cons_self)
      obtain ⟨j', htold, hcontinues⟩ := exists_told (Job.stampLine l.clock.next) j hne
      have hnext : (l.perform a).2.job? a.id = some j' := by
        rw [(perform_spec l a).1, hj, htold]
      obtain ⟨last, lines, hlast, hgoes, hlines⟩ := ih hrest hnext
      refine ⟨last, _, hlast, hcontinues.trans hgoes, ?_⟩
      rw [addressed_cons_of_eq rfl]
      cases hmessage : a.message? with
      | none =>
        rw [List.filterMap_cons_none hmessage]
        exact hlines
      | some message =>
        rw [List.filterMap_cons_some hmessage]
        exact .cons ⟨l.clock.next, rfl⟩ hlines
    · rw [addressed_cons_of_ne hid]
      exact ih hrest (by rw [job?_perform_of_ne (Ne.symm hid), hj])

/-! ### Up to the stamps -/

theorem unstamped_addLine (j : Job) (now : Moment) (message : String) :
    (j.addLine (Job.stampLine now message)).unstamped = j.unstamped.addLine message := by
  simp [Job.unstamped, Job.addLine]

theorem unstamped_advance (j : Job) (progress : Option Int) (step : Option String) :
    (j.advance progress step).unstamped = j.unstamped.advance progress step := by
  rw [Job.advance, Job.advance]
  exact apply_ite Job.unstamped ..

theorem unstamped_setStatus (j : Job) (status : JobStatus) :
    (j.setStatus status).unstamped = j.unstamped.setStatus status := by
  rw [Job.setStatus, Job.setStatus]
  exact apply_ite Job.unstamped ..

/-- The clock has no say in anything but the stamps. -/
theorem unstamped_told (now : Moment) (j : Option Job) (a : Action) :
    (told (Job.stampLine now) j a).map Job.unstamped
      = told (fun message ↦ message) (j.map Job.unstamped) a := by
  have hjob : ∀ id, ((j.map Job.unstamped).getD { id }) = (j.getD { id }).unstamped := fun id ↦ by
    cases j <;> rfl
  cases a with
  | create id => rfl
  | append id message progress step =>
    rw [told, told, hjob, Option.map_some]
    have hread : progressFor (j.getD { id }).unstamped progress
        = progressFor (j.getD { id }) progress := rfl
    rw [hread]
    cases progressFor (j.getD { id }) progress with
    | none => simp only [unstamped_advance, unstamped_addLine]
    | some read =>
      cases read with
      | error fault => simp only [unstamped_addLine]
      | ok n => simp only [unstamped_advance, unstamped_addLine]
  | setStatus id status => rw [told, told, hjob, Option.map_some, unstamped_setStatus]
  | read id => rfl

/-- **Up to its stamps a job is a function of the actions that are addressed to it.** -/
theorem unstamped_after (l : Ledger) (id : String) (actions : List Action) :
    ((l.after actions).job? id).map Job.unstamped
      = (addressed id actions).foldl (told fun message ↦ message)
        ((l.job? id).map Job.unstamped) := by
  induction actions generalizing l with
  | nil => rfl
  | cons a rest ih =>
    rw [after_cons, ih]
    by_cases hid : a.id = id
    · subst hid
      rw [addressed_cons_of_eq rfl, List.foldl_cons, (perform_spec l a).1, unstamped_told]
    · rw [addressed_cons_of_ne hid, job?_perform_of_ne (Ne.symm hid)]

end Ledger

end Docwright
