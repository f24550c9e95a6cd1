import Docwright.Proofs.Json.Limits
import Docwright.Proofs.Service.Address
import Docwright.Proofs.Text.Wellformed
import Docwright.Service.Endpoint

/-!
# What leaves the endpoint

Callers of the service are told of a text, of a failure that may pass and of one that is final
(`Expected`). Whatever else leaves the endpoint ends the work of the caller. `Escapes` lists where
it can come from: the request cannot be written, the answer is too much to read, reading the data of
a failure breaks down, the patience that ran out cannot be written, or the connection fails in a way
of its own.

`behaviour_eq_crashed_iff` says that the list is complete and that nothing in it is spurious,
whatever comes back from a request. The cases follow the order in which the endpoint works: a
response plays a part only once the request has been written (`Writable`), and it is the response to
that request.
-/

namespace Docwright.Service

/-- What callers of the service are told of. -/
inductive Expected : Except (Failure Float) String → Prop
  | text (s : String) : Expected (.ok s)
  | rateLimited (message : String) (hint : Option Float) :
    Expected (.error (.rateLimited message hint))
  | transient (message : String) (status : Option Int) :
    Expected (.error (.transient message status))
  | permanent (message : String) (status : Option Int) :
    Expected (.error (.permanent message status))

theorem expected_iff {r : Except (Failure Float) String} :
    Expected r ↔ ∀ crash, r ≠ .error (.crashed crash) := by
  constructor
  · rintro ⟨⟩ crash ⟨⟩
  · intro h
    match r, h with
    | .ok s, _ => exact .text s
    | .error (.rateLimited message hint), _ => exact .rateLimited message hint
    | .error (.transient message status), _ => exact .transient message status
    | .error (.permanent message status), _ => exact .permanent message status
    | .error (.crashed crash), h => exact absurd rfl (h crash)

/-! ### Requests -/

namespace Endpoint

variable {e : Endpoint} {q : Question}

/-- The request for a question can be written. -/
structure Writable (e : Endpoint) (q : Question) : Prop where
  numbers : ∀ n ∈ e.numbers q, n.isTooLong = false
  scheme : HasScheme e.url.toList
  place : ∀ fault, ¬Misplaced e.place fault

/-- Why the request for a question is not written, and what is said of it. -/
inductive Unwritten (e : Endpoint) (q : Question) : Crash → Prop
  /-- A number of the request has too many digits. -/
  | number {n : Number.Numeral} (hn : n ∈ e.numbers q) (hlong : n.isTooLong = true) :
    Unwritten e q .tooLongToWrite
  /-- The address has no scheme. -/
  | scheme (hnumbers : ∀ n ∈ e.numbers q, n.isTooLong = false) (h : ¬HasScheme e.url.toList) :
    Unwritten e q (.addressWithoutScheme e.url)
  /-- The place that the address names cannot be read. -/
  | place {fault : PlaceFault} (hnumbers : ∀ n ∈ e.numbers q, n.isTooLong = false)
    (hscheme : HasScheme e.url.toList) (h : Misplaced e.place fault) :
    Unwritten e q (.badValue fault.message)

theorem Writable.request_eq (h : Writable e q) : e.request q = .ok (e.sent q) := by
  have hnumbers : ¬(e.numbers q).any (·.isTooLong) = true := by simpa using h.numbers
  have hplace : Address.placeFault? e.place = none :=
    Option.eq_none_iff_forall_ne_some.mpr fun fault hfault ↦
      h.place fault (placeFault?_eq_some_iff.mp hfault)
  rw [request, if_neg hnumbers, if_neg (by simpa using hasScheme_iff.mpr h.scheme), hplace]

theorem Unwritten.request_eq {crash : Crash} (h : Unwritten e q crash) :
    e.request q = .error crash := by
  have hnot (hnumbers : ∀ n ∈ e.numbers q, n.isTooLong = false) :
      ¬(e.numbers q).any (·.isTooLong) = true := by simpa using hnumbers
  cases h with
  | number hn hlong => rw [request, if_pos (List.any_eq_true.mpr ⟨_, hn, hlong⟩)]
  | scheme hnumbers h =>
    rw [request, if_neg (hnot hnumbers), if_pos (by simpa using mt hasScheme_iff.mp h)]
  | place hnumbers hscheme h =>
    rw [request, if_neg (hnot hnumbers), if_neg (by simpa using hasScheme_iff.mpr hscheme),
      placeFault?_eq_some_iff.mpr h]

theorem writable_or_unwritten (e : Endpoint) (q : Question) :
    Writable e q ∨ ∃ crash, Unwritten e q crash := by
  by_cases hnumbers : ∀ n ∈ e.numbers q, n.isTooLong = false
  · by_cases hscheme : HasScheme e.url.toList
    · by_cases hplace : ∀ fault, ¬Misplaced e.place fault
      · exact .inl ⟨hnumbers, hscheme, hplace⟩
      · obtain ⟨fault, hfault⟩ := not_forall_not.mp hplace
        exact .inr ⟨_, .place hnumbers hscheme hfault⟩
    · exact .inr ⟨_, .scheme hnumbers hscheme⟩
  · obtain ⟨n, hn, hlong⟩ : ∃ n ∈ e.numbers q, n.isTooLong = true := by simpa using hnumbers
    exact .inr ⟨_, .number hn hlong⟩

/-- What a response makes of the endpoint that callers are not told of. -/
inductive Spoils (e : Endpoint) : Response → Crash → Prop
  /-- A whole number in the answer has too many digits. -/
  | digits {cs : List Char} {digits : Nat} (hparse : Json.parse cs = .error (.tooLong digits)) :
    Spoils e (.answered (Text.Utf8.encode cs)) (.badNumber (.tooLong digits))
  /-- The values in the answer are nested too deeply. -/
  | depth {cs : List Char} {kind : String} (hparse : Json.parse cs = .error (.tooDeep kind)) :
    Spoils e (.answered (Text.Utf8.encode cs)) (.tooDeep kind)
  /-- The data of a failure break off, or are not in the form of the protocol. -/
  | lost {status : Int} {b : Breakdown} {headers : List (String × String)} {reason words : String}
    (hwords : b.protocolWords? = some words) :
    Spoils e (.interrupted status b headers reason) (.lostAnswer words)
  /-- Nothing came in time, and the time that was waited has too many digits. -/
  | patience {b : Breakdown} (hb : b.isTimeout = true) (hlong : e.patience.isTooLong = true) :
    Spoils e (.broken b) .tooLongToWrite
  /-- The connection fails in a way of its own. -/
  | broken {crash : Crash} : Spoils e (.broken (.other crash)) crash
  /-- Reading the data of a failure fails in a way of its own. -/
  | interrupted {status : Int} {crash : Crash} {headers : List (String × String)}
    {reason : String} : Spoils e (.interrupted status (.other crash) headers reason) crash

/-- What leaves the endpoint that callers are not told of, and where it comes from, when requests
are responded to by `respond`. -/
inductive Escapes (e : Endpoint) (q : Question) (respond : Request → Response) : Crash → Prop
  /-- The request is not written. -/
  | request {crash : Crash} (h : Unwritten e q crash) : Escapes e q respond crash
  /-- The request is sent, and what came back is not expected. -/
  | response {crash : Crash} (h : Writable e q) (hr : Spoils e (respond (e.sent q)) crash) :
    Escapes e q respond crash

end Endpoint

/-! ### Responses -/

theorem Breakdown.loss?_eq_some_iff {b : Breakdown} {crash : Crash} :
    b.loss? = some crash ↔
      b = .other crash ∨ ∃ words, b.protocolWords? = some words ∧ .lostAnswer words = crash := by
  cases b with
  | other found => simp [loss?, protocolWords?]
  | _ => simp only [loss?, Option.map_eq_some_iff, reduceCtorEq, false_or]

namespace Response

theorem refusal_ne_crashed (status : Int) (body : Option (List UInt8))
    (headers : List (String × String)) (reason : String) (crash : Crash) :
    refusal status body headers reason ≠ .crashed crash := by
  unfold refusal
  dsimp only
  split
  · exact nofun
  · split <;> exact nofun

theorem reading_eq_crashed_iff {body : List UInt8} {crash : Crash} :
    reading body = .error (.crashed crash) ↔
      ∃ cs fault, body = Text.Utf8.encode cs ∧ Json.parse cs = .error fault ∧
        Crash.ofJson? fault = some crash := by
  constructor
  · fun_cases reading body
    case case2 cs htext fault hparse found hfound =>
      rintro ⟨⟩
      exact ⟨cs, fault, Text.Utf8.decode?_eq_ok_iff.mp htext, hparse, hfound⟩
    all_goals exact nofun
  · rintro ⟨cs, fault, rfl, hparse, hcrash⟩
    simp only [reading, Text.Utf8.decode?_encode, hparse, hcrash]

theorem interruption_eq_crashed_iff {status : Int} {b : Breakdown}
    {headers : List (String × String)} {reason : String} {crash : Crash} :
    interruption status b headers reason = .crashed crash ↔ b.loss? = some crash := by
  rw [interruption]
  cases b.loss? with
  | none => exact iff_of_false (refusal_ne_crashed _ _ _ _ _) nofun
  | some found => rw [Failure.crashed.injEq, Option.some.injEq]

theorem breakdownFailure_eq_crashed_iff {patience : Number.Numeral} {b : Breakdown}
    {crash : Crash} :
    breakdownFailure patience b = .crashed crash ↔
      b = .other crash ∨
        b.isTimeout = true ∧ patience.isTooLong = true ∧ crash = .tooLongToWrite := by
  have hother (hb : b.isTimeout = true) : b ≠ .other crash := by
    rintro rfl
    cases hb
  fun_cases breakdownFailure patience b
  case case1 hlong hb => simp [hlong, hb, hother hb, eq_comm]
  case case2 hlong hb => simp [hlong, hb, hother hb]
  case case3 => simp [Breakdown.isTimeout]
  all_goals simp_all

end Response

/-! ### The endpoint as a whole -/

namespace Endpoint

variable {e : Endpoint} {q : Question}

theorem spoils_answered_iff {body : List UInt8} {crash : Crash} :
    Spoils e (.answered body) crash ↔
      ∃ cs fault, body = Text.Utf8.encode cs ∧ Json.parse cs = .error fault ∧
        Crash.ofJson? fault = some crash := by
  constructor
  · rintro (hparse | hparse)
    · exact ⟨_, _, rfl, hparse, rfl⟩
    · exact ⟨_, _, rfl, hparse, rfl⟩
  · rintro ⟨cs, fault, rfl, hparse, hcrash⟩
    cases fault with
    | malformed left => cases hcrash
    | tooLong digits =>
      cases hcrash
      exact .digits hparse
    | tooDeep kind =>
      cases hcrash
      exact .depth hparse

theorem spoils_interrupted_iff {status : Int} {b : Breakdown} {headers : List (String × String)}
    {reason : String} {crash : Crash} :
    Spoils e (.interrupted status b headers reason) crash ↔ b.loss? = some crash := by
  rw [Breakdown.loss?_eq_some_iff]
  constructor
  · intro h
    cases h with
    | lost hwords => exact .inr ⟨_, hwords, rfl⟩
    | interrupted => exact .inl rfl
  · rintro (rfl | ⟨words, hwords, rfl⟩)
    · exact .interrupted
    · exact .lost hwords

theorem spoils_broken_iff {b : Breakdown} {crash : Crash} :
    Spoils e (.broken b) crash ↔
      b = .other crash ∨
        b.isTimeout = true ∧ e.patience.isTooLong = true ∧ crash = .tooLongToWrite := by
  constructor
  · intro h
    cases h with
    | patience hb hlong => exact .inr ⟨hb, hlong, rfl⟩
    | broken => exact .inl rfl
  · rintro (rfl | ⟨hb, hlong, rfl⟩)
    · exact .broken
    · exact .patience hb hlong

theorem answer_eq_crashed_iff {r : Response} {crash : Crash} :
    e.answer r = .error (.crashed crash) ↔ Spoils e r crash := by
  cases r with
  | answered body => exact Response.reading_eq_crashed_iff.trans spoils_answered_iff.symm
  | refused status body headers reason =>
    rw [answer, Except.error.injEq]
    exact iff_of_false (Response.refusal_ne_crashed _ _ _ _ _) nofun
  | interrupted status b headers reason =>
    rw [answer, Except.error.injEq]
    exact Response.interruption_eq_crashed_iff.trans spoils_interrupted_iff.symm
  | broken b =>
    rw [answer, Except.error.injEq]
    exact Response.breakdownFailure_eq_crashed_iff.trans spoils_broken_iff.symm

/-- **What leaves the endpoint that callers are not told of is exactly what is listed.** -/
theorem behaviour_eq_crashed_iff (responses : Transport) (n : Nat) {crash : Crash} :
    e.behaviour responses n q = .error (.crashed crash) ↔ Escapes e q (responses n) crash := by
  rw [behaviour]
  rcases writable_or_unwritten e q with hwritable | ⟨found, hfound⟩
  · rw [hwritable.request_eq]
    refine answer_eq_crashed_iff.trans ⟨.response hwritable, ?_⟩
    rintro (h | ⟨-, hr⟩)
    · exact absurd (hwritable.request_eq.symm.trans h.request_eq) nofun
    · exact hr
  · rw [hfound.request_eq]
    constructor
    · rintro ⟨⟩
      exact .request hfound
    · rintro (h | ⟨hwritable, -⟩)
      · rw [Except.error.inj (hfound.request_eq.symm.trans h.request_eq)]
      · exact absurd (hwritable.request_eq.symm.trans hfound.request_eq) nofun

end Endpoint

/-- **Callers are told of everything but what is listed**, wherever the endpoint is, whatever it is
asked and whatever comes back. In particular they are told of everything that comes of a request
which can be written and of an answer which is not too much to read. -/
theorem expected_behaviour_iff (e : Endpoint) (responses : Transport) (n : Nat) (q : Question) :
    (Expected (e.behaviour responses n q) ↔ ∀ crash, ¬e.Escapes q (responses n) crash) ∧
      (∀ crash, e.behaviour responses n q = .error (.crashed crash) ↔
        e.Escapes q (responses n) crash) ∧
      ∀ body, responses n (e.sent q) = .answered body → e.Writable q →
        (∀ cs, body = Text.Utf8.encode cs → Json.Moderate cs) →
        Expected (e.behaviour responses n q) := by
  have hexpected : Expected (e.behaviour responses n q) ↔
      ∀ crash, ¬e.Escapes q (responses n) crash := by
    simp only [expected_iff, ne_eq, Endpoint.behaviour_eq_crashed_iff]
  refine ⟨hexpected, fun crash ↦ Endpoint.behaviour_eq_crashed_iff responses n, ?_⟩
  intro body hbody hwritable hmoderate
  refine hexpected.mpr fun crash hcrash ↦ ?_
  rcases hcrash with hunwritten | ⟨-, hr⟩
  · exact absurd (hwritable.request_eq.symm.trans hunwritten.request_eq) nofun
  · rw [hbody] at hr
    obtain ⟨cs, fault, htext, hparse, hcrash⟩ := Endpoint.spoils_answered_iff.mp hr
    obtain ⟨left, rfl⟩ := (hmoderate cs htext).eq_malformed hparse
    cases hcrash

/-- No question gets through to the address `api.x.ai/v1`, which has no scheme. -/
theorem not_expected_behaviour_schemeless :
    let bare : Endpoint := EndpointSettings.complete { address := some "api.x.ai/v1" } []
    ¬Expected (bare.behaviour (fun _ _ ↦ .answered []) 0 { prompt := "hi" }) := by
  intro bare hexpected
  have hnone := (expected_behaviour_iff bare (fun _ _ ↦ .answered []) 0 { prompt := "hi" }).1.mp
  have hnumbers : ∀ n ∈ bare.numbers { prompt := "hi" }, n.isTooLong = false := by
    decide +kernel
  have hscheme : ¬HasScheme bare.url.toList := mt hasScheme_iff.mpr (by decide +kernel)
  exact hnone hexpected _ (.request (.scheme hnumbers hscheme))

end Docwright.Service
