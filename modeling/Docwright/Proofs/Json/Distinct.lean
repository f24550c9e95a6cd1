import Docwright.Json.Reader
import Docwright.Proofs.Json.Fields

/-!
# Names in structured data that has been read

A name may be repeated in the text of an object; then its last value counts, and in the value that
is read the name stands once. `distinct_parse` says so of every object at any depth, so that looking
a name up, or dropping fields before doing so, does not depend on the order of the fields.
-/

namespace Docwright.Json

/-- No object in the value repeats a name. -/
inductive Distinct : Json → Prop
  | null : Distinct .null
  | bool (b : Bool) : Distinct (.bool b)
  | number (n : Number.Numeral) : Distinct (.number n)
  | text (s : String) : Distinct (.text s)
  | array {items : List Json} (inner : ∀ item ∈ items, Distinct item) : Distinct (.array items)
  | object {fields : List (String × Json)} (names : (fields.map Prod.fst).Nodup)
    (inner : ∀ f ∈ fields, Distinct f.2) : Distinct (.object fields)

/-- The value that a reader gives, if any, repeats no name. -/
def ReadsDistinct (r : Except Fault (Json × List Char)) : Prop :=
  ∀ j rest, r = .ok (j, rest) → j.Distinct

variable {j : Json} {cs rest : List Char} {found : List (String × Json)} {items : List Json}

/-! ### Parts of a value -/

theorem Distinct.setField (h : (Json.object found).Distinct) {value : Json}
    (hvalue : value.Distinct) (name : String) :
    (Json.object (Json.setField found name value)).Distinct := by
  cases h with
  | object names inner =>
    refine .object (nodup_setField names name value) fun f hf ↦ ?_
    rcases mem_setField hf with rfl | hf
    · exact hvalue
    · exact inner f hf

theorem Distinct.field? (h : j.Distinct) {name : String} {value : Json}
    (hvalue : j.field? name = some value) : value.Distinct := by
  cases h with
  | object names inner =>
    obtain ⟨before, after, hsplit, -⟩ := List.lookup_eq_some_iff.1 hvalue
    exact inner (name, value) (hsplit ▸ List.mem_append_right _ List.mem_cons_self)
  | _ => cases hvalue

theorem distinct_array_reverse (h : ∀ item ∈ items, item.Distinct) :
    (Json.array items.reverse).Distinct :=
  .array fun item hitem ↦ h item (List.mem_reverse.1 hitem)

theorem readsDistinct_readNumber (cs : List Char) : ReadsDistinct (readNumber cs) := by
  intro j rest
  fun_cases readNumber cs
  case case3 =>
    rintro ⟨⟩
    exact .number _
  case case4 =>
    rintro ⟨⟩
    exact .number _
  all_goals exact nofun

theorem distinct_wordValues : ∀ w ∈ wordValues, w.2.Distinct := by
  simp only [wordValues, List.forall_mem_cons, List.not_mem_nil, false_imp_iff, implies_true,
    and_true]
  exact ⟨.null, .bool true, .bool false, .number _, .number _, .number _⟩

theorem readsDistinct_readScalar (cs : List Char) : ReadsDistinct (readScalar cs) := by
  intro j rest h
  rw [readScalar] at h
  split at h
  case h_1 word value hword =>
    cases h
    exact distinct_wordValues _ (List.mem_of_find?_eq_some hword)
  case h_2 => exact readsDistinct_readNumber cs j rest h

/-! ### Whole values -/

section Step

/-! What one step more reads, given what is known of the steps before it. -/

variable {fuel : Nat}
  (hvalue : ∀ depth cs, ReadsDistinct (readValue fuel depth cs))
  (hitems : ∀ depth found cs, (∀ item ∈ found, item.Distinct) →
    ReadsDistinct (readItems fuel depth found cs))
  (hfields : ∀ depth found cs, (Json.object found).Distinct →
    ReadsDistinct (readFields fuel depth found cs))

include hitems hfields in
theorem readsDistinct_readValue_succ (depth : Nat) (cs : List Char) :
    ReadsDistinct (readValue (fuel + 1) depth cs) := by
  have hempty : (Json.object []).Distinct := .object List.nodup_nil (by simp)
  intro j rest h
  rw [readValue.eq_def] at h
  dsimp only at h
  split at h
  case h_1 rest =>
    cases htext : readText ('"' :: rest).length [] rest with
    | error fault =>
      rw [htext] at h
      cases h
    | ok found =>
      rw [htext] at h
      cases h
      exact .text found.1
  case h_2 =>
    cases depth with
    | zero => cases h
    | succ depth =>
      dsimp only at h
      split at h
      case h_1 =>
        cases h
        exact hempty
      case h_2 => exact hfields depth [] _ hempty j rest h
  case h_3 =>
    cases depth with
    | zero => cases h
    | succ depth =>
      dsimp only at h
      split at h
      case h_1 =>
        cases h
        exact .array (by simp)
      case h_2 => exact hitems depth [] _ (by simp) j rest h
  case h_4 => exact readsDistinct_readScalar cs j rest h

include hvalue hitems in
theorem readsDistinct_readItems_succ (depth : Nat) (found : List Json) (cs : List Char)
    (hfound : ∀ item ∈ found, item.Distinct) :
    ReadsDistinct (readItems (fuel + 1) depth found cs) := by
  intro j rest h
  rw [readItems] at h
  split at h
  case h_1 => cases h
  case h_2 item after hread =>
    have hfound : ∀ i ∈ item :: found, i.Distinct :=
      List.forall_mem_cons.2 ⟨hvalue depth cs item after hread, hfound⟩
    split at h
    case h_1 =>
      cases h
      exact distinct_array_reverse hfound
    case h_2 => exact hitems depth _ _ hfound j rest h
    case h_3 => cases h

include hvalue hfields in
theorem readsDistinct_readFields_succ (depth : Nat) (found : List (String × Json))
    (cs : List Char) (hfound : (Json.object found).Distinct) :
    ReadsDistinct (readFields (fuel + 1) depth found cs) := by
  intro j rest h
  rw [readFields.eq_def] at h
  dsimp only at h
  split at h
  case h_2 => cases h
  case h_1 =>
    split at h
    case h_1 => cases h
    case h_2 name after htext =>
      split at h
      case h_2 => cases h
      case h_1 body hbody =>
        split at h
        case h_1 => cases h
        case h_2 value left hread =>
          have hfound := hfound.setField (hvalue depth _ value left hread) name
          split at h
          case h_1 =>
            cases h
            exact hfound
          case h_2 => exact hfields depth _ _ hfound j rest h
          case h_3 => cases h

end Step

/-- **No reader repeats a name.** The induction is on the steps that are left, for the three readers
at once. -/
theorem readsDistinct_readers (fuel : Nat) :
    (∀ depth cs, ReadsDistinct (readValue fuel depth cs)) ∧
      (∀ depth found cs, (∀ item ∈ found, item.Distinct) →
        ReadsDistinct (readItems fuel depth found cs)) ∧
      ∀ depth found cs, (Json.object found).Distinct →
        ReadsDistinct (readFields fuel depth found cs) := by
  induction fuel with
  | zero => exact ⟨fun _ _ ↦ nofun, fun _ _ _ _ ↦ nofun, fun _ _ _ _ ↦ nofun⟩
  | succ fuel ih =>
    obtain ⟨hvalue, hitems, hfields⟩ := ih
    exact ⟨readsDistinct_readValue_succ hitems hfields,
      readsDistinct_readItems_succ hvalue hitems, readsDistinct_readFields_succ hvalue hfields⟩

/-- **No name stands twice in an object that has been read.** -/
theorem distinct_parse : parse cs = .ok j → j.Distinct := by
  show parseWithin depthLimit cs = .ok j → _
  fun_cases parseWithin depthLimit cs
  case case3 value rest hread _ _ =>
    rintro ⟨⟩
    exact (readsDistinct_readers _).1 _ _ _ _ hread
  all_goals exact nofun

end Docwright.Json
