import Docwright.Service.Address
import Mathlib.Data.List.TakeWhile

/-!
# Addresses that are refused

What makes an address fit for a request, apart from how that is found out. `HasScheme` says that it
starts with a scheme, and `Misplaced` lists what can be wrong with the place that it names
(`hasScheme_iff`, `placeFault?_eq_some_iff`). The faults of a place are looked for in the order of
the list: what stands in brackets matters once they come in pairs, and the characters of the place
once the text in brackets is an address.
-/

namespace Docwright.Service

open Address

variable {α : Type}

/-! ### Schemes -/

/-- An address starts with a scheme: characters other than slashes, then a colon. When there is a
number sign among them, another one follows the colon. -/
def HasScheme (cs : List Char) : Prop :=
  ∃ scheme rest, cs = scheme ++ ':' :: rest ∧ scheme ≠ [] ∧ (∀ c ∈ scheme, c ≠ '/' ∧ c ≠ ':') ∧
    ('#' ∈ scheme → '#' ∈ rest)

/-- A list that holds `a` can be parted at the last one. -/
theorem exists_last_of_mem {a : α} {cs : List α} (h : a ∈ cs) :
    ∃ front tail, cs = front ++ a :: tail ∧ a ∉ tail := by
  obtain ⟨tail, front, hsplit, htail⟩ := List.eq_append_cons_of_mem (List.mem_reverse.mpr h)
  refine ⟨front.reverse, tail.reverse, ?_, fun hmem ↦ htail (List.mem_reverse.mp hmem)⟩
  rw [← cs.reverse_reverse, hsplit]
  simp

theorem withoutFragment_of_notMem {cs : List Char} (h : '#' ∉ cs) :
    withoutFragment cs = cs := by
  rw [withoutFragment, if_neg]
  simpa using h

theorem withoutFragment_append {front tail : List Char} (h : '#' ∉ tail) :
    withoutFragment (front ++ '#' :: tail) = front := by
  have hmem : (front ++ '#' :: tail).contains '#' = true := by simp
  have htail : ∀ c ∈ tail.reverse, (c != '#') = true := by
    intro c hc
    exact bne_iff_ne.mpr fun heq ↦ h (heq ▸ List.mem_reverse.mp hc)
  rw [withoutFragment, if_pos hmem, Text.dropRightWhile, List.reverse_append,
    List.reverse_cons, List.append_assoc, List.dropWhile_append_of_pos htail]
  simp

/-- The scheme is all that stands before the colon. -/
theorem takeWhile_colon_iff {keep : Char → Bool} {cs : List Char} (hcolon : keep ':' = false) :
    (!(cs.takeWhile keep).isEmpty &&
        (cs.drop (cs.takeWhile keep).length).head? == some ':') = true ↔
      ∃ scheme rest, cs = scheme ++ ':' :: rest ∧ scheme ≠ [] ∧ ∀ c ∈ scheme, keep c = true := by
  constructor
  · intro h
    obtain ⟨hne, hhead⟩ : cs.takeWhile keep ≠ [] ∧
        (cs.drop (cs.takeWhile keep).length).head? = some ':' := by simpa using h
    obtain ⟨rest, hrest⟩ := List.head?_eq_some_iff.mp hhead
    have hsplit := List.prefix_iff_eq_append.mp (List.takeWhile_prefix (l := cs) keep)
    exact ⟨cs.takeWhile keep, rest, hrest ▸ hsplit.symm, hne, fun c ↦ List.mem_takeWhile_imp⟩
  · rintro ⟨scheme, rest, rfl, hne, hscheme⟩
    have htake : (scheme ++ ':' :: rest).takeWhile keep = scheme := by
      rw [List.takeWhile_append_of_pos hscheme, List.takeWhile_cons_of_neg (by simp [hcolon]),
        List.append_nil]
    simp [htake, hne]

theorem hasScheme_iff {cs : List Char} : hasScheme cs = true ↔ HasScheme cs := by
  have hkeep {c : Char} : (c != '/' && c != ':') = true ↔ c ≠ '/' ∧ c ≠ ':' := by simp
  simp only [HasScheme, ← hkeep]
  refine (takeWhile_colon_iff (by decide)).trans ⟨?_, ?_⟩
  · rintro ⟨scheme, rest, hcs, hne, hscheme⟩
    by_cases hmem : '#' ∈ cs
    · obtain ⟨front, tail, rfl, htail⟩ := exists_last_of_mem hmem
      rw [withoutFragment_append htail] at hcs
      refine ⟨scheme, rest ++ '#' :: tail, ?_, hne, hscheme, fun _ ↦ by simp⟩
      rw [hcs, List.append_assoc, List.cons_append]
    · rw [withoutFragment_of_notMem hmem] at hcs
      exact ⟨scheme, rest, hcs, hne, hscheme, fun h ↦ absurd (by simp [hcs, h]) hmem⟩
  · rintro ⟨scheme, rest, rfl, hne, hscheme, hsign⟩
    by_cases hmem : '#' ∈ rest
    · obtain ⟨front, tail, rfl, htail⟩ := exists_last_of_mem hmem
      refine ⟨scheme, front, ?_, hne, hscheme⟩
      rw [← List.cons_append, ← List.append_assoc, withoutFragment_append htail]
    · have hnot : '#' ∉ scheme ++ ':' :: rest := by
        simp [hmem, mt hsign hmem]
      exact ⟨scheme, rest, withoutFragment_of_notMem hnot, hne, hscheme⟩

/-! ### Places -/

/-- What is wrong with the text in the brackets of a place: it must be an address of version six, or
of a later version when it begins like one. -/
inductive BadHost : List Char → PlaceFault → Prop
  /-- It begins like an address of a later version, and is none. -/
  | laterVersion {rest : List Char} (h : isLaterVersion rest = false) :
    BadHost ('v' :: rest) .laterVersion
  /-- It is an address of version four. -/
  | versionFour {host : List Char} (hv : host.head? ≠ some 'v') (h : isVersionFour host = true) :
    BadHost host .versionFour
  /-- It is no address. -/
  | noAddress {host : List Char} (hv : host.head? ≠ some 'v') (hfour : isVersionFour host = false)
    (hsix : isVersionSix host = false) : BadHost host (.noAddress host)

/-- What is wrong with a place. -/
inductive Misplaced (place : List Char) : PlaceFault → Prop
  /-- There are square brackets of one kind only. -/
  | unpaired (h : ¬('[' ∈ place ↔ ']' ∈ place)) : Misplaced place .unpaired
  /-- The text in brackets is not what it must be. -/
  | host {fault : PlaceFault} (hopen : '[' ∈ place) (hclosed : ']' ∈ place)
    (h : BadHost (bracketed place) fault) : Misplaced place fault
  /-- A character is taken for one that ends a place. -/
  | lookalike {c : Char} (hpaired : '[' ∈ place ↔ ']' ∈ place)
    (hhost : '[' ∈ place → ∀ fault, ¬BadHost (bracketed place) fault) (hc : c ∈ place)
    (hlike : c.toNat ∈ lookalikes) : Misplaced place (.lookalike place)

theorem hostFault?_of_head?_ne {host : List Char} (hv : host.head? ≠ some 'v') :
    hostFault? host =
      if isVersionFour host then some .versionFour
      else if isVersionSix host then none
      else some (.noAddress host) := by
  fun_cases hostFault? host
  case case1 | case2 => exact absurd rfl hv
  all_goals rfl

theorem hostFault?_eq_some_iff {host : List Char} {fault : PlaceFault} :
    hostFault? host = some fault ↔ BadHost host fault := by
  by_cases hv : host.head? = some 'v'
  · obtain ⟨rest, rfl⟩ := List.head?_eq_some_iff.mp hv
    constructor
    · intro h
      cases hrest : isLaterVersion rest with
      | true => simp [hostFault?, hrest] at h
      | false =>
        obtain rfl : PlaceFault.laterVersion = fault := by simpa [hostFault?, hrest] using h
        exact .laterVersion hrest
    · rintro (hrest | ⟨hne, -⟩ | ⟨hne, -, -⟩)
      · simp [hostFault?, hrest]
      · exact absurd hv hne
      · exact absurd hv hne
  · rw [hostFault?_of_head?_ne hv]
    constructor
    · intro h
      split at h
      case isTrue hfour =>
        cases h
        exact .versionFour hv hfour
      case isFalse hfour =>
        split at h
        case isTrue => cases h
        case isFalse hsix =>
          cases h
          exact .noAddress hv (Bool.eq_false_iff.mpr hfour) (Bool.eq_false_iff.mpr hsix)
    · rintro (hrest | ⟨-, hfour⟩ | ⟨-, hfour, hsix⟩)
      · exact absurd rfl hv
      · rw [if_pos hfour]
      · simp [hfour, hsix]

theorem placeFault?_eq_some_iff {place : List Char} {fault : PlaceFault} :
    placeFault? place = some fault ↔ Misplaced place fault := by
  have hpaired : (place.contains '[' != place.contains ']') = true ↔
      ¬('[' ∈ place ↔ ']' ∈ place) := by
    rw [bne_iff_ne, ne_eq, Bool.eq_iff_iff, List.contains_iff_mem, List.contains_iff_mem]
  by_cases h : '[' ∈ place ↔ ']' ∈ place
  · have hhost {fault : PlaceFault} :
        (if place.contains '[' then hostFault? (bracketed place) else none) = some fault ↔
          '[' ∈ place ∧ BadHost (bracketed place) fault := by
      simp [hostFault?_eq_some_iff]
    have hlike : (place.any fun c ↦ lookalikes.contains c.toNat) = true ↔
        ∃ c ∈ place, c.toNat ∈ lookalikes := by
      simp
    rw [placeFault?, if_neg (fun hne ↦ hpaired.mp hne h), Option.or_eq_some_iff, hhost]
    simp only [Option.eq_none_iff_forall_not_mem, Option.mem_def, hhost, hlike]
    constructor
    · rintro (⟨hopen, hbad⟩ | ⟨hgood, hlookalike⟩)
      · exact .host hopen (h.mp hopen) hbad
      · split at hlookalike
        case isTrue hc =>
          cases hlookalike
          obtain ⟨c, hc, hlike⟩ := hc
          exact .lookalike h (fun hopen fault hbad ↦ hgood fault ⟨hopen, hbad⟩) hc hlike
        case isFalse => cases hlookalike
    · rintro (hunpaired | ⟨hopen, -, hbad⟩ | ⟨-, hgood, hc, hlike⟩)
      · exact absurd h hunpaired
      · exact .inl ⟨hopen, hbad⟩
      · exact .inr ⟨fun fault hbad ↦ hgood hbad.1 fault hbad.2, if_pos ⟨_, hc, hlike⟩⟩
  · rw [placeFault?, if_pos (hpaired.mpr h)]
    constructor
    · rintro ⟨⟩
      exact .unpaired h
    · rintro (_ | ⟨hopen, hclosed, -⟩ | ⟨hpaired, -⟩)
      · rfl
      · exact absurd (iff_of_true hopen hclosed) h
      · exact absurd hpaired h

end Docwright.Service
