import Docwright.Files.Path
import Docwright.Proofs.Files.Entry
import Docwright.Proofs.Text.Lines

/-!
# Names and the paths that are made of them

A name without slashes that is neither empty nor a single dot is one part of a path, and stays one
when it is joined with others and read again (`Path.ofString_intercalate`). In a tree in which all
names are of this kind, so are those that lead to a place (`Named.isName_of_get?`).
-/

namespace Docwright.Files

/-- A name that is one part of a text in which names stand between slashes. -/
structure IsName (n : String) : Prop where
  ne_empty : n ≠ ""
  ne_dot : n ≠ "."
  no_slash : '/' ∉ n.toList

/-- **Names that are joined to a path are read from it.** -/
theorem Path.ofString_intercalate {ns : List String} (hne : ns ≠ []) (h : ∀ n ∈ ns, IsName n) :
    Path.ofString ("/".intercalate ns) = ⟨false, ns⟩ := by
  have hsplit : Text.splitOn '/' ("/".intercalate ns).toList = ns.map String.toList := by
    rw [String.toList_intercalate]
    exact Text.splitOn_joinWith (List.forall_mem_map.2 fun n hn ↦ (h n hn).no_slash)
      (by simpa using hne)
  have hparts : ∀ part ∈ ns.map String.toList, part ≠ [] ∧ part ≠ ['.'] := by
    refine List.forall_mem_map.2 fun n hn ↦ ⟨fun hempty ↦ ?_, fun hdot ↦ ?_⟩
    · exact (h n hn).ne_empty (String.toList_inj.1 hempty)
    · exact (h n hn).ne_dot (String.toList_inj.1 hdot)
  have hrelative : ("/".intercalate ns).startsWith "/" = false := by
    refine String.startsWith_string_eq_false_iff.2 fun ⟨rest, hrest⟩ ↦ ?_
    -- a slash in front would make the first name empty
    have hfirst : [] ∈ Text.splitOn '/' ("/".intercalate ns).toList := by
      rw [← hrest]
      exact Text.splitOn_append_cons List.not_mem_nil rest ▸ List.mem_cons_self
    rw [hsplit] at hfirst
    exact (hparts [] hfirst).1 rfl
  have hkept : (ns.map String.toList).filter (fun part ↦ !(part.isEmpty || part == ['.']))
      = ns.map String.toList := by
    refine List.filter_eq_self.2 fun part hpart ↦ ?_
    simpa using hparts part hpart
  rw [Path.ofString, hsplit, hkept, hrelative, List.map_map]
  simp [Function.comp_def]

namespace Entry

/-- A tree in which every name is one part of a path. -/
inductive Named : Entry → Prop
  | file (bytes : List UInt8) : Named (.file bytes)
  | link (target : String) : Named (.link target)
  | folder {members : List (String × Entry)} (names : ∀ m ∈ members, IsName m.1)
    (inner : ∀ m ∈ members, m.2.Named) : Named (.folder members)

/-- The names that lead to a place in such a tree. -/
theorem Named.isName_of_get? {e s : Entry} (h : e.Named) {p : List String}
    (hs : e.get? p = some s) : ∀ n ∈ p, IsName n := by
  induction p generalizing e with
  | nil => exact nofun
  | cons name rest ih =>
    obtain ⟨members, inner, rfl, hinner, hrest⟩ := exists_of_get?_cons hs
    have hmem := mem_of_lookup hinner
    cases h with
    | folder names hmembers =>
      exact List.forall_mem_cons.2 ⟨names _ hmem, ih (hmembers _ hmem) hrest⟩

end Entry

end Docwright.Files
