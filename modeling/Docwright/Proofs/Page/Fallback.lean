import Docwright.Page.Document
import Docwright.Page.Fallback
import Docwright.Proofs.Text.Blank
import Docwright.Proofs.Text.Lines

/-!
# Pages that are made from symbols

A page without the service names every symbol of the files that it covers, at any depth, between
ticks (`Fallback.ticked_infix_page`). Each symbol has a bullet, each bullet stands on a line of the
page, and taking the blanks off the page in the end takes nothing off a name, because it stands
between two ticks and these are no blanks. The bullets of a file are those of its symbols walked
through with their levels, each before what it owns (`bulletsAll_eq`).
-/

namespace Docwright

namespace Symbol

mutual

/-- The symbol and everything below it, each before what it owns and with its level. -/
def walkAt (depth : Nat) : Symbol → List (Nat × Symbol)
  | .mk kind name startLine endLine children exported =>
    (depth, .mk kind name startLine endLine children exported) :: walkAllAt (depth + 1) children

/-- The symbols of a list and everything below them, with the level of each. -/
def walkAllAt (depth : Nat) : List Symbol → List (Nat × Symbol)
  | [] => []
  | s :: rest => walkAt depth s ++ walkAllAt depth rest

end

mutual

/-- Without the levels it is the walk. -/
theorem map_snd_walkAt (depth : Nat) : ∀ s : Symbol, (s.walkAt depth).map Prod.snd = s.walk
  | .mk kind name startLine endLine children exported => by
    rw [walkAt, walk, List.map_cons, map_snd_walkAllAt]

theorem map_snd_walkAllAt (depth : Nat) :
    ∀ symbols : List Symbol, (walkAllAt depth symbols).map Prod.snd = walkAll symbols
  | [] => rfl
  | s :: rest => by
    rw [walkAllAt, walkAll, List.map_append, map_snd_walkAt, map_snd_walkAllAt]

end

end Symbol

namespace Page

namespace Fallback

/-- A name between ticks. -/
def ticked (name : String) : String := "`" ++ name ++ "`"

theorem toList_ticked (name : String) :
    (ticked name).toList = ('`' :: name.toList) ++ ['`'] := by
  simp [ticked]

/-- The bullet of a symbol names it. -/
theorem ticked_infix_bullet (depth : Nat) (s : Symbol) :
    (ticked s.name).toList <:+: (bullet depth s).toList := by
  let label := String.ofList (s.label.toList.map fun c ↦ if c == '_' then ' ' else c)
  refine ⟨("".pushn ' ' (2 * depth) ++ "- ").toList, s!" ({label}, {spanText s})".toList, ?_⟩
  simp [bullet, ticked, label, ToString.toString]

mutual

/-- The bullets of a symbol are those of its walk, each by its level. -/
theorem bullets_eq (depth : Nat) :
    ∀ s : Symbol, bullets depth s = (s.walkAt depth).map fun p ↦ bullet p.1 p.2
  | .mk kind name startLine endLine children exported => by
    rw [bullets, Symbol.walkAt, List.map_cons, bulletsAll_eq]

theorem bulletsAll_eq (depth : Nat) : ∀ symbols : List Symbol,
    bulletsAll depth symbols = (Symbol.walkAllAt depth symbols).map fun p ↦ bullet p.1 p.2
  | [] => rfl
  | s :: rest => by
    rw [bulletsAll, Symbol.walkAllAt, List.map_append, bullets_eq, bulletsAll_eq]

end

/-- Every symbol of a list has a bullet, at whatever depth it stands. -/
theorem exists_bullet_of_mem_walkAll {t : Symbol} (depth : Nat) {symbols : List Symbol}
    (h : t ∈ Symbol.walkAll symbols) : ∃ d, bullet d t ∈ bulletsAll depth symbols := by
  rw [← Symbol.map_snd_walkAllAt depth] at h
  obtain ⟨⟨d, s⟩, hmem, rfl⟩ := List.mem_map.1 h
  rw [bulletsAll_eq]
  exact ⟨d, List.mem_map_of_mem hmem⟩

/-- What stands on a line of the page and has no blanks at its ends stands on the page. -/
theorem infix_page {u : PageUnit} {reason : Option String} {line : String}
    (hline : line ∈ pageLines u reason) {part : List Char} (hpart : part <:+: line.toList)
    (hne : part ≠ []) (hhead : ∀ c ∈ part.head?, Text.isBlank c = false)
    (hlast : ∀ c ∈ part.getLast?, Text.isBlank c = false) :
    part <:+: (page u reason).toList := by
  have hbody : part <:+: Text.joinWith ['\n'] ((pageLines u reason).map String.toList) :=
    hpart.trans (Text.infix_joinWith (List.mem_map_of_mem hline))
  rw [page, String.toList_ofList]
  exact (Text.infix_strip hne hhead hlast hbody).trans (List.prefix_append _ _).isInfix

/-- **The page names every symbol of every file that it covers**, at any depth. -/
theorem ticked_infix_page {u : PageUnit} (reason : Option String) {o : Outline}
    (ho : o ∈ u.outlines) {name : String} (hname : name ∈ o.symbolNames) :
    (ticked name).toList <:+: (page u reason).toList := by
  obtain ⟨s, hs, rfl⟩ := List.mem_map.1 hname
  obtain ⟨d, hd⟩ := exists_bullet_of_mem_walkAll 0 hs
  have hline : bullet d s ∈ pageLines u reason := by
    refine List.mem_append_left _ (List.mem_append_right _ (List.mem_flatMap.2 ⟨o, ho, ?_⟩))
    exact List.mem_append_right _ hd
  have htick : Text.isBlank '`' = false := by decide
  refine infix_page hline (ticked_infix_bullet d s) ?_ ?_ ?_
  all_goals rw [toList_ticked]
  · exact List.append_ne_nil_of_right_ne_nil _ (List.cons_ne_nil _ _)
  · simpa using htick
  · rw [List.getLast?_concat]
    simpa using htick

end Fallback

end Page

end Docwright
