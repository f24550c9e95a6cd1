import Docwright.Proofs.Outline.Python
import Docwright.Proofs.Outline.Script

/-!
# Outlines stand in the order of the document

When the nodes of a tree are laid out, the symbols read from it start one after the other, and each
is sound: it has a name and its lines, and what it owns are methods that stand on these lines. What
carries this through the walks is where the nodes at hand stand: siblings between two rows come to
symbols between the lines of these rows (`Symbol.Between`), and the siblings that follow start no
higher than where the ones before have ended. So what one node comes to is put before what the
others come to, and a declaration before what is nested in it.
-/

namespace Docwright

namespace Symbol

/-- The symbol has a name and stands on the lines from one to another. -/
structure OnLines (s : Symbol) : Prop where
  named : s.name ≠ ""
  one_le_start : 1 ≤ s.startLine
  start_le_end : s.startLine ≤ s.endLine

/-- The symbol owns nothing but methods that stand on its own lines in order, and nothing at all
unless it is a class or an interface. -/
structure Sound (s : Symbol) : Prop where
  onLines : s.OnLines
  container : s.children ≠ [] → s.kind = .classKind ∨ s.kind = .interface
  ordered : s.children.Pairwise fun a b ↦ a.startLine ≤ b.startLine
  method : ∀ m ∈ s.children, m.OnLines ∧ m.kind = .method ∧ m.children = []
  within : ∀ m ∈ s.children, s.startLine ≤ m.startLine ∧ m.endLine ≤ s.endLine

/-- Sound symbols that stand in order from one line to another. -/
structure Between (first last : Int) (symbols : List Symbol) : Prop where
  sound : ∀ s ∈ symbols, s.Sound
  within : ∀ s ∈ symbols, first ≤ s.startLine ∧ s.endLine ≤ last
  ordered : symbols.Pairwise fun a b ↦ a.startLine ≤ b.startLine

variable {first mid last : Int} {symbols more methods : List Symbol} {s : Symbol}

theorem Between.nil : Between first last [] :=
  ⟨by simp, by simp, .nil⟩

theorem Between.mono {first' last' : Int} (h : Between first last symbols) (hfirst : first' ≤ first)
    (hlast : last ≤ last') : Between first' last' symbols where
  sound := h.sound
  within s hs := ⟨Int.le_trans hfirst (h.within s hs).1, Int.le_trans (h.within s hs).2 hlast⟩
  ordered := h.ordered

/-- Symbols may be followed by such as stand below them. -/
theorem Between.append (h : Between first mid symbols) (hmore : Between mid last more)
    (hfirst : first ≤ mid) (hlast : mid ≤ last) : Between first last (symbols ++ more) where
  sound s hs := (List.mem_append.1 hs).elim (h.sound s) (hmore.sound s)
  within s hs := by
    rcases List.mem_append.1 hs with hs | hs
    · exact ⟨(h.within s hs).1, Int.le_trans (h.within s hs).2 hlast⟩
    · exact ⟨Int.le_trans hfirst (hmore.within s hs).1, (hmore.within s hs).2⟩
  ordered := by
    refine List.pairwise_append.2 ⟨h.ordered, hmore.ordered, fun a ha b hb ↦ ?_⟩
    calc a.startLine ≤ a.endLine := (h.sound a ha).onLines.start_le_end
      _ ≤ mid := (h.within a ha).2
      _ ≤ b.startLine := (hmore.within b hb).1

/-- A symbol may be followed by such as stand on its own lines. -/
theorem Between.cons (hs : s.Sound) (h : Between s.startLine s.endLine symbols) :
    Between s.startLine s.endLine (s :: symbols) where
  sound := List.forall_mem_cons.2 ⟨hs, h.sound⟩
  within := List.forall_mem_cons.2 ⟨⟨Int.le_refl _, Int.le_refl _⟩, h.within⟩
  ordered := List.pairwise_cons.2 ⟨fun m hm ↦ (h.within m hm).1, h.ordered⟩

/-- Methods, none of which owns anything. -/
def Methods (methods : List Symbol) : Prop :=
  ∀ m ∈ methods, m.kind = .method ∧ m.children = []

theorem Methods.nil : Methods [] :=
  fun _ hm ↦ absurd hm List.not_mem_nil

theorem Methods.append (h : Methods methods) (hmore : Methods more) : Methods (methods ++ more) :=
  List.forall_mem_append.2 ⟨h, hmore⟩

end Symbol

namespace Outline

open Docwright.Symbol (Methods)

variable {source : List UInt8} {first last : Int} {n : Node} {kind : SymbolKind} {name : String}
  {methods : List Symbol} {exported : Option ExportTag} {s : Symbol}

/-- What is declared at a node with methods of these lines is a sound symbol on these lines. -/
theorem sound_of_declared (hn : n.Placed)
    (hbetween : Symbol.Between (n.startRow + 1) (n.endRow + 1) methods) (hmethods : Methods methods)
    (hs : declared kind name n methods exported = .ok s) :
    s.Sound ∧ s.startLine = n.startRow + 1 ∧ s.endLine = n.endRow + 1 ∧ s.kind = kind ∧
      s.children = methods := by
  have hrows := hn.start_le_end
  rw [declared, Node.lines, if_pos hn.placed, Symbol.make] at hs
  split at hs
  · cases hs
  rename_i hname
  split at hs
  · cases hs
  rename_i howner
  have hend : max (n.endRow + 1) (n.startRow + 1) = n.endRow + 1 := by omega
  rw [hend] at hs
  cases hs
  refine ⟨⟨⟨?_, ?_, ?_⟩, ?_, hbetween.ordered, fun m hm ↦ ?_, hbetween.within⟩, rfl, rfl, rfl, rfl⟩
  · simpa [Symbol.name] using hname
  · have := hn.start_nonneg
    simp only [Symbol.startLine]
    omega
  · simp only [Symbol.startLine, Symbol.endLine]
    omega
  · intro hne
    cases kind <;> simp_all [SymbolKind.isContainer, Symbol.kind, Symbol.children]
  · exact ⟨(hbetween.sound m hm).onLines, hmethods m hm⟩

/-- A declaration may be followed by what stands on its lines. -/
theorem between_of_declared_methods {nested : List Symbol} (hn : n.Placed)
    (hmethods : Symbol.Between (n.startRow + 1) (n.endRow + 1) methods ∧ Methods methods)
    (hs : declared kind name n methods exported = .ok s)
    (hnested : Symbol.Between (n.startRow + 1) (n.endRow + 1) nested) :
    Symbol.Between (n.startRow + 1) (n.endRow + 1) (s :: nested) := by
  obtain ⟨hsound, hstart, hend, -, -⟩ := sound_of_declared hn hmethods.1 hmethods.2 hs
  rw [← hstart, ← hend] at hnested ⊢
  exact .cons hsound hnested

theorem between_of_declared {nested : List Symbol} (hn : n.Placed)
    (hs : declared kind name n [] exported = .ok s)
    (hnested : Symbol.Between (n.startRow + 1) (n.endRow + 1) nested) :
    Symbol.Between (n.startRow + 1) (n.endRow + 1) (s :: nested) :=
  between_of_declared_methods hn ⟨.nil, .nil⟩ hs hnested

theorem methods_of_declared (hn : n.Placed) (hs : declared .method name n [] exported = .ok s) :
    Methods [s] := by
  obtain ⟨-, -, -, hkind, hchildren⟩ := sound_of_declared hn .nil .nil hs
  exact List.forall_mem_singleton.2 ⟨hkind, hchildren⟩

/-- What the first of some siblings comes to is followed by what the rest come to. -/
theorem between_append {rest : List Node} {here more : List Symbol}
    (h : Node.Between first last (n :: rest))
    (hhere : Symbol.Between (n.startRow + 1) (n.endRow + 1) here)
    (hmore : Symbol.Between (n.endRow + 1) (last + 1) more) :
    Symbol.Between (first + 1) (last + 1) (here ++ more) := by
  obtain ⟨hn, hfirst, hlast⟩ := h.head
  have hrows := hn.self.start_le_end
  exact (hhere.mono (by omega) (Int.le_refl _)).append hmore (by omega) (by omega)

/-! ### Python -/

namespace Python

/-- What is decorated stands within the whole. -/
theorem laidOut_definitionOf (hn : n.LaidOut) : (definitionOf n).LaidOut ∧
    n.startRow ≤ (definitionOf n).startRow ∧ (definitionOf n).endRow ≤ n.endRow := by
  rcases definitionOf_eq_or_mem n with h | h
  · rw [h]
    exact ⟨hn, Int.le_refl _, Int.le_refl _⟩
  · exact ⟨hn.child h, hn.self.within _ h⟩

theorem lambdaBinding_between {symbols : List Symbol} (hn : n.Placed)
    (h : lambdaBinding source n = .ok symbols) :
    Symbol.Between (n.startRow + 1) (n.endRow + 1) symbols := by
  rw [lambdaBinding] at h
  split at h
  · split at h
    · obtain ⟨s, hs, h⟩ := bind_eq_ok_iff.1 h
      rw [← pure_eq_ok_iff.1 h]
      exact between_of_declared hn hs .nil
    · rw [← pure_eq_ok_iff.1 h]
      exact .nil
  · rw [← pure_eq_ok_iff.1 h]
    exact .nil

theorem lambdaBindings_between {ns : List Node} {symbols : List Symbol}
    (hns : Node.Between first last ns) (h : lambdaBindings source ns = .ok symbols) :
    Symbol.Between (first + 1) (last + 1) symbols := by
  induction ns generalizing first symbols with
  | nil =>
    cases h
    exact .nil
  | cons n rest ih =>
    rw [lambdaBindings_cons] at h
    obtain ⟨here, hhere, h⟩ := bind_eq_ok_iff.1 h
    obtain ⟨more, hmore, h⟩ := bind_eq_ok_iff.1 h
    rw [← pure_eq_ok_iff.1 h]
    refine between_append hns ?_ (ih hns.tail hmore)
    split at hhere
    · exact lambdaBinding_between hns.head.1.self hhere
    · cases hhere
      exact .nil

mutual

/-- Siblings between two rows come to symbols between the lines of these rows. -/
theorem collect_between {atTop : Bool} {ns : List Node} {first last : Int} {symbols : List Symbol}
    (hns : Node.Between first last ns) (h : collect source atTop ns = .ok symbols) :
    Symbol.Between (first + 1) (last + 1) symbols := by
  match ns, hns, h with
  | [], _, h =>
    rw [collect_nil] at h
    cases h
    exact .nil
  | n :: rest, hns, h =>
    obtain ⟨here, more, hhere, hmore, rfl⟩ := collect_cons_ok_iff.1 h
    have hn : n.LaidOut := hns.head.1
    obtain ⟨hdefinition, hstart, hend⟩ := laidOut_definitionOf hn
    have := sizeOf_definitionOf_le n
    have := Node.sizeOf_children_lt (definitionOf n)
    have := Node.sizeOf_childrenAt_lt (definitionOf n) "body"
    have := Node.sizeOf_children_lt n
    refine between_append hns ?_ (collect_between hns.tail hmore)
    cases hhere with
    | sign _ => exact .nil
    | function _ _ hs hnested =>
      exact between_of_declared hn.self hs
        (collect_between (hdefinition.between.mono hstart hend) hnested)
    | classDefinition _ _ hmembers hs =>
      obtain ⟨hmethods, hnested⟩ :=
        members_between ((hdefinition.between_childrenAt "body").mono hstart hend) hmembers
      exact between_of_declared_methods hn.self hmethods hs hnested
    | expression _ _ _ _ _ hbindings => exact lambdaBindings_between hn.between hbindings
    | other _ _ _ _ hbelow => exact collect_between hn.between hbelow
termination_by sizeOf ns
decreasing_by
  all_goals
    simp only [List.cons.sizeOf_spec]
    omega

/-- So do the nodes in the body of a class, and those that it owns are methods. -/
theorem members_between {ns : List Node} {first last : Int} {methods nested : List Symbol}
    (hns : Node.Between first last ns) (h : members source ns = .ok (methods, nested)) :
    (Symbol.Between (first + 1) (last + 1) methods ∧ Methods methods) ∧
      Symbol.Between (first + 1) (last + 1) nested := by
  match ns, hns, h with
  | [], _, h =>
    rw [members_nil] at h
    cases h
    exact ⟨⟨.nil, .nil⟩, .nil⟩
  | n :: rest, hns, h =>
    obtain ⟨hereMethods, hereNested, moreMethods, moreNested, hhere, hmore, rfl, rfl⟩ :=
      members_cons_ok_iff.1 h
    have hn : n.LaidOut := hns.head.1
    obtain ⟨hdefinition, hstart, hend⟩ := laidOut_definitionOf hn
    have := sizeOf_definitionOf_le n
    have := Node.sizeOf_children_lt (definitionOf n)
    have := Node.sizeOf_children_lt n
    obtain ⟨⟨hmethods, hmethod⟩, hnested⟩ := members_between hns.tail hmore
    cases hhere with
    | sign _ => exact ⟨⟨between_append hns .nil hmethods, hmethod⟩, between_append hns .nil hnested⟩
    | method _ _ hs hbelow =>
      have hbelow := collect_between (hdefinition.between.mono hstart hend) hbelow
      exact ⟨⟨between_append hns (between_of_declared hn.self hs .nil) hmethods,
        (methods_of_declared hn.self hs).append hmethod⟩, between_append hns hbelow hnested⟩
    | other _ _ hbelow =>
      have hbelow := collect_between hn.between hbelow
      exact ⟨⟨between_append hns .nil hmethods, hmethod⟩, between_append hns hbelow hnested⟩
termination_by sizeOf ns
decreasing_by
  all_goals
    simp only [List.cons.sizeOf_spec]
    omega

end

end Python

/-! ### JavaScript and TypeScript -/

namespace Script

variable {typed : Bool}

theorem signatures_between {ns : List Node} {symbols : List Symbol}
    (hns : Node.Between first last ns) (h : signatures source ns = .ok symbols) :
    Symbol.Between (first + 1) (last + 1) symbols ∧ Methods symbols := by
  induction ns generalizing first symbols with
  | nil =>
    cases h
    exact ⟨.nil, .nil⟩
  | cons n rest ih =>
    obtain ⟨here, more, hhere, hmore, rfl⟩ := exists_of_signatures_cons h
    obtain ⟨hbetween, hmethods⟩ := ih hns.tail hmore
    rcases hhere with rfl | ⟨s, hs, rfl⟩
    · exact ⟨between_append hns .nil hbetween, hmethods⟩
    · exact ⟨between_append hns (between_of_declared hns.head.1.self hs .nil) hbetween,
        (methods_of_declared hns.head.1.self hs).append hmethods⟩

theorem typedAt_between (hn : n.LaidOut) (h : typedAt typed source exported n = .ok (some s)) :
    Symbol.Between (n.startRow + 1) (n.endRow + 1) [s] := by
  obtain ⟨kind, signed, -, hsigned, hs⟩ := exists_of_typedAt h
  refine between_of_declared_methods hn.self ?_ hs .nil
  rcases hsigned with rfl | hsigned
  · exact ⟨.nil, .nil⟩
  · exact signatures_between (hn.between_childrenAt "body") hsigned

theorem exportTarget?_mem {target : Node} (h : exportTarget? n = some target) :
    target ∈ n.children := by
  rw [exportTarget?] at h
  split at h
  · rename_i hchild
    cases h
    exact Node.child?_mem hchild
  · exact Node.child?_mem h

mutual

/-- A node comes to symbols on its lines. -/
theorem visit_between {atTop : Bool} {exported : Option ExportTag} {n : Node}
    {symbols : List Symbol} (hn : n.LaidOut)
    (h : visit typed source atTop exported n = .ok symbols) :
    Symbol.Between (n.startRow + 1) (n.endRow + 1) symbols := by
  have := Node.sizeOf_children_lt n
  have := Node.sizeOf_childrenAt_lt n "body"
  cases visitAt_of_ok h with
  | exportingNothing _ _ => exact .nil
  | @exporting target _ _ htarget hvisit =>
    have := sizeOf_exportTarget?_lt htarget
    have hmem := exportTarget?_mem htarget
    obtain ⟨hstart, hend⟩ := hn.self.within target hmem
    exact (visit_between (hn.child hmem) hvisit).mono (by omega) (by omega)
  | function _ hnested hs =>
    exact between_of_declared hn.self hs (collect_between hn.between hnested)
  | unnamedFunction _ _ hnested => exact collect_between hn.between hnested
  | classDeclaration _ hmembers hs =>
    obtain ⟨hmethods, hnested⟩ := members_between (hn.between_childrenAt "body") hmembers
    exact between_of_declared_methods hn.self hmethods hs hnested
  | unnamedClass _ _ hmembers => exact (members_between (hn.between_childrenAt "body") hmembers).2
  | variableDeclaration _ hbindings => exact bindings_between hn.between hbindings
  | typedDeclaration _ hs => exact typedAt_between hn hs
  | other _ _ hbelow => exact collect_between hn.between hbelow
termination_by sizeOf n

/-- Siblings between two rows come to symbols between the lines of these rows. -/
theorem collect_between {atTop : Bool} {ns : List Node} {first last : Int} {symbols : List Symbol}
    (hns : Node.Between first last ns) (h : collect typed source atTop ns = .ok symbols) :
    Symbol.Between (first + 1) (last + 1) symbols := by
  match ns, hns, h with
  | [], _, h =>
    rw [collect_nil] at h
    cases h
    exact .nil
  | n :: rest, hns, h =>
    obtain ⟨here, more, hhere, hmore, rfl⟩ := exists_of_collect_cons h
    refine between_append hns ?_ (collect_between hns.tail hmore)
    split at hhere
    · exact visit_between hns.head.1 hhere
    · cases hhere
      exact .nil
termination_by sizeOf ns

/-- So do the nodes in the body of a class, and those that it owns are methods. -/
theorem members_between {ns : List Node} {first last : Int} {methods nested : List Symbol}
    (hns : Node.Between first last ns) (h : members typed source ns = .ok (methods, nested)) :
    (Symbol.Between (first + 1) (last + 1) methods ∧ Methods methods) ∧
      Symbol.Between (first + 1) (last + 1) nested := by
  match ns, hns, h with
  | [], _, h =>
    rw [members_nil] at h
    cases h
    exact ⟨⟨.nil, .nil⟩, .nil⟩
  | n :: rest, hns, h =>
    obtain ⟨hereMethods, hereNested, moreMethods, moreNested, hhere, hmore, rfl, rfl⟩ :=
      exists_of_members_cons h
    have hn : n.LaidOut := hns.head.1
    have := Node.sizeOf_children_lt n
    obtain ⟨⟨hmethods, hmethod⟩, hnested⟩ := members_between hns.tail hmore
    cases hhere with
    | sign _ => exact ⟨⟨between_append hns .nil hmethods, hmethod⟩, between_append hns .nil hnested⟩
    | method _ hs hbelow =>
      have hbelow := collect_between hn.between hbelow
      exact ⟨⟨between_append hns (between_of_declared hn.self hs .nil) hmethods,
        (methods_of_declared hn.self hs).append hmethod⟩, between_append hns hbelow hnested⟩
    | other _ _ hbelow =>
      have hbelow := collect_between hn.between hbelow
      exact ⟨⟨between_append hns .nil hmethods, hmethod⟩, between_append hns hbelow hnested⟩
termination_by sizeOf ns

/-- And so do the nodes of a declaration of variables. -/
theorem bindings_between {atTop : Bool} {exported : Option ExportTag} {ns : List Node}
    {first last : Int} {symbols : List Symbol} (hns : Node.Between first last ns)
    (h : bindings typed source atTop exported ns = .ok symbols) :
    Symbol.Between (first + 1) (last + 1) symbols := by
  match ns, hns, h with
  | [], _, h =>
    rw [bindings_nil] at h
    cases h
    exact .nil
  | n :: rest, hns, h =>
    obtain ⟨here, more, hhere, hmore, rfl⟩ := exists_of_bindings_cons h
    have hn : n.LaidOut := hns.head.1
    have := Node.sizeOf_childrenAt_lt n "value"
    refine between_append hns ?_ (bindings_between hns.tail hmore)
    cases hhere with
    | other _ => exact .nil
    | bound _ _ _ _ hs hnested =>
      exact between_of_declared hn.self hs (collect_between (hn.between_childrenAt "value") hnested)
    | unbound _ _ _ hnested => exact collect_between (hn.between_childrenAt "value") hnested
termination_by sizeOf ns

end

end Script

/-! ### Every dialect -/

/-- **Where nodes stand in order, so do the symbols.** When the nodes of a tree are laid out, the
symbols that are extracted start one after the other, and each of them is sound. -/
theorem ordered_and_sound_of_extract {trees : TreeSource} {dialect : Dialect} {path : String}
    {symbols : List Symbol} (hroot : (trees (dialect.grammarOf path) source).LaidOut)
    (h : extract trees dialect path source = .ok symbols) :
    (symbols.Pairwise fun a b ↦ a.startLine ≤ b.startLine) ∧ ∀ s ∈ symbols, s.Sound := by
  obtain ⟨root, hsound, hsymbols⟩ := extract_ok_iff.1 h
  rw [← eq_of_soundTree hsound] at hroot
  have hbetween : Symbol.Between (root.startRow + 1) (root.endRow + 1) symbols := by
    cases dialect with
    | python => exact Python.collect_between hroot.between hsymbols
    | javaScript => exact Script.collect_between hroot.between hsymbols
    | typeScript => exact Script.collect_between hroot.between hsymbols
  exact ⟨hbetween.ordered, hbetween.sound⟩

namespace Staircase

/-- A class with a method in which a function is nested, each on a line of its own. -/
def bytes : List UInt8 :=
  "class A:\n def f():\n  def g(): 0\n".toList.map fun c ↦ c.toNat.toUInt8

open Python

/-- The function that is nested. -/
def inner : Node :=
  .mk "function_definition" true false false true none 21 31 2 2
    [nameNode 25 2, blockNode 30 31 2 2 []]

/-- The method. -/
def outer : Node :=
  .mk "function_definition" true false false true none 10 31 1 2
    [nameNode 14 1, blockNode 21 31 2 2 [inner]]

/-- The class. -/
def container : Node :=
  .mk "class_definition" true false false true none 0 31 0 2
    [nameNode 6 0, blockNode 10 31 1 2 [outer]]

/-- The module. -/
def root : Node :=
  .mk "module" true false false true none 0 32 0 3 [container]

/-- What is reported of the class. -/
def symbols : List Symbol :=
  [.mk .classKind "A" 1 3 [.mk .method "f" 2 3 [] none] none, .mk .function "g" 3 3 [] none]

theorem collect_outer :
    collect bytes false outer.children = .ok [.mk .function "g" 3 3 [] none] := by
  have hinner : collect bytes false [inner] = .ok [.mk .function "g" 3 3 [] none] :=
    collect_cons_ok_iff.2 ⟨[_], [], .function rfl rfl rfl (collect_eq_nil (by decide)),
      collect_nil, rfl⟩
  exact collect_cons_ok_iff.2 ⟨[], _, at_nameNode,
    collect_cons_ok_iff.2 ⟨_, [], at_blockNode hinner, collect_nil, rfl⟩, rfl⟩

theorem collect_container : collect bytes true root.children = .ok symbols := by
  have hmembers : members bytes (container.childrenAt "body") =
      .ok ([.mk .method "f" 2 3 [] none], [.mk .function "g" 3 3 [] none]) :=
    members_cons_ok_iff.2 ⟨[_], _, [], [], .method rfl rfl rfl collect_outer, members_nil, rfl, rfl⟩
  exact collect_cons_ok_iff.2 ⟨_, [], .classDefinition rfl rfl hmembers rfl, collect_nil, rfl⟩

theorem extract_root : extract (fun _ _ ↦ root) .python "a.py" bytes = .ok symbols :=
  extract_ok_iff.2 ⟨root, rfl, collect_container⟩

/-- The class stands above the function that is nested in its method, and owns the method. -/
theorem ordered_and_sound : root.LaidOut ∧
    extract (fun _ _ ↦ root) .python "a.py" bytes = .ok symbols ∧
      (symbols.Pairwise fun a b ↦ a.startLine ≤ b.startLine) ∧ ∀ s ∈ symbols, s.Sound := by
  have hroot : root.LaidOut := by decide
  exact ⟨hroot, extract_root, ordered_and_sound_of_extract hroot extract_root⟩

end Staircase

end Outline

end Docwright
