import Docwright.Outline.Python
import Docwright.Proofs.Outline.Tree

/-!
# What Python nodes come to

The walk over a module is two functions that call one another. Each step of them is one relation
here: `At` says what a node among others comes to, `MemberAt` what a node in the body of a class
does, with everything that the step asks of the node. `collect_cons_ok_iff` and
`members_cons_ok_iff` say that the walk is made of these steps and of nothing else.
-/

namespace Docwright.Outline.Python

variable {source : List UInt8} {atTop : Bool} {n : Node} {rest : List Node}
  {symbols methods nested : List Symbol}

/-- What a node comes to. -/
inductive At (source : List UInt8) (atTop : Bool) (n : Node) : List Symbol → Prop
  /-- A sign between other nodes. -/
  | sign (hnamed : n.isNamed = false) : At source atTop n []
  /-- A function, and what is nested in it. -/
  | function {s : Symbol} {nested : List Symbol} (hnamed : n.isNamed = true)
    (hkind : (definitionOf n).kind = "function_definition")
    (hs : declared .function ((definitionOf n).nameIn source) n [] none = .ok s)
    (hnested : collect source false (definitionOf n).children = .ok nested) :
    At source atTop n (s :: nested)
  /-- A class with its methods, and what is nested in it. -/
  | classDefinition {s : Symbol} {methods nested : List Symbol} (hnamed : n.isNamed = true)
    (hkind : (definitionOf n).kind = "class_definition")
    (hmembers : members source ((definitionOf n).childrenAt "body") = .ok (methods, nested))
    (hs : declared .classKind ((definitionOf n).nameIn source) n methods none = .ok s) :
    At source atTop n (s :: nested)
  /-- An expression directly in the module, with the names it binds. -/
  | expression {symbols : List Symbol} (hnamed : n.isNamed = true)
    (hfunction : (definitionOf n).kind ≠ "function_definition")
    (hclass : (definitionOf n).kind ≠ "class_definition") (htop : atTop = true)
    (hkind : n.kind = "expression_statement")
    (hbindings : lambdaBindings source n.children = .ok symbols) : At source atTop n symbols
  /-- Any other node, with what stands below it. -/
  | other {symbols : List Symbol} (hnamed : n.isNamed = true)
    (hfunction : (definitionOf n).kind ≠ "function_definition")
    (hclass : (definitionOf n).kind ≠ "class_definition")
    (hexpression : ¬(atTop = true ∧ n.kind = "expression_statement"))
    (hbelow : collect source false n.children = .ok symbols) : At source atTop n symbols

/-- What a node in the body of a class comes to: methods, and what stands deeper. -/
inductive MemberAt (source : List UInt8) (n : Node) : List Symbol → List Symbol → Prop
  /-- A sign between other nodes. -/
  | sign (hnamed : n.isNamed = false) : MemberAt source n [] []
  /-- A method, and what is nested in it. -/
  | method {s : Symbol} {nested : List Symbol} (hnamed : n.isNamed = true)
    (hkind : (definitionOf n).kind = "function_definition")
    (hs : declared .method ((definitionOf n).nameIn source) n [] none = .ok s)
    (hnested : collect source false (definitionOf n).children = .ok nested) :
    MemberAt source n [s] nested
  /-- Any other node, with what stands below it. -/
  | other {nested : List Symbol} (hnamed : n.isNamed = true)
    (hkind : (definitionOf n).kind ≠ "function_definition")
    (hbelow : collect source false n.children = .ok nested) : MemberAt source n [] nested

theorem collect_nil : collect source atTop [] = .ok [] := by
  rw [collect]

theorem members_nil : members source [] = .ok ([], []) := by
  rw [members]

theorem lambdaBindings_cons : lambdaBindings source (n :: rest) =
    (if n.isNamed then lambdaBinding source n else .ok []) >>= fun here ↦
      lambdaBindings source rest >>= fun more ↦ pure (here ++ more) := by
  rw [lambdaBindings]
  split <;> rfl

/-- The symbols of one node. -/
def symbolsAt (source : List UInt8) (atTop : Bool) (n : Node) : Except SymbolFault (List Symbol) :=
  if !n.isNamed then .ok []
  else if (definitionOf n).kind == "function_definition" then do
    let s ← declared .function ((definitionOf n).nameIn source) n [] none
    let nested ← collect source false (definitionOf n).children
    pure (s :: nested)
  else if (definitionOf n).kind == "class_definition" then do
    let found ← members source ((definitionOf n).childrenAt "body")
    let s ← declared .classKind ((definitionOf n).nameIn source) n found.1 none
    pure (s :: found.2)
  else if atTop && n.kind == "expression_statement" then lambdaBindings source n.children
  else collect source false n.children

/-- The walk takes one node after the other. -/
theorem collect_cons : collect source atTop (n :: rest) = (do
    let here ← symbolsAt source atTop n
    let more ← collect source atTop rest
    pure (here ++ more)) := by
  rw [collect, symbolsAt]
  by_cases hnamed : n.isNamed = true
  · by_cases hfunction : (definitionOf n).kind = "function_definition"
    · simp only [hnamed, hfunction, Node.nameIn, bind_assoc, pure_bind, Bool.not_true,
        beq_self_eq_true, if_true, if_false, Bool.false_eq_true]
    · by_cases hclass : (definitionOf n).kind = "class_definition"
      · simp only [hnamed, hclass, Node.nameIn, pure_bind, Bool.not_true, beq_self_eq_true, if_true,
          if_false, Bool.false_eq_true, ← Node.match_child?_eq _ "body" members_nil]
        cases (definitionOf n).child? "body" with
        | none => simp
        | some body => simp
      · simp only [hnamed, hfunction, hclass, Bool.not_true, beq_iff_eq, if_false,
          Bool.false_eq_true]
        split <;> rfl
  · simp [hnamed]

theorem symbolsAt_ok_iff : symbolsAt source atTop n = .ok symbols ↔ At source atTop n symbols := by
  rw [symbolsAt]
  constructor
  · intro h
    split at h
    · rename_i hsign
      cases h
      exact .sign (by simpa using hsign)
    rename_i hnamed
    have hnamed : n.isNamed = true := by simpa using hnamed
    split at h
    · rename_i hkind
      obtain ⟨s, hs, h⟩ := bind_eq_ok_iff.1 h
      obtain ⟨nested, hnested, h⟩ := bind_eq_ok_iff.1 h
      rw [← pure_eq_ok_iff.1 h]
      exact .function hnamed (beq_iff_eq.1 hkind) hs hnested
    rename_i hfunction
    have hfunction : (definitionOf n).kind ≠ "function_definition" := by simpa using hfunction
    split at h
    · rename_i hkind
      obtain ⟨⟨methods, nested⟩, hmembers, h⟩ := bind_eq_ok_iff.1 h
      obtain ⟨s, hs, h⟩ := bind_eq_ok_iff.1 h
      rw [← pure_eq_ok_iff.1 h]
      exact .classDefinition hnamed (beq_iff_eq.1 hkind) hmembers hs
    rename_i hclass
    have hclass : (definitionOf n).kind ≠ "class_definition" := by simpa using hclass
    split at h
    · rename_i hexpression
      rw [Bool.and_eq_true, beq_iff_eq] at hexpression
      exact .expression hnamed hfunction hclass hexpression.1 hexpression.2 h
    · rename_i hexpression
      rw [Bool.and_eq_true, beq_iff_eq] at hexpression
      exact .other hnamed hfunction hclass hexpression h
  · rintro (⟨hnamed⟩ | ⟨hnamed, hkind, hs, hnested⟩ | ⟨hnamed, hkind, hmembers, hs⟩ |
      ⟨hnamed, hfunction, hclass, htop, hkind, hbindings⟩ |
      ⟨hnamed, hfunction, hclass, hexpression, hbelow⟩)
    · simp [hnamed]
    · simp only [hnamed, hkind, hs, hnested]
      rfl
    · simp only [hnamed, hkind, hmembers]
      simp only [bind, Except.bind, hs]
      rfl
    · simp [hnamed, hfunction, hclass, htop, hkind, hbindings]
    · have hfalse : (atTop && n.kind == "expression_statement") = false := by
        simpa using hexpression
      simp [hnamed, hfunction, hclass, hfalse, hbelow]

/-- **Nodes come to what the first of them comes to and then what the rest do.** -/
theorem collect_cons_ok_iff :
    collect source atTop (n :: rest) = .ok symbols ↔
      ∃ here more, At source atTop n here ∧ collect source atTop rest = .ok more ∧
        symbols = here ++ more := by
  rw [collect_cons]
  constructor
  · intro h
    obtain ⟨here, hhere, h⟩ := bind_eq_ok_iff.1 h
    obtain ⟨more, hmore, h⟩ := bind_eq_ok_iff.1 h
    exact ⟨here, more, symbolsAt_ok_iff.1 hhere, hmore, (pure_eq_ok_iff.1 h).symm⟩
  · rintro ⟨here, more, hhere, hmore, rfl⟩
    rw [symbolsAt_ok_iff.2 hhere, hmore]
    rfl

/-- **So do the nodes in the body of a class.** -/
theorem members_cons_ok_iff :
    members source (n :: rest) = .ok (methods, nested) ↔
      ∃ hereMethods hereNested moreMethods moreNested, MemberAt source n hereMethods hereNested ∧
        members source rest = .ok (moreMethods, moreNested) ∧
        methods = hereMethods ++ moreMethods ∧ nested = hereNested ++ moreNested := by
  rw [members]
  constructor
  · intro h
    split at h
    · rename_i hsign
      obtain ⟨_, ⟨⟩, h⟩ := bind_eq_ok_iff.1 h
      obtain ⟨⟨moreMethods, moreNested⟩, hmore, h⟩ := bind_eq_ok_iff.1 h
      cases pure_eq_ok_iff.1 h
      exact ⟨[], [], _, _, .sign (by simpa using hsign), hmore, rfl, rfl⟩
    rename_i hnamed
    have hnamed : n.isNamed = true := by simpa using hnamed
    split at h
    · rename_i hkind
      obtain ⟨s, hs, h⟩ := bind_eq_ok_iff.1 h
      obtain ⟨deeper, hdeeper, h⟩ := bind_eq_ok_iff.1 h
      obtain ⟨_, ⟨⟩, h⟩ := bind_eq_ok_iff.1 h
      obtain ⟨⟨moreMethods, moreNested⟩, hmore, h⟩ := bind_eq_ok_iff.1 h
      cases pure_eq_ok_iff.1 h
      exact ⟨_, _, _, _, .method hnamed (beq_iff_eq.1 hkind) hs hdeeper, hmore, rfl, rfl⟩
    · rename_i hkind
      obtain ⟨deeper, hdeeper, h⟩ := bind_eq_ok_iff.1 h
      obtain ⟨_, ⟨⟩, h⟩ := bind_eq_ok_iff.1 h
      obtain ⟨⟨moreMethods, moreNested⟩, hmore, h⟩ := bind_eq_ok_iff.1 h
      cases pure_eq_ok_iff.1 h
      exact ⟨_, _, _, _, .other hnamed (by simpa using hkind) hdeeper, hmore, rfl, rfl⟩
  · rintro ⟨_, _, moreMethods, moreNested, hhere, hmore, rfl, rfl⟩
    cases hhere with
    | sign hnamed =>
      simp only [hnamed, hmore]
      rfl
    | method hnamed hkind hs hnested =>
      rw [Node.nameIn] at hs
      simp only [hnamed, hkind, hs, hnested, hmore]
      rfl
    | other hnamed hkind hbelow =>
      simp only [hnamed, hkind, hbelow, hmore, beq_iff_eq]
      rfl

/-- The node defines a class or a function. -/
def IsDefinition (n : Node) : Prop :=
  n.kind = "class_definition" ∨ n.kind = "function_definition"

instance (n : Node) : Decidable (IsDefinition n) :=
  inferInstanceAs (Decidable (_ ∨ _))

theorem definitionOf_eq_or_mem (n : Node) : definitionOf n = n ∨ definitionOf n ∈ n.children := by
  rw [definitionOf]
  split
  · cases hchild : n.child? "definition" with
    | none => exact .inl rfl
    | some m => exact .inr (Node.child?_mem hchild)
  · exact .inl rfl

theorem definitionOf_mem_nodes (n : Node) : definitionOf n ∈ n.nodes := by
  rcases definitionOf_eq_or_mem n with h | h
  · rw [h]
    exact n.self_mem_nodes
  · exact Node.nodes_subset_of_mem_children h (Node.self_mem_nodes _)

/-- **Where nothing is defined there is nothing to report.** -/
theorem collect_eq_nil {ns : List Node} (h : ∀ m ∈ Node.nodesOf ns, ¬IsDefinition m) :
    collect source false ns = .ok [] := by
  match ns, h with
  | [], _ => exact collect_nil
  | n :: rest, h =>
    rw [Node.nodesOf, List.forall_mem_append] at h
    have hn : ¬IsDefinition (definitionOf n) := h.1 _ (definitionOf_mem_nodes n)
    have hbelow := fun m hm ↦ h.1 m (Node.nodesOf_children_subset n hm)
    have := Node.sizeOf_children_lt n
    refine collect_cons_ok_iff.2 ⟨[], [], ?_, collect_eq_nil h.2, rfl⟩
    cases hnamed : n.isNamed with
    | false => exact .sign hnamed
    | true =>
      exact .other hnamed (fun hkind ↦ hn (.inr hkind)) (fun hkind ↦ hn (.inl hkind)) (by simp)
        (collect_eq_nil hbelow)
termination_by sizeOf ns

/-- A name of one letter. -/
def nameNode (startByte : Nat) (row : Int) : Node :=
  .mk "identifier" true false false true (some "name") startByte (startByte + 1) row row []

theorem at_nameNode {startByte : Nat} {row : Int} : At source false (nameNode startByte row) [] :=
  .other rfl (by simp [definitionOf, nameNode, Node.kind])
    (by simp [definitionOf, nameNode, Node.kind]) (by simp) collect_nil

/-- The block of a definition. -/
def blockNode (startByte endByte : Nat) (startRow endRow : Int) (children : List Node) : Node :=
  .mk "block" true false false true (some "body") startByte endByte startRow endRow children

theorem at_blockNode {startByte endByte : Nat} {startRow endRow : Int} {children : List Node}
    (h : collect source false children = .ok symbols) :
    At source false (blockNode startByte endByte startRow endRow children) symbols :=
  .other rfl (by simp [definitionOf, blockNode, Node.kind])
    (by simp [definitionOf, blockNode, Node.kind]) (by simp) h

end Docwright.Outline.Python
