import Docwright.Proofs.Outline.Order
import Mathlib.Data.List.Forall2

/-!
# How far an export reaches

An export statement tags what it exports, and a tagged declaration of variables tags its
declarators. Nothing else hands a tag on: what stands in the body of a declaration is untagged until
it is exported itself (`handedOn`). So every node of a tree has its place, with the tag that it has
there (`places`), whatever a walk makes of it.

* `collect_places`: the symbols of a walk stand for places of the tree, one after the other and each
  for a place of its own, and a symbol that has a tag has it from its place. What a symbol owns are
  methods without tags.

The walk follows tags only along its way through the tree, so it may lose one that a place has, but
it never gives one to a place that has none. That is all the induction needs: where nodes are
collected, their places may have any tags.
-/

namespace Docwright.Outline.Script

open List (SublistForall₂)

/-! ### Symbols at their places -/

/-- A node of a tree with the tag that it has there, if any. -/
structure Place where
  node : Node
  tag : Option ExportTag

/-- The field in which an export statement has what it exports. -/
def exportedField (n : Node) : String :=
  if (n.child? "declaration").isSome then "declaration" else "value"

/-- The tag that a node with the given tag hands on to a child: export statements give theirs to
what they export, and declarations of variables pass theirs on to the declarators. -/
def handedOn (tag : Option ExportTag) (n child : Node) : Option ExportTag :=
  if n.kind == "export_statement" then
    if child.field? == some (exportedField n) then some (exportTag n) else none
  else if variableKinds.contains n.kind && child.kind == "variable_declarator" then tag
  else none

mutual

/-- The places at and below a node with the given tag, each before those below it. -/
def places (tag : Option ExportTag) : Node → List Place
  | .mk kind named missing flagged placed field startByte endByte startRow endRow children =>
    let n : Node :=
      .mk kind named missing flagged placed field startByte endByte startRow endRow children
    ⟨n, tag⟩ :: placesAmong (handedOn tag n) children

/-- The places at and below nodes with the tags that are given for them. -/
def placesAmong (tagOf : Node → Option ExportTag) : List Node → List Place
  | [] => []
  | n :: rest => places (tagOf n) n ++ placesAmong tagOf rest

end

/-- The kinds of nodes for which a symbol of the given kind may stand. -/
def Declares (kind : SymbolKind) (n : Node) : Prop :=
  match kind with
  | .function => n.kind ∈ functionKinds ∨ n.kind ∈ functionValueKinds
  | .classKind => n.kind ∈ classKinds ∨ n.kind = "class"
  | .variable => n.kind = "variable_declarator"
  | kind => typedKind? n.kind = some kind

/-- Methods without tags, none of which owns anything. -/
def Untagged (methods : List Symbol) : Prop :=
  ∀ m ∈ methods, m.kind = .method ∧ m.exported = none ∧ m.children = []

/-- The symbol stands for the node at a place, under no tag but that of the place, and owns methods
without tags. -/
structure StandsAt (source : List UInt8) (s : Symbol) (p : Place) : Prop where
  declares : Declares s.kind p.node
  name : s.name = p.node.nameIn source
  startLine : s.startLine = p.node.lines.1
  endLine : s.endLine = max p.node.lines.2 p.node.lines.1
  tag : ∀ tag ∈ s.exported, p.tag = some tag
  owned : Untagged s.children

/-! ### Places of a tree -/

variable {α β : Type} {R : α → β → Prop} {as as' : List α} {bs bs' : List β}

theorem sublistForall₂_append (h : SublistForall₂ R as bs) (h' : SublistForall₂ R as' bs') :
    SublistForall₂ R (as ++ as') (bs ++ bs') := by
  obtain ⟨cs, hcs, hsub⟩ := List.sublistForall₂_iff.1 h
  obtain ⟨cs', hcs', hsub'⟩ := List.sublistForall₂_iff.1 h'
  exact List.sublistForall₂_iff.2 ⟨cs ++ cs', List.rel_append hcs hcs', hsub.append hsub'⟩

theorem sublistForall₂_mono (h : SublistForall₂ R as bs) (hsub : bs.Sublist bs') :
    SublistForall₂ R as bs' := by
  obtain ⟨cs, hcs, hsub'⟩ := List.sublistForall₂_iff.1 h
  exact List.sublistForall₂_iff.2 ⟨cs, hcs, hsub'.trans hsub⟩

variable {typed : Bool} {source : List UInt8} {exported tag : Option ExportTag}
  {tagOf : Node → Option ExportTag} {n : Node} {ns : List Node} {s : Symbol}
  {symbols more : List Symbol}

theorem places_eq (tag : Option ExportTag) (n : Node) :
    places tag n = ⟨n, tag⟩ :: placesAmong (handedOn tag n) n.children := by
  cases n with
  | mk => rw [places, Node.children]

theorem places_sublist (h : n ∈ ns) : (places (tagOf n) n).Sublist (placesAmong tagOf ns) := by
  induction ns with
  | nil => cases h
  | cons m rest ih =>
    rw [placesAmong]
    rcases List.mem_cons.1 h with rfl | h
    · exact List.sublist_append_left _ _
    · exact (ih h).trans (List.sublist_append_right _ _)

/-- What stands for places below a child stands for places below the node. -/
theorem sublistForall₂_childrenAt {R : Symbol → Place → Prop} {field : String}
    (h : ∀ tagOf, SublistForall₂ R symbols (placesAmong tagOf (n.childrenAt field))) :
    SublistForall₂ R symbols (placesAmong tagOf n.children) := by
  rw [Node.childrenAt] at h
  cases hchild : n.child? field with
  | none =>
    rw [hchild] at h
    exact sublistForall₂_mono (h tagOf) (List.nil_sublist _)
  | some m =>
    rw [hchild] at h
    have hbelow : SublistForall₂ R symbols (places (tagOf m) m) := by
      rw [places_eq]
      exact .cons_right (h _)
    exact sublistForall₂_mono hbelow (places_sublist (Node.child?_mem hchild))

/-! ### Single symbols -/

theorem eq_mk_of_declared {kind : SymbolKind} {name : String} {children : List Symbol}
    (h : declared kind name n children exported = .ok s) :
    s = .mk kind name n.lines.1 (max n.lines.2 n.lines.1) children exported := by
  rw [declared, Symbol.make] at h
  split at h
  · cases h
  split at h
  · cases h
  · exact (Except.ok.inj h).symm

theorem untagged_of_declared {name : String} (h : declared .method name n [] none = .ok s) :
    Untagged [s] := by
  rw [eq_mk_of_declared h]
  exact List.forall_mem_singleton.2 ⟨rfl, rfl, rfl⟩

/-- A declaration stands for the node at which it is made. -/
theorem standsAt_of_declared {kind : SymbolKind} {owned : List Symbol} (hkind : Declares kind n)
    (howned : Untagged owned) (htag : ∀ t ∈ exported, tag = some t)
    (h : declared kind (n.nameIn source) n owned exported = .ok s) :
    StandsAt source s ⟨n, tag⟩ := by
  rw [eq_mk_of_declared h]
  exact ⟨hkind, rfl, rfl, rfl, htag, howned⟩

theorem untagged_nil : Untagged [] :=
  fun _ hm ↦ absurd hm List.not_mem_nil

theorem untagged_append (h : Untagged symbols) (hmore : Untagged more) :
    Untagged (symbols ++ more) :=
  List.forall_mem_append.2 ⟨h, hmore⟩

theorem declares_of_function (h : roleOf exported n = .function) : Declares .function n := by
  rw [roleOf] at h
  split_ifs at h with _ hkind
  simp only [Bool.or_eq_true, Bool.and_eq_true, List.contains_iff_mem] at hkind
  exact hkind.imp_right And.right

theorem declares_of_class (h : roleOf exported n = .classDeclaration) : Declares .classKind n := by
  rw [roleOf] at h
  split_ifs at h with _ _ hkind
  simp only [Bool.or_eq_true, Bool.and_eq_true, List.contains_iff_mem, beq_iff_eq] at hkind
  exact hkind.imp_right And.right

theorem declares_of_typedKind? {kind : SymbolKind} (h : typedKind? n.kind = some kind) :
    Declares kind n := by
  cases kind with
  | interface => exact h
  | type => exact h
  | enum => exact h
  | _ =>
    unfold typedKind? at h
    split at h <;> cases h

theorem untagged_signatures (h : signatures source ns = .ok symbols) : Untagged symbols := by
  induction ns generalizing symbols with
  | nil =>
    cases h
    exact untagged_nil
  | cons n rest ih =>
    obtain ⟨here, more, hhere, hmore, rfl⟩ := exists_of_signatures_cons h
    rcases hhere with rfl | ⟨s, hs, rfl⟩
    · exact ih hmore
    · exact untagged_append (untagged_of_declared hs) (ih hmore)

theorem standsAt_of_typedAt (htag : ∀ t ∈ exported, tag = some t)
    (h : typedAt typed source exported n = .ok (some s)) : StandsAt source s ⟨n, tag⟩ := by
  obtain ⟨kind, signed, hkind, hsigned, hs⟩ := exists_of_typedAt h
  refine standsAt_of_declared (declares_of_typedKind? hkind) ?_ htag hs
  rcases hsigned with rfl | hsigned
  · exact untagged_nil
  · exact untagged_signatures hsigned

/-- Symbols that stand for places own methods without tags. -/
theorem untagged_of_places {ps : List Place} (h : SublistForall₂ (StandsAt source) symbols ps) :
    ∀ s ∈ symbols, Untagged s.children := by
  induction h with
  | nil => exact fun s hs ↦ absurd hs List.not_mem_nil
  | cons hs _ ih => exact List.forall_mem_cons.2 ⟨hs.owned, ih⟩
  | cons_right _ ih => exact ih

/-! ### The walk -/

/-- What an export statement exports is tagged by it. -/
theorem handedOn_exportTarget? {target : Node} (hkind : n.kind = "export_statement")
    (h : exportTarget? n = some target) : handedOn tag n target = some (exportTag n) := by
  have hfield : target.field? = some (exportedField n) := by
    rw [exportTarget?] at h
    rw [exportedField]
    cases hchild : n.child? "declaration" with
    | some m =>
      rw [hchild] at h
      cases h
      simpa using List.find?_some hchild
    | none =>
      rw [hchild] at h
      simpa using List.find?_some h
  simp [handedOn, hkind, hfield]

/-- A declarator has the tag of its declaration. -/
theorem handedOn_declarator {d : Node} (hrole : roleOf exported n = .variableDeclaration)
    (hkind : d.kind = "variable_declarator") : handedOn tag n d = tag := by
  have hvariable := roleOf_eq_variableDeclaration_iff.1 hrole
  have hexporting : n.kind ≠ "export_statement" := fun h ↦ by
    rw [roleOf_eq_exporting_iff.2 h] at hrole
    cases hrole
  simp [handedOn, hexporting, hvariable, hkind]

mutual

/-- **What a node comes to stands for places at and below it**, as long as its place has the tag
under which it is visited, if any. -/
theorem visit_places {atTop : Bool} {exported tag : Option ExportTag} {n : Node}
    {symbols : List Symbol} (htag : ∀ t ∈ exported, tag = some t)
    (h : visit typed source atTop exported n = .ok symbols) :
    SublistForall₂ (StandsAt source) symbols (places tag n) := by
  have := Node.sizeOf_children_lt n
  have := Node.sizeOf_childrenAt_lt n "body"
  rw [places_eq]
  cases visitAt_of_ok h with
  | exportingNothing _ _ => exact .nil
  | @exporting target _ hrole htarget hvisit =>
    have := sizeOf_exportTarget?_lt htarget
    refine .cons_right (sublistForall₂_mono ?_ (places_sublist (exportTarget?_mem htarget)))
    -- the tag under which the walk goes on is the one that the place has
    rw [handedOn_exportTarget? (roleOf_eq_exporting_iff.1 hrole) htarget]
    exact visit_places (fun t ht ↦ ht) hvisit
  | function hrole hnested hs =>
    -- from here on the walk goes without a tag, so those of the places do not matter
    exact .cons (standsAt_of_declared (declares_of_function hrole) untagged_nil htag hs)
      (collect_places _ hnested)
  | unnamedFunction _ _ hnested => exact .cons_right (collect_places _ hnested)
  | classDeclaration hrole hmembers hs =>
    have howned := (members_places (fun _ ↦ none) hmembers).1
    exact .cons (standsAt_of_declared (declares_of_class hrole) howned htag hs)
      (sublistForall₂_childrenAt fun tagOf ↦ (members_places tagOf hmembers).2)
  | unnamedClass _ _ hmembers =>
    exact .cons_right (sublistForall₂_childrenAt fun tagOf ↦ (members_places tagOf hmembers).2)
  | variableDeclaration hrole hbindings =>
    refine .cons_right (bindings_places (fun d _ hkind ↦ ?_) hbindings)
    rw [handedOn_declarator hrole hkind]
    exact htag
  | typedDeclaration _ hs => exact .cons (standsAt_of_typedAt htag hs) .nil
  | other _ _ hbelow => exact .cons_right (collect_places _ hbelow)
termination_by sizeOf n

/-- What nodes come to stands for places at and below them, whatever their tags are. -/
theorem collect_places {atTop : Bool} {ns : List Node} {symbols : List Symbol}
    (tagOf : Node → Option ExportTag) (h : collect typed source atTop ns = .ok symbols) :
    SublistForall₂ (StandsAt source) symbols (placesAmong tagOf ns) := by
  match ns, h with
  | [], h =>
    rw [collect_nil] at h
    cases h
    exact .nil
  | n :: rest, h =>
    obtain ⟨here, more, hhere, hmore, rfl⟩ := exists_of_collect_cons h
    rw [placesAmong]
    refine sublistForall₂_append ?_ (collect_places tagOf hmore)
    split at hhere
    · exact visit_places (by simp) hhere
    · cases hhere
      exact .nil
termination_by sizeOf ns

/-- So does what stands deeper in the body of a class, and the methods are without tags. -/
theorem members_places {ns : List Node} {methods nested : List Symbol}
    (tagOf : Node → Option ExportTag) (h : members typed source ns = .ok (methods, nested)) :
    Untagged methods ∧ SublistForall₂ (StandsAt source) nested (placesAmong tagOf ns) := by
  match ns, h with
  | [], h =>
    rw [members_nil] at h
    cases h
    exact ⟨untagged_nil, .nil⟩
  | n :: rest, h =>
    obtain ⟨hereMethods, hereNested, moreMethods, moreNested, hhere, hmore, rfl, rfl⟩ :=
      exists_of_members_cons h
    have := Node.sizeOf_children_lt n
    obtain ⟨hmethods, hnested⟩ := members_places tagOf hmore
    rw [placesAmong, places_eq]
    cases hhere with
    | sign _ => exact ⟨hmethods, sublistForall₂_append .nil hnested⟩
    | method _ hs hbelow =>
      exact ⟨untagged_append (untagged_of_declared hs) hmethods,
        sublistForall₂_append (.cons_right (collect_places _ hbelow)) hnested⟩
    | other _ _ hbelow =>
      exact ⟨hmethods, sublistForall₂_append (.cons_right (collect_places _ hbelow)) hnested⟩
termination_by sizeOf ns

/-- So does what a declaration of variables comes to, as long as the places of its declarators have
its tag. -/
theorem bindings_places {atTop : Bool} {exported : Option ExportTag} {ns : List Node}
    {symbols : List Symbol} {tagOf : Node → Option ExportTag}
    (htag : ∀ d ∈ ns, d.kind = "variable_declarator" → ∀ t ∈ exported, tagOf d = some t)
    (h : bindings typed source atTop exported ns = .ok symbols) :
    SublistForall₂ (StandsAt source) symbols (placesAmong tagOf ns) := by
  match ns, htag, h with
  | [], _, h =>
    rw [bindings_nil] at h
    cases h
    exact .nil
  | n :: rest, htag, h =>
    obtain ⟨here, more, hhere, hmore, rfl⟩ := exists_of_bindings_cons h
    have := Node.sizeOf_childrenAt_lt n "value"
    obtain ⟨htag, hrest⟩ := List.forall_mem_cons.1 htag
    rw [placesAmong, places_eq]
    refine sublistForall₂_append ?_ (bindings_places hrest hmore)
    cases hhere with
    | other _ => exact .nil
    | bound _ hkind _ _ hs hnested =>
      have hdeclares : Declares .variable n := hkind
      exact .cons (standsAt_of_declared hdeclares untagged_nil (htag hkind) hs)
        (sublistForall₂_childrenAt fun tagOf ↦ collect_places tagOf hnested)
    | unbound _ _ _ hnested =>
      exact .cons_right (sublistForall₂_childrenAt fun tagOf ↦ collect_places tagOf hnested)
termination_by sizeOf ns

end

end Docwright.Outline.Script
