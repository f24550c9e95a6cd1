import Docwright.Template.Rules

/-!
# The standard engine

An engine that knows text, values and parts that depend on the kind of a unit, and fails on marks
that lead nowhere. It reads a template into pieces, from the left and with one character looked
ahead, and then says the pieces in order.

It keeps to the rules of the language (`sayAll_of_renders`). What carries the induction is that text
and phrases are read by themselves, whatever stands behind them, so that the pieces of a template
are those of its parts one after another.
-/

namespace Docwright.Prompt

/-! ### Reading and saying -/

/-- A piece of a template. -/
inductive Piece
  /-- A character that stands as it is. -/
  | char (c : Char)
  /-- The words between double braces. -/
  | value (words : List Char)
  /-- The words of a mark. -/
  | mark (words : List Char)

/-- Where reading a template stands: in text, or in markup with the words so far, latest first. -/
inductive Mode
  | text
  | value (words : List Char)
  | mark (words : List Char)

/-- The pieces of a template, read from its characters in order. Markup that has no end is a mark
without words, which leads nowhere. -/
def pieces (mode : Mode) (cs : List Char) : List Piece :=
  match mode, cs with
  | .text, '\x7b' :: '\x7b' :: rest => pieces (.value []) rest
  | .text, '\x7b' :: '%' :: rest => pieces (.mark []) rest
  | .text, c :: rest => .char c :: pieces .text rest
  | .value words, '\x7d' :: '\x7d' :: rest => .value words.reverse :: pieces .text rest
  | .value words, c :: rest => pieces (.value (c :: words)) rest
  | .mark words, '%' :: '\x7d' :: '\n' :: rest => .mark words.reverse :: pieces .text rest
  | .mark words, '%' :: '\x7d' :: rest => .mark words.reverse :: pieces .text rest
  | .mark words, c :: rest => pieces (.mark (c :: words)) rest
  | .text, [] => []
  | _, [] => [.mark []]

/-- What the words between double braces say. -/
def Context.say (c : Context) (words : List Char) : List Char :=
  let words := Text.strip words
  if words == pluralWords then c.plural else (c.value (String.ofList words)).toList

/-- What a piece says. -/
def Piece.said (c : Context) : Piece → List Char
  | .char ch => [ch]
  | .value words => c.say words
  | .mark _ => []

/-- Where a mark leads: `none` stands for the outside of a part that is one of two ways, and a truth
value for whether the way is taken. -/
def Context.turn? (c : Context) (way : Option Bool) (words : List Char) : Option (Option Bool) :=
  let words := Text.strip words
  match way with
  | none =>
    if words == kindWords .group then some (some (c.kind.name == Page.UnitKind.name .group))
    else if words == kindWords .file then some (some (c.kind.name == Page.UnitKind.name .file))
    else none
  | some taken =>
    if words == elseWords then some (some !taken) else if words == endWords then some none else none

/-- The crash of a template that is none. -/
def badTemplate : Crash := .other "the template cannot be read"

/-- What the pieces of a template say in order, under way on one of two ways or outside of them. -/
def sayAll (c : Context) (way : Option Bool) : List Piece → Except Crash (List Char)
  | [] => if way.isNone then .ok [] else .error badTemplate
  | .mark words :: rest =>
    match c.turn? way words with
    | some way => sayAll c way rest
    | none => .error badTemplate
  | p :: rest => (sayAll c way rest).map ((if way.getD true then p.said c else []) ++ ·)

/-- A template without the line feed at its end. -/
def withoutLastFeed (cs : List Char) : List Char :=
  if cs.getLast? == some '\n' then cs.dropLast else cs

/-! ### Keeping to the rules -/

theorem withoutLastFeed_append {t rest : List Char} (h : rest = [] → t.getLast? ≠ some '\n') :
    withoutLastFeed (t ++ rest) = t ++ withoutLastFeed rest := by
  cases rest with
  | nil => simp [withoutLastFeed, h rfl]
  | cons c rest =>
    have hlast : (t ++ c :: rest).getLast? = (c :: rest).getLast? := by
      simp [List.getLast?_append, List.getLast?_cons]
    rw [withoutLastFeed, withoutLastFeed, hlast, List.dropLast_append_of_ne_nil (by simp)]
    split <;> rfl

theorem head?_withoutLastFeed_ne {rest : List Char} (h : rest.head? ≠ some '\n') :
    (withoutLastFeed rest).head? ≠ some '\n' := by
  cases rest with
  | nil => exact h
  | cons c rest =>
    rw [withoutLastFeed]
    split
    · cases rest with
      | nil => simp
      | cons d rest => simpa using h
    · exact h

/-- Text without markup is read character by character. -/
theorem pieces_text_append {t : List Char} (h : Plain t) (rest : List Char) :
    pieces .text (t ++ rest) = t.map .char ++ pieces .text rest := by
  induction t with
  | nil => rfl
  | cons c t ih =>
    have hc : c ≠ '\x7b' := (h c List.mem_cons_self).1
    rw [List.cons_append, pieces, ih fun d hd ↦ h d (List.mem_cons_of_mem _ hd)]
    · rfl
    · exact fun _ hbrace ↦ absurd hbrace hc
    · exact fun _ hbrace ↦ absurd hbrace hc

/-- The words of a mark are read up to the first percent sign; a line feed behind the mark is left
out. -/
theorem pieces_mark_append {words : List Char} (h : '%' ∉ words) (before rest : List Char)
    {feed : List Char} (hfeed : feed = ['\n'] ∨ feed = [] ∧ rest.head? ≠ some '\n') :
    pieces (.mark before) (words ++ '%' :: '\x7d' :: (feed ++ rest))
      = .mark (before.reverse ++ words) :: pieces .text rest := by
  induction words generalizing before with
  | nil =>
    rcases hfeed with rfl | ⟨rfl, hhead⟩
    · simp [pieces]
    · rw [List.nil_append, List.nil_append, pieces, List.append_nil]
      rintro after rfl
      exact hhead rfl
  | cons c words ih =>
    have hc : c ≠ '%' := fun hc ↦ h (hc ▸ List.mem_cons_self)
    rw [List.cons_append, pieces, ih (List.not_mem_of_not_mem_cons h)]
    · simp
    · exact fun _ hsign ↦ absurd hsign hc
    · exact fun _ hsign ↦ absurd hsign hc

/-- A value is asked for in one piece. -/
theorem pieces_slot_append {name : String} (h : name ∈ Context.names) (rest : List Char) :
    pieces .text (slot name ++ rest)
      = .value (' ' :: (name.toList ++ [' '])) :: pieces .text rest := by
  simp only [Context.names, List.mem_cons, List.not_mem_nil, or_false] at h
  rcases h with rfl | rfl | rfl | rfl | rfl | rfl | rfl | rfl <;> rfl

theorem said_slot {name : String} (h : name ∈ Context.names) (c : Context) :
    (Piece.value (' ' :: (name.toList ++ [' ']))).said c = (c.value name).toList := by
  simp only [Context.names, List.mem_cons, List.not_mem_nil, or_false] at h
  rcases h with rfl | rfl | rfl | rfl | rfl | rfl | rfl | rfl <;> rfl

theorem pieces_pluralSlot_append (rest : List Char) :
    pieces .text (pluralSlot ++ rest)
      = .value (' ' :: (pluralWords ++ [' '])) :: pieces .text rest :=
  rfl

theorem said_pluralSlot (c : Context) :
    (Piece.value (' ' :: (pluralWords ++ [' ']))).said c = c.plural :=
  rfl

/-- Whether a piece is no mark. -/
def Piece.isSaid : Piece → Bool
  | .mark _ => false
  | _ => true

/-- Pieces that are no marks are said where they stand, on a way that is taken. -/
theorem sayAll_append (c : Context) (way : Option Bool) {ps : List Piece}
    (h : ∀ p ∈ ps, p.isSaid = true) (qs : List Piece) :
    sayAll c way (ps ++ qs)
      = (sayAll c way qs).map ((if way.getD true then ps.flatMap (Piece.said c) else []) ++ ·) := by
  induction ps with
  | nil => cases hqs : sayAll c way qs <;> simp [Except.map, hqs]
  | cons p ps ih =>
    obtain ⟨hp, hps⟩ := List.forall_mem_cons.1 h
    have hcons : sayAll c way (p :: (ps ++ qs))
        = (sayAll c way (ps ++ qs)).map ((if way.getD true then p.said c else []) ++ ·) := by
      cases p <;> first | rfl | cases hp
    rw [List.cons_append, hcons, ih hps]
    cases sayAll c way qs with
    | error e => rfl
    | ok out =>
      simp only [Except.map, List.flatMap_cons]
      split <;> simp

/-- A phrase is read by itself, and has no marks. -/
theorem Phrase.exists_pieces {t : List Char} (h : Phrase t) :
    ∃ ps, (∀ p ∈ ps, p.isSaid = true) ∧
      ∀ rest, pieces .text (t ++ rest) = ps ++ pieces .text rest := by
  induction h with
  | empty => exact ⟨[], by simp, fun _ ↦ rfl⟩
  | @char c t hc h ih =>
    obtain ⟨ps, hsaid, hps⟩ := ih
    refine ⟨.char c :: ps, List.forall_mem_cons.2 ⟨rfl, hsaid⟩, fun rest ↦ ?_⟩
    rw [List.cons_append, pieces, hps]
    · rfl
    · exact fun _ hbrace ↦ absurd hbrace hc.1
    · exact fun _ hbrace ↦ absurd hbrace hc.1
  | @value name t hname h ih =>
    obtain ⟨ps, hsaid, hps⟩ := ih
    refine ⟨.value (' ' :: (name.toList ++ [' '])) :: ps,
      List.forall_mem_cons.2 ⟨rfl, hsaid⟩, fun rest ↦ ?_⟩
    rw [List.append_assoc, pieces_slot_append hname, hps, List.cons_append]

/-- A phrase stands on one line. -/
theorem Phrase.not_mem {t : List Char} (h : Phrase t) : '\n' ∉ t := by
  induction h with
  | empty => exact List.not_mem_nil
  | char hc h ih => exact List.not_mem_cons_of_ne_of_not_mem hc.2.2.symm ih
  | value hname h ih =>
    rw [List.mem_append, not_or]
    refine ⟨?_, ih⟩
    simp only [Context.names, List.mem_cons, List.not_mem_nil, or_false] at hname
    rcases hname with rfl | rfl | rfl | rfl | rfl | rfl | rfl | rfl <;> decide

/-- What the pieces of a phrase say is what the phrase says by itself. -/
theorem Phrase.exists_said {t : List Char} (h : Phrase t) (c : Context) :
    ∃ ps, (∀ p ∈ ps, p.isSaid = true) ∧
      (∀ rest, pieces .text (t ++ rest) = ps ++ pieces .text rest) ∧
      sayAll c none (pieces .text (withoutLastFeed t)) = .ok (ps.flatMap (Piece.said c)) := by
  obtain ⟨ps, hsaid, hps⟩ := h.exists_pieces
  have hlast : t.getLast? ≠ some '\n' := fun hlast ↦ h.not_mem (List.mem_of_getLast? hlast)
  have hwhole : withoutLastFeed t = t := by simp [withoutLastFeed, hlast]
  have hpieces : pieces .text t = ps ++ [] := by simpa [pieces] using hps []
  refine ⟨ps, hsaid, hps, ?_⟩
  rw [hwhole, hpieces, sayAll_append c none hsaid]
  simp [sayAll, Except.map]

theorem pieces_mark {words : List Char} (h : '%' ∉ words) (rest : List Char) {feed : List Char}
    (hfeed : feed = ['\n'] ∨ feed = [] ∧ rest.head? ≠ some '\n') :
    pieces .text (mark words ++ (feed ++ rest))
      = .mark (' ' :: (words ++ [' '])) :: pieces .text rest := by
  have hblank : '%' ∉ ' ' :: (words ++ [' ']) := by simp [h]
  have hmark : mark words ++ (feed ++ rest)
      = '\x7b' :: '%' :: ((' ' :: (words ++ [' '])) ++ '%' :: '\x7d' :: (feed ++ rest)) := by
    simp [mark]
  rw [hmark, pieces, pieces_mark_append hblank _ _ hfeed]
  rfl

theorem turn?_kind {kind : Page.UnitKind} (h : kind ∈ toldKinds) (c : Context) :
    c.turn? none (' ' :: (kindWords kind ++ [' '])) = some (some (c.kind.name == kind.name)) := by
  simp only [toldKinds, List.mem_cons, List.not_mem_nil, or_false] at h
  rcases h with rfl | rfl <;> rfl

theorem turn?_else (c : Context) (taken : Bool) :
    c.turn? (some taken) (' ' :: (elseWords ++ [' '])) = some (some !taken) :=
  rfl

theorem turn?_end (c : Context) (taken : Bool) :
    c.turn? (some taken) (' ' :: (endWords ++ [' '])) = some none :=
  rfl

theorem not_mem_kindWords {kind : Page.UnitKind} (h : kind ∈ toldKinds) : '%' ∉ kindWords kind := by
  simp only [toldKinds, List.mem_cons, List.not_mem_nil, or_false] at h
  rcases h with rfl | rfl <;> decide

theorem getLast?_slot_ne (name : String) : (slot name).getLast? ≠ some '\n' := by
  rw [slot, List.getLast?_append]
  exact fun h ↦ absurd (Option.some.inj h) (by decide)

theorem getLast?_append_mark_ne (t words : List Char) : (t ++ mark words).getLast? ≠ some '\n' := by
  rw [mark, ← List.append_assoc, ← List.append_assoc, List.getLast?_append]
  exact fun h ↦ absurd (Option.some.inj h) (by decide)

theorem Phrase.head?_append_mark_ne {t : List Char} (h : Phrase t) (words rest : List Char) :
    (t ++ (mark words ++ rest)).head? ≠ some '\n' := by
  cases t with
  | nil => exact fun h ↦ absurd (Option.some.inj h) (by decide)
  | cons c t =>
    intro hhead
    exact h.not_mem (Option.some.inj hhead ▸ List.mem_cons_self)

/-- A mark in front of a phrase and another mark. -/
theorem Phrase.pieces_mark_append {t : List Char} (ht : Phrase t) {ps : List Piece}
    (hps : ∀ rest, pieces .text (t ++ rest) = ps ++ pieces .text rest) {words : List Char}
    (h : '%' ∉ words) (next rest : List Char) :
    pieces .text (mark words ++ (t ++ (mark next ++ rest)))
      = .mark (' ' :: (words ++ [' '])) :: (ps ++ pieces .text (mark next ++ rest)) := by
  have hread := pieces_mark h (t ++ (mark next ++ rest))
    (.inr ⟨rfl, ht.head?_append_mark_ne next rest⟩)
  rw [List.nil_append] at hread
  rw [hread, hps]

/-- What a phrase says in front of the last mark of a part. -/
theorem sayAll_end (c : Context) (taken : Bool) {ps : List Piece} (h : ∀ p ∈ ps, p.isSaid = true)
    (qs : List Piece) :
    sayAll c (some taken) (ps ++ .mark (' ' :: (endWords ++ [' '])) :: qs)
      = (sayAll c none qs).map ((if taken then ps.flatMap (Piece.said c) else []) ++ ·) := by
  rw [sayAll_append c (some taken) h, sayAll, turn?_end]
  rfl

/-- Without the line feed at its end, what stands behind a mark is still a line feed or no line feed
and then the rest without the line feed at its end. -/
theorem exists_withoutLastFeed {feed rest : List Char}
    (h : feed = ['\n'] ∨ feed = [] ∧ rest.head? ≠ some '\n') :
    ∃ feed', (feed' = ['\n'] ∨ feed' = [] ∧ (withoutLastFeed rest).head? ≠ some '\n') ∧
      withoutLastFeed (feed ++ rest) = feed' ++ withoutLastFeed rest := by
  rcases h with rfl | ⟨rfl, hhead⟩
  · cases rest with
    | nil => exact ⟨[], .inr ⟨rfl, by decide⟩, rfl⟩
    | cons c rest => exact ⟨['\n'], .inl rfl, withoutLastFeed_append (by simp)⟩
  · exact ⟨[], .inr ⟨rfl, head?_withoutLastFeed_ne hhead⟩, rfl⟩

/-- **The standard engine keeps to the rules**, by induction on what they say of a template. -/
theorem sayAll_of_renders {c : Context} {cs out : List Char} (h : Renders c cs out) :
    sayAll c none (pieces .text (withoutLastFeed cs)) = .ok out := by
  induction h with
  | empty => rfl
  | @ending cs out hlast h ih =>
    have hcut : withoutLastFeed (cs ++ ['\n']) = withoutLastFeed cs := by
      simp [withoutLastFeed, hlast]
    rw [hcut, ih]
  | @text t rest out hplain hleads h ih =>
    have hrest : rest = [] → t.getLast? ≠ some '\n' := by
      rintro rfl
      rcases hleads with h | h | h | h
      · exact h.2
      · simp at h
      · simp at h
      · simp at h
    have hsaid : ∀ p ∈ t.map Piece.char, p.isSaid = true := by simp [Piece.isSaid]
    rw [withoutLastFeed_append hrest, pieces_text_append hplain, sayAll_append c none hsaid, ih]
    simp [Except.map, Piece.said, List.flatMap_map]
  | value hname hparted h ih =>
    rw [withoutLastFeed_append fun _ ↦ getLast?_slot_ne _, pieces_slot_append hname,
      ← List.singleton_append, sayAll_append c none (by simp [Piece.isSaid]), ih]
    simp [Except.map, said_slot hname]
  | plural hparted h ih =>
    rw [withoutLastFeed_append fun _ ↦ by decide, pieces_pluralSlot_append,
      ← List.singleton_append, sayAll_append c none (by simp [Piece.isSaid]), ih]
    simp [Except.map, said_pluralSlot]
  | @choice kind yes no feed said rest out hkind hyes hno hsaid hfeed hparted h ihsaid ih =>
    obtain ⟨feed', hfeed', hcut⟩ := exists_withoutLastFeed hfeed
    obtain ⟨ps, hps, hreadYes, hsaidYes⟩ := hyes.exists_said c
    obtain ⟨qs, hqs, hreadNo, hsaidNo⟩ := hno.exists_said c
    have hwhole : withoutLastFeed (Prompt.choice kind yes no ++ (feed ++ rest))
        = mark (kindWords kind) ++ (yes ++ (mark elseWords ++ (no ++ (mark endWords ++
            (feed' ++ withoutLastFeed rest))))) := by
      have hlast : (Prompt.choice kind yes no).getLast? ≠ some '\n' := by
        simpa [Prompt.choice] using getLast?_append_mark_ne
          (mark (kindWords kind) ++ (yes ++ (mark elseWords ++ no))) endWords
      rw [withoutLastFeed_append fun _ ↦ hlast, hcut]
      simp only [Prompt.choice, List.append_assoc]
    rw [hwhole, hyes.pieces_mark_append hreadYes (not_mem_kindWords hkind),
      hno.pieces_mark_append hreadNo (by decide), pieces_mark (by decide) _ hfeed', sayAll,
      turn?_kind hkind]
    simp only
    rw [sayAll_append c _ hps, sayAll, turn?_else]
    simp only
    rw [sayAll_end c _ hqs, ih]
    by_cases hk : c.kind.name = kind.name
    · rw [if_pos hk, hsaidYes] at ihsaid
      cases ihsaid
      simp [Except.map, hk]
    · rw [if_neg hk, hsaidNo] at ihsaid
      cases ihsaid
      simp [Except.map, hk]
  | @only kind yes feed said rest out hkind hyes hsaid hfeed hparted h ihsaid ih =>
    obtain ⟨feed', hfeed', hcut⟩ := exists_withoutLastFeed hfeed
    obtain ⟨ps, hps, hreadYes, hsaidYes⟩ := hyes.exists_said c
    have hwhole : withoutLastFeed (Prompt.only kind yes ++ (feed ++ rest))
        = mark (kindWords kind) ++ (yes ++ (mark endWords ++ (feed' ++ withoutLastFeed rest))) := by
      have hlast : (Prompt.only kind yes).getLast? ≠ some '\n' := by
        simpa [Prompt.only] using getLast?_append_mark_ne (mark (kindWords kind) ++ yes) endWords
      rw [withoutLastFeed_append fun _ ↦ hlast, hcut]
      simp only [Prompt.only, List.append_assoc]
    rw [hwhole, hyes.pieces_mark_append hreadYes (not_mem_kindWords hkind),
      pieces_mark (by decide) _ hfeed', sayAll, turn?_kind hkind]
    simp only
    rw [sayAll_end c _ hps, ih]
    by_cases hk : c.kind.name = kind.name
    · rw [if_pos hk, hsaidYes] at ihsaid
      cases ihsaid
      simp [Except.map, hk]
    · have hnone : said = [] := by
        rw [if_neg hk] at ihsaid
        exact (Except.ok.inj ihsaid).symm
      simp [Except.map, hk, hnone]

/-- The engine that knows text, values and parts that depend on the kind of a unit. -/
def Engine.standard : Engine where
  render cs c := sayAll c none (pieces .text (withoutLastFeed cs))
  keeps := sayAll_of_renders

end Docwright.Prompt
