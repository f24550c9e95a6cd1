import Docwright.Proofs.Json.Text

/-!
# Values are read back as they are written

`parse_indented`: a value that is made of texts, objects and the number one, and is not nested too
deeply, is read back from its indented form. The names of an object must differ, since the reader
keeps only the last value of a name.

The reader is bounded by its fuel, of which every step takes one and leaves at least one character
less; so it is enough that there is more fuel than there are characters.
-/

namespace Docwright.Json

/-- A value that is made of texts, of objects whose names differ and of the number one, with objects
nested at most `depth` deep. -/
inductive Plain : Nat → Json → Prop
  | text {depth : Nat} (s : String) : Plain depth (.text s)
  | one {depth : Nat} : Plain depth (.whole 1)
  | object {depth : Nat} {fields : List (String × Json)} (distinct : (fields.map Prod.fst).Nodup)
      (inner : ∀ f ∈ fields, Plain depth f.2) : Plain (depth + 1) (.object fields)

/-! ### Gaps -/

@[simp] theorem skipGap_newLine (level : Nat) (cs : List Char) :
    skipGap (newLine level ++ cs) = skipGap cs := by
  have hspaces (n : Nat) : skipGap (List.replicate n ' ' ++ cs) = skipGap cs := by
    induction n with
    | zero => rfl
    | succ n ih => exact ih
  exact hspaces (2 * level)

theorem skipGap_cons {c : Char} (h : isGap c = false) (cs : List Char) :
    skipGap (c :: cs) = c :: cs := by
  rw [skipGap, List.dropWhile_cons_of_neg (by rw [h]; exact Bool.false_ne_true)]

/-- What a value starts with. -/
theorem exists_indentedAt_eq {depth : Nat} {j : Json} (h : Plain depth j) (level : Nat) :
    ∃ c cs, (c = '"' ∨ c = '1' ∨ c = '\x7b') ∧ indentedAt level j = c :: cs := by
  cases h with
  | text s => exact ⟨'"', _, Or.inl rfl, rfl⟩
  | one => exact ⟨'1', [], Or.inr (Or.inl rfl), rfl⟩
  | @object _ fields =>
    cases fields with
    | nil => exact ⟨'\x7b', _, Or.inr (Or.inr rfl), rfl⟩
    | cons field rest => exact ⟨'\x7b', _, Or.inr (Or.inr rfl), rfl⟩

theorem skipGap_indentedAt {depth : Nat} {j : Json} (h : Plain depth j) (level : Nat)
    (tail : List Char) : skipGap (indentedAt level j ++ tail) = indentedAt level j ++ tail := by
  obtain ⟨c, cs, hc, heq⟩ := exists_indentedAt_eq h level
  have hgap : isGap c = false := by rcases hc with rfl | rfl | rfl <;> rfl
  rw [heq, List.cons_append, skipGap_cons hgap]

/-! ### Scalars -/

/-- What may follow a value: nothing, a comma or the end of a line. -/
def Closes (tail : List Char) : Prop :=
  ∀ c ∈ tail.head?, c = ',' ∨ c = '\n'

/-- The number one ends where something else follows. -/
theorem readScalar_one {tail : List Char} (h : Closes tail) :
    readScalar ('1' :: tail) = .ok (.whole 1, tail) := by
  cases tail with
  | nil => rfl
  | cons c tail =>
    rcases h c rfl with rfl | rfl
    · rfl
    · rfl

theorem readValue_text (fuel depth : Nat) (s : String) (tail : List Char) :
    readValue (fuel + 1) depth (showText s ++ tail) = .ok (.text s, tail) := by
  have hread := readText_showText ((showText s ++ tail).length) [] s.toList tail
  rw [List.reverse_nil, List.nil_append, String.ofList_toList] at hread
  simp only [showText, List.cons_append, List.append_assoc, List.nil_append] at hread ⊢
  rw [readValue, hread]
  rfl

/-! ### Objects -/

/-- A new name comes last. -/
theorem setField_of_not_mem {fields : List (String × Json)} {name : String}
    (h : name ∉ fields.map Prod.fst) (value : Json) :
    setField fields name value = fields ++ [(name, value)] := by
  induction fields with
  | nil => rfl
  | cons field rest ih =>
    obtain ⟨n, v⟩ := field
    rw [List.map_cons, List.mem_cons, not_or] at h
    have hne : ¬(n == name) = true := fun heq ↦ h.1 (beq_iff_eq.1 heq).symm
    rw [setField, if_neg hne, ih h.2]
    rfl

/-- What the reader does with a value, whatever stands around it. -/
def ReadsBack (depth : Nat) (j : Json) : Prop :=
  ∀ level fuel tail, Closes tail → (indentedAt level j).length < fuel →
    readValue fuel depth (indentedAt level j ++ tail) = .ok (j, tail)

theorem closes_indentedFields (level : Nat) (fields : List (String × Json)) (tail : List Char) :
    Closes (indentedFields level fields ++ tail) := by
  cases fields with
  | nil =>
    intro c hc
    exact Or.inr (Option.some.inj hc).symm
  | cons field rest =>
    intro c hc
    exact Or.inl (Option.some.inj hc).symm

theorem showText_append (name : String) (cs : List Char) :
    showText name ++ cs = '"' :: (name.toList.flatMap showChar ++ '"' :: cs) := by
  simp [showText]

/-- **Reading one field** either ends the object or goes on behind a comma. -/
theorem readFields_step {depth level fuel : Nat} {value : Json} (hplain : Plain depth value)
    (hback : ReadsBack depth value) (hfuel : (indentedAt (level + 1) value).length < fuel)
    (found : List (String × Json)) (name : String) {after : List Char} (hafter : Closes after) :
    (∀ rest, skipGap after = '\x7d' :: rest →
      readFields (fuel + 1) depth found
          (showText name ++ ([':', ' '] ++ (indentedAt (level + 1) value ++ after)))
        = .ok (.object (setField found name value), rest)) ∧
    (∀ rest, skipGap after = ',' :: rest →
      readFields (fuel + 1) depth found
          (showText name ++ ([':', ' '] ++ (indentedAt (level + 1) value ++ after)))
        = readFields fuel depth (setField found name value) (skipGap rest)) := by
  have hname (opening : Nat) := readText_showText opening [] name.toList
    ([':', ' '] ++ (indentedAt (level + 1) value ++ after))
  simp only [List.reverse_nil, List.nil_append, String.ofList_toList] at hname
  have hcolon : skipGap ([':', ' '] ++ (indentedAt (level + 1) value ++ after))
      = ':' :: ' ' :: (indentedAt (level + 1) value ++ after) := rfl
  have hspace : skipGap (' ' :: (indentedAt (level + 1) value ++ after))
      = indentedAt (level + 1) value ++ after := skipGap_indentedAt hplain (level + 1) after
  have hvalue := hback (level + 1) fuel after hafter hfuel
  rw [showText_append]
  refine ⟨fun rest hrest ↦ ?_, fun rest hrest ↦ ?_⟩
  · rw [readFields, hname]
    simp only [hcolon, hspace, hvalue, hrest]
  · rw [readFields, hname]
    simp only [hcolon, hspace, hvalue, hrest]

theorem skipGap_indentedFields_nil (level : Nat) (tail : List Char) :
    skipGap (indentedFields level [] ++ tail) = '\x7d' :: tail := by
  rw [indentedFields, List.append_assoc, skipGap_newLine]
  rfl

theorem skipGap_indentedFields_cons (level : Nat) (name : String) (value : Json)
    (rest : List (String × Json)) (tail : List Char) :
    skipGap (indentedFields level ((name, value) :: rest) ++ tail)
      = ',' :: (newLine (level + 1) ++ (showText name ++ ([':', ' '] ++
        (indentedAt (level + 1) value ++ (indentedFields level rest ++ tail))))) := by
  rw [indentedFields]
  simp only [List.cons_append, List.append_assoc]
  exact skipGap_cons rfl _

/-- **The fields of an object are read back**, from the start of a name on. -/
theorem readFields_indented {depth : Nat} {level fuel : Nat} {found rest : List (String × Json)}
    {name : String} {value : Json} (hplain : ∀ f ∈ (name, value) :: rest, Plain depth f.2)
    (hback : ∀ f ∈ (name, value) :: rest, ReadsBack depth f.2)
    (hdistinct : ((found ++ (name, value) :: rest).map Prod.fst).Nodup) (tail : List Char)
    (hfuel : (indentedAt (level + 1) value ++ indentedFields level rest).length + 1 < fuel) :
    readFields fuel depth found (showText name ++ ([':', ' '] ++ (indentedAt (level + 1) value
        ++ (indentedFields level rest ++ tail))))
      = .ok (.object (found ++ (name, value) :: rest), tail) := by
  have hnew : name ∉ found.map Prod.fst := by
    rw [List.map_append] at hdistinct
    exact fun hmem ↦ (List.nodup_append.1 hdistinct).2.2 name hmem name (by simp) rfl
  induction rest generalizing found name value fuel with
  | nil =>
    obtain ⟨fuel, rfl⟩ : ∃ n, fuel = n + 1 := ⟨fuel - 1, by omega⟩
    have hvalue : (indentedAt (level + 1) value).length < fuel := by
      rw [List.length_append] at hfuel
      omega
    obtain ⟨hend, -⟩ := readFields_step (hplain _ List.mem_cons_self) (hback _ List.mem_cons_self)
      hvalue found name (closes_indentedFields level [] tail)
    rw [hend tail (skipGap_indentedFields_nil level tail), setField_of_not_mem hnew]
  | cons field rest ih =>
    obtain ⟨name', value'⟩ := field
    obtain ⟨fuel, rfl⟩ : ∃ n, fuel = n + 1 := ⟨fuel - 1, by omega⟩
    have hvalue : (indentedAt (level + 1) value).length < fuel := by
      rw [List.length_append] at hfuel
      omega
    obtain ⟨-, hnext⟩ := readFields_step (hplain _ List.mem_cons_self)
      (hback _ List.mem_cons_self) hvalue found name
      (closes_indentedFields level ((name', value') :: rest) tail)
    rw [hnext _ (skipGap_indentedFields_cons level name' value' rest tail), skipGap_newLine,
      setField_of_not_mem hnew]
    have hassoc : found ++ (name, value) :: (name', value') :: rest
        = found ++ [(name, value)] ++ (name', value') :: rest := by simp
    rw [hassoc] at hdistinct ⊢
    have hquote : skipGap (showText name' ++ ([':', ' '] ++ (indentedAt (level + 1) value'
        ++ (indentedFields level rest ++ tail)))) = showText name' ++ ([':', ' '] ++
          (indentedAt (level + 1) value' ++ (indentedFields level rest ++ tail))) := by
      rw [showText_append]
      exact skipGap_cons rfl _
    rw [hquote]
    refine ih (fun f hf ↦ hplain f (List.mem_cons_of_mem _ hf))
      (fun f hf ↦ hback f (List.mem_cons_of_mem _ hf)) hdistinct ?_ ?_
    · rw [indentedFields] at hfuel
      simp only [List.length_append, List.length_cons] at hfuel ⊢
      omega
    · rw [List.map_append] at hdistinct
      exact fun hmem ↦ (List.nodup_append.1 hdistinct).2.2 name' hmem name' (by simp) rfl

/-- **A plain value is read back as it is written.** -/
theorem readsBack {depth : Nat} {j : Json} (h : Plain depth j) : ReadsBack depth j := by
  induction h with
  | text s =>
    intro level fuel tail _ hfuel
    obtain ⟨fuel, rfl⟩ : ∃ n, fuel = n + 1 := ⟨fuel - 1, by omega⟩
    exact readValue_text fuel _ s tail
  | one =>
    intro level fuel tail htail hfuel
    obtain ⟨fuel, rfl⟩ : ∃ n, fuel = n + 1 := ⟨fuel - 1, by omega⟩
    rw [← readScalar_one htail]
    rfl
  | @object depth fields distinct inner ih =>
    intro level fuel tail htail hfuel
    obtain ⟨fuel, rfl⟩ : ∃ n, fuel = n + 1 := ⟨fuel - 1, by omega⟩
    cases fields with
    | nil => rfl
    | cons field rest =>
      obtain ⟨name, value⟩ := field
      rw [indentedAt] at hfuel ⊢
      simp only [List.length_append, List.length_cons, List.cons_append, List.append_assoc,
        List.nil_append] at hfuel ⊢
      have hquote (cs : List Char) :
          skipGap (newLine (level + 1) ++ (showText name ++ cs)) = showText name ++ cs := by
        rw [skipGap_newLine, showText_append]
        exact skipGap_cons rfl _
      have hfields : readFields fuel depth [] (showText name ++ ([':', ' '] ++
          (indentedAt (level + 1) value ++ (indentedFields level rest ++ tail))))
            = .ok (.object ([] ++ (name, value) :: rest), tail) :=
        readFields_indented inner ih distinct tail (by simp only [List.length_append]; omega)
      simp only [List.cons_append, List.nil_append] at hfields
      rw [readValue]
      simp only [hquote]
      rw [showText_append] at hfields ⊢
      exact hfields

/-- **What is written over several lines is read back.** -/
theorem parse_indented {j : Json} (h : Plain depthLimit j) : parse (indentedAt 0 j) = .ok j := by
  have hmark : ((indentedAt 0 j).head? == some '\uFEFF') = false := by
    obtain ⟨c, cs, hc, heq⟩ := exists_indentedAt_eq h 0
    rw [heq, List.head?_cons]
    rcases hc with rfl | rfl | rfl <;> rfl
  have hgap := skipGap_indentedAt h 0 []
  have hread := readsBack h 0 (2 * (indentedAt 0 j).length + 1) []
    (fun c hc ↦ absurd hc (by simp)) (by omega)
  rw [List.append_nil] at hgap hread
  rw [parse, parseWithin, hmark, hgap, hread]
  rfl

/-! ### One kind of line ending -/

theorem return_not_mem_unitEscape (n : Nat) : '\r' ∉ unitEscape n := by
  have hdigit (k : Nat) : '\r' ≠ Text.hexDigit (k % 16) := by
    have hall : ∀ k < 16, '\r' ≠ Text.hexDigit k := by decide
    exact hall _ (Nat.mod_lt _ (by decide))
  rw [unitEscape, hexDigits_four]
  simp [hdigit]

theorem return_not_mem_showChar (c : Char) : '\r' ∉ showChar c := by
  unfold showChar
  split
  case h_8 hreturn _ _ _ =>
    simp only
    split
    · simpa using fun h ↦ hreturn h.symm
    · split
      · exact return_not_mem_unitEscape _
      · rw [List.mem_append, not_or]
        exact ⟨return_not_mem_unitEscape _, return_not_mem_unitEscape _⟩
  all_goals decide

theorem return_not_mem_showText (s : String) : '\r' ∉ showText s := by
  intro h
  simp only [showText, List.cons_append, List.mem_cons, List.mem_append, List.mem_flatMap] at h
  rcases h with h | ⟨c, -, h⟩ | h
  · revert h
    decide
  · exact return_not_mem_showChar c h
  · revert h
    decide

theorem return_not_mem_newLine (level : Nat) : '\r' ∉ newLine level := by
  intro h
  rcases List.mem_cons.1 h with h | h
  · revert h
    decide
  · revert h
    rw [List.mem_replicate]
    simp

/-- The fields of an object are written without a carriage return when their values are. -/
theorem return_not_mem_indentedFields {fields : List (String × Json)}
    (h : ∀ f ∈ fields, ∀ level, '\r' ∉ indentedAt level f.2) (level : Nat) :
    '\r' ∉ indentedFields level fields := by
  induction fields with
  | nil =>
    rw [indentedFields, List.mem_append, not_or]
    exact ⟨return_not_mem_newLine level, by decide⟩
  | cons field rest ih =>
    obtain ⟨name, value⟩ := field
    have hvalue : '\r' ∉ indentedAt (level + 1) value := h _ List.mem_cons_self (level + 1)
    have hrest := ih fun f hf ↦ h f (List.mem_cons_of_mem _ hf)
    rw [indentedFields]
    simp [return_not_mem_newLine, return_not_mem_showText, hvalue, hrest]

/-- **No carriage return is written**, so every line ending is a line feed. -/
theorem return_not_mem_indentedAt {depth : Nat} {j : Json} (h : Plain depth j) (level : Nat) :
    '\r' ∉ indentedAt level j := by
  induction h generalizing level with
  | text s => exact return_not_mem_showText s
  | one =>
    show '\r' ∉ ['1']
    decide
  | @object depth fields distinct inner ih =>
    cases fields with
    | nil =>
      show '\r' ∉ ['\x7b', '\x7d']
      decide
    | cons field rest =>
      obtain ⟨name, value⟩ := field
      have hvalue : '\r' ∉ indentedAt (level + 1) value := ih _ List.mem_cons_self (level + 1)
      have hrest := return_not_mem_indentedFields
        (fun f hf ↦ ih f (List.mem_cons_of_mem _ hf)) level
      rw [indentedAt]
      simp [return_not_mem_newLine, return_not_mem_showText, hvalue, hrest]

end Docwright.Json
