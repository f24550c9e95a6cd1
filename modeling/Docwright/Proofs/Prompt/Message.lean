import Docwright.Prompt
import Docwright.Proofs.Text.Blank

/-!
# What a user message says

With the packaged templates the user message about a feature or a file is a header and then the
content (`exists_build_user`). The header is written down here in plain words, without templates
(`header`): it depends on the kind of the unit, its label, its languages and the number of its
files, and the label stands in it as it is. What follows is the content as far as the limit of the
tier lets it through (`shown`), again as it is. So a label or a content that looks like a template
is never read as one, and of a content that has anything but blanks only the blanks at its end are
lost.

This holds whatever makes texts of templates, as long as it keeps to the rules of the language. What
is shown here is that the packaged templates are put together by these rules, so that every engine
makes the same of them and none fails on one (`exists_renders_of_packaged?`).
-/

namespace Docwright.Prompt

/-! ### Plain words -/

/-- What the full message about a feature says before the content. -/
def groupHeader (label : List Char) (files : Nat) : List Char :=
  "Generate comprehensive documentation for the '".toList ++ label ++
    "' feature of this application. It spans ".toList ++ (toString files).toList ++
    " file".toList ++ (if files = 1 then "".toList else "s".toList) ++
    ". Here's the code structure:\n\n".toList

/-- What the full message about a file says before the content. -/
def fileHeader (label : List Char) (languages : List String) : List Char :=
  "Generate documentation for this ".toList ++ (languages.headD "source").toList ++
    " file: ".toList ++ label ++ "\n\n".toList

/-- What the simplified message says before the content. -/
def simplifiedHeader (kind : Page.UnitKind) (label : List Char) : List Char :=
  "Please document this ".toList ++
    (if kind = .group then "feature: ".toList else "file: ".toList) ++ label ++ "\n".toList

/-- What the user message of a tier says before the content. -/
def header (tier : Tier) (kind : Page.UnitKind) (label : List Char) (languages : List String)
    (files : Nat) : List Char :=
  match tier with
  | .full => if kind = .group then groupHeader label files else fileHeader label languages
  | .simplified => simplifiedHeader kind label

/-- A content as far as a limit lets it through: the whole of it unless the limit is positive and
the content longer. -/
def shown (content : List Char) (limit : Int) : List Char :=
  if 0 < limit ∧ limit < content.length then content.take limit.toNat ++ truncationMark
  else content

/-- A header starts with a word. -/
theorem exists_header_eq_cons (tier : Tier) (kind : Page.UnitKind) (label : List Char)
    (languages : List String) (files : Nat) :
    ∃ c rest, header tier kind label languages files = c :: rest ∧ Text.isBlank c = false := by
  cases tier
  case full =>
    rw [header]
    split
    · exact ⟨'G', _, rfl, by decide⟩
    · exact ⟨'G', _, rfl, by decide⟩
  case simplified => exact ⟨'P', _, rfl, by decide⟩

/-- Cutting shows what the limit lets through, and tells whether that is less than the content. -/
theorem truncate_eq (content : List Char) (limit : Int) :
    truncate content limit
      = (shown content limit, decide (0 < limit ∧ limit < content.length)) := by
  by_cases h : 0 < limit ∧ limit < content.length
  · have hcut : ¬(limit ≤ 0 ∨ (content.length : Int) ≤ limit) := by omega
    rw [truncate, if_neg hcut, shown, if_pos h, decide_eq_true h]
  · have hwhole : limit ≤ 0 ∨ (content.length : Int) ≤ limit := by omega
    rw [truncate, if_pos hwhole, shown, if_neg h, decide_eq_false h]

/-! ### Templates by the rules -/

section Rules

variable {c : Context}

theorem plain_text_nil : Plain (text []) :=
  List.forall_mem_nil _

/-- Text that is given in parts is without markup when its parts are. -/
theorem plain_text_cons {part : List Char} {parts : List String} (h : Plain part)
    (hparts : Plain (text parts)) : Plain (text (String.ofList part :: parts)) := by
  rw [text, List.flatMap_cons, String.toList_ofList]
  exact fun ch hch ↦ (List.mem_append.1 hch).elim (h ch) (hparts ch)

/-- Text without markup is on one line. -/
def OneLine (t : List Char) : Prop :=
  ∀ ch ∈ t, ch ≠ '\x7b' ∧ ch ≠ '\r' ∧ ch ≠ '\n'

instance (t : List Char) : Decidable (OneLine t) :=
  List.decidableBAll _ t

/-- A phrase goes on with text on the same line. -/
theorem phrase_text {t rest : List Char} (ht : OneLine t) (h : Phrase rest) :
    Phrase (t ++ rest) := by
  induction t with
  | nil => exact h
  | cons ch t ih =>
    obtain ⟨hch, ht⟩ := List.forall_mem_cons.1 ht
    exact .char hch (ih ht)

theorem phrase_alone {t : List Char} (ht : OneLine t) : Phrase t := by
  simpa using phrase_text ht .empty

theorem renders_alone {t : List Char} (ht : Plain t) (hlast : t.getLast? ≠ some '\n') :
    Renders c t t := by
  simpa using Renders.text ht (.inl ⟨rfl, hlast⟩) .empty

/-- One of two ways with nothing behind the last mark on its line but text. -/
theorem renders_choice {kind : Page.UnitKind} {yes no a b rest out : List Char}
    (hkind : kind ∈ toldKinds) (hyes : Phrase yes) (hno : Phrase no) (ha : Renders c yes a)
    (hb : Renders c no b) (hfeed : rest.head? ≠ some '\n') (hparted : Parted rest)
    (h : Renders c rest out) :
    Renders c (choice kind yes no ++ rest) ((if c.kind.name = kind.name then a else b) ++ out) := by
  have hsaid : Renders c (if c.kind.name = kind.name then yes else no)
      (if c.kind.name = kind.name then a else b) := by
    split
    · exact ha
    · exact hb
  have hnofeed : ([] : List Char) = ['\n'] ∨ ([] : List Char) = [] ∧ rest.head? ≠ some '\n' :=
    .inr ⟨rfl, hfeed⟩
  exact .choice hkind hyes hno hsaid hnofeed hparted h

/-- A part for units of a kind with nothing behind the last mark on its line but text. -/
theorem renders_only {kind : Page.UnitKind} {yes a rest out : List Char}
    (hkind : kind ∈ toldKinds) (hyes : Phrase yes) (ha : Renders c yes a)
    (hfeed : rest.head? ≠ some '\n') (hparted : Parted rest) (h : Renders c rest out) :
    Renders c (only kind yes ++ rest) ((if c.kind.name = kind.name then a else []) ++ out) := by
  have hsaid : Renders c (if c.kind.name = kind.name then yes else [])
      (if c.kind.name = kind.name then a else []) := by
    split
    · exact ha
    · exact .empty
  have hnofeed : ([] : List Char) = ['\n'] ∨ ([] : List Char) = [] ∧ rest.head? ≠ some '\n' :=
    .inr ⟨rfl, hfeed⟩
  exact .only hkind hyes hsaid hnofeed hparted h

/-- A value at the end of a phrase, behind text. -/
theorem renders_behind {t : List Char} {name : String} (ht : Plain t)
    (hname : name ∈ Context.names) :
    Renders c (t ++ slot name) (t ++ (c.value name).toList) := by
  have hvalue : Renders c (slot name ++ []) ((c.value name).toList ++ []) :=
    .value hname (by decide) .empty
  have hleads : Leads t (slot name ++ []) := .inr (.inr (.inl ⟨_, rfl⟩))
  simpa using Renders.text ht hleads hvalue

end Rules

section Packaged

variable (c : Context)

theorem value_label : c.value "label" = c.label := rfl

theorem value_filename : c.value "filename" = c.label := rfl

theorem value_fileCount : c.value "file_count" = toString c.fileCount := rfl

theorem value_language : c.value "language" = c.languages.headD "source" := rfl

theorem value_content : c.value "content" = c.content := rfl

theorem exists_renders_systemGroup : ∃ out, Renders c systemGroup out := by
  refine ⟨_, .text ?_ (.inr (.inr (.inl ⟨_, rfl⟩))) <| .value (by decide) (by decide) <|
    .text ?_ (.inr (.inl rfl)) <| .ending (by decide) .empty⟩
  all_goals repeat' first | refine plain_text_cons (by decide) ?_ | exact plain_text_nil

theorem renders_userGroup :
    Renders c userGroup (groupHeader c.label.toList c.fileCount ++ c.content.toList) := by
  have h : Renders c userGroup _ :=
    .text (by decide) (by decide) <| .value (by decide) (by decide) <|
    .text (by decide) (by decide) <| .value (by decide) (by decide) <|
    .text (by decide) (by decide) <| .plural (by decide) <|
    .text (by decide) (by decide) <| .value (by decide) (by decide) <| .ending (by decide) .empty
  have hplural : c.plural = if c.fileCount = 1 then "".toList else "s".toList := by
    simp [Context.plural]
  rw [value_label, value_fileCount, value_content, hplural] at h
  unfold groupHeader
  simpa only [-String.reduceToList, List.append_assoc, List.append_nil] using h

theorem exists_renders_systemFile : ∃ out, Renders c systemFile out := by
  refine ⟨_, .text (by decide) (.inr (.inr (.inl ⟨_, rfl⟩))) <| .value (by decide) (by decide) <|
    .text ?_ (.inr (.inr (.inl ⟨_, rfl⟩))) <| .value (by decide) (by decide) <|
    .text ?_ (.inr (.inl rfl)) <| .ending (by decide) .empty⟩
  all_goals repeat' first | refine plain_text_cons (by decide) ?_ | exact plain_text_nil

theorem renders_userFile :
    Renders c userFile (fileHeader c.label.toList c.languages ++ c.content.toList) := by
  have h : Renders c userFile _ :=
    .text (by decide) (by decide) <| .value (by decide) (by decide) <|
    .text (by decide) (by decide) <| .value (by decide) (by decide) <|
    .text (by decide) (by decide) <| .value (by decide) (by decide) <| .ending (by decide) .empty
  rw [value_language, value_filename, value_content] at h
  unfold fileHeader
  simpa only [-String.reduceToList, List.append_assoc, List.append_nil] using h

theorem exists_renders_systemSimplified : ∃ out, Renders c systemSimplified out :=
  ⟨_, .text (by decide) (by decide) <|
    renders_choice (by decide) (phrase_alone (by decide)) (phrase_alone (by decide))
      (renders_alone (by decide) (by decide)) (renders_alone (by decide) (by decide))
      (by decide) (by decide) <|
    .text (by decide) (by decide) <|
    renders_choice (by decide) (phrase_alone (by decide)) (phrase_alone (by decide))
      (renders_alone (by decide) (by decide)) (renders_alone (by decide) (by decide))
      (by decide) (by decide) <|
    .text (by decide) (by decide) <|
    renders_only (by decide) (phrase_alone (by decide)) (renders_alone (by decide) (by decide))
      (by decide) (by decide) <|
    .text (by decide) (.inr (.inl rfl)) <| .ending (by decide) .empty⟩

/-- The simplified message tells features from everything else. -/
theorem renders_userSimplified :
    Renders c userSimplified ("Please document this ".toList ++
      ((if c.kind.name = Page.UnitKind.group.name then "feature: ".toList ++ c.label.toList
        else "file: ".toList ++ c.label.toList) ++ ("\n".toList ++ c.content.toList))) := by
  have hphrase {t : List Char} {name : String} (ht : OneLine t) (hname : name ∈ Context.names) :
      Phrase (t ++ slot name) :=
    phrase_text ht (by simpa using Phrase.value hname .empty)
  have hway : Renders c
      (if c.kind.name = Page.UnitKind.group.name then "feature: ".toList ++ slot "label"
        else "file: ".toList ++ slot "filename")
      (if c.kind.name = Page.UnitKind.group.name then "feature: ".toList ++ c.label.toList
        else "file: ".toList ++ c.label.toList) := by
    split
    · exact renders_behind (by decide) (by decide)
    · exact renders_behind (by decide) (by decide)
  have h : Renders c userSimplified _ :=
    .text (by decide) (by decide) <|
    .choice (by decide) (hphrase (by decide) (by decide)) (hphrase (by decide) (by decide)) hway
      (.inl rfl) (by decide) <|
    .text (by decide) (by decide) <| .value (by decide) (by decide) <| .ending (by decide) .empty
  rw [value_content] at h
  simpa only [-String.reduceToList, List.append_nil] using h

/-- **Every packaged template is put together by the rules.** -/
theorem exists_renders_of_packaged? {name : String} {template : List Char}
    (h : packaged? name = some template) : ∃ out, Renders c template out := by
  unfold packaged? at h
  split at h
  case h_1 => exact Option.some.inj h ▸ exists_renders_systemGroup c
  case h_2 => exact Option.some.inj h ▸ ⟨_, renders_userGroup c⟩
  case h_3 => exact Option.some.inj h ▸ exists_renders_systemFile c
  case h_4 => exact Option.some.inj h ▸ ⟨_, renders_userFile c⟩
  case h_5 => exact Option.some.inj h ▸ exists_renders_systemSimplified c
  case h_6 => exact Option.some.inj h ▸ ⟨_, renders_userSimplified c⟩
  case h_7 => cases h

end Packaged

/-! ### Messages -/

/-- What a template that is put together by the rules says, whatever makes a text of it. -/
theorem say_of_renders {s : Settings} (hpackaged : s.templates = []) {name : String}
    {template out : List Char} (hname : packaged? name = some template) {c : Context}
    (h : Renders c template out) : s.say name c = .ok (String.ofList (Text.strip out)) := by
  have htemplate : s.template? name = some template := by
    rw [Settings.template?, hpackaged]
    exact hname
  rw [Settings.say, htemplate]
  simp only [s.engine.keeps h]
  rfl

/-- The name of the template of a system message. -/
def systemName (tier : Tier) (kind : Page.UnitKind) : String :=
  s!"system_{tier.templateName kind}.j2"

/-- The name of the template of a user message. -/
def userName (tier : Tier) (kind : Page.UnitKind) : String :=
  s!"user_{tier.templateName kind}.j2"

/-- The prompt of packaged templates that say something. -/
theorem build_eq {s : Settings} (hpackaged : s.templates = []) {tier : Tier} {u : Page.PageUnit}
    {system user said : List Char} (hsystem : packaged? (systemName tier u.kind) = some system)
    (huser : packaged? (userName tier u.kind) = some user)
    (h : Renders (contextOf u (shown u.content.toList (s.limit tier))) user said) :
    ∃ other, build s tier u = .ok ⟨other, String.ofList (Text.strip said), tier.temperature,
      decide (0 < s.limit tier ∧ s.limit tier < u.content.toList.length)⟩ := by
  obtain ⟨other, hother⟩ := exists_renders_of_packaged?
    (contextOf u (shown u.content.toList (s.limit tier))) hsystem
  refine ⟨String.ofList (Text.strip other), ?_⟩
  have hsay := say_of_renders hpackaged hsystem hother
  have hsay' := say_of_renders hpackaged huser h
  rw [systemName] at hsay
  rw [userName] at hsay'
  rw [build, truncate_eq]
  simp only [hsay, hsay']
  rfl

/-- **The packaged user messages are the header and the content.** -/
theorem exists_renders_user (tier : Tier) {u : Page.PageUnit}
    (hkind : u.kind = .group ∨ u.kind = .file) (content : List Char) :
    ∃ user, packaged? (userName tier u.kind) = some user ∧
      Renders (contextOf u content) user
        (header tier u.kind u.label.toList (languagesOf u) u.files.length ++ content) := by
  have hcontent : (contextOf u content).content.toList = content := String.toList_ofList
  cases tier
  case full =>
    rcases hkind with h | h
    · refine ⟨userGroup, by rw [h]; rfl, ?_⟩
      have hsaid := renders_userGroup (contextOf u content)
      rw [hcontent] at hsaid
      rwa [header, if_pos h]
    · refine ⟨userFile, by rw [h]; rfl, ?_⟩
      have hsaid := renders_userFile (contextOf u content)
      rw [hcontent] at hsaid
      rwa [header, if_neg (by simp [h])]
  case simplified =>
    refine ⟨userSimplified, rfl, ?_⟩
    have hname : ((contextOf u content).kind.name = Page.UnitKind.group.name)
        = (u.kind = .group) := by
      change (u.kind.name = _) = _
      rcases hkind with h | h <;> rw [h] <;> decide
    have hlabel : (contextOf u content).label = u.label := rfl
    have hsaid := renders_userSimplified (contextOf u content)
    rw [hcontent, hlabel] at hsaid
    rw [header]
    unfold simplifiedHeader
    rcases hkind with h | h
    · simpa only [-String.reduceToList, hname, if_pos h, List.append_assoc] using hsaid
    · have hgroup : u.kind ≠ .group := by simp [h]
      simpa only [-String.reduceToList, hname, if_neg hgroup, List.append_assoc] using hsaid

/-- **Every unit has a prompt of the simplified tier, and features and files have one of each.** -/
theorem exists_build {s : Settings} (hpackaged : s.templates = []) {tier : Tier} {u : Page.PageUnit}
    (hkind : tier = .full → u.kind = .group ∨ u.kind = .file) :
    ∃ prompt, build s tier u = .ok prompt := by
  have hfound : ∃ system user, packaged? (systemName tier u.kind) = some system ∧
      packaged? (userName tier u.kind) = some user := by
    cases tier
    case full => rcases hkind rfl with h | h <;> rw [h] <;> exact ⟨_, _, rfl, rfl⟩
    case simplified => exact ⟨_, _, rfl, rfl⟩
  obtain ⟨system, user, hsystem, huser⟩ := hfound
  obtain ⟨said, hsaid⟩ := exists_renders_of_packaged?
    (contextOf u (shown u.content.toList (s.limit tier))) huser
  obtain ⟨other, hbuild⟩ := build_eq hpackaged hsystem huser hsaid
  exact ⟨_, hbuild⟩

/-- **A user message is the header and what the limit shows of the content**, without the blanks
around the whole, whatever engine makes texts of templates. It is marked as cut exactly when the
limit is positive and the content longer. Where something other than blanks is shown, only blanks at
the end of it are missing. -/
theorem exists_build_user {s : Settings} (hpackaged : s.templates = []) (tier : Tier)
    {u : Page.PageUnit} (hkind : u.kind = .group ∨ u.kind = .file) :
    ∃ prompt, build s tier u = .ok prompt ∧
      prompt.user.toList = Text.strip
        (header tier u.kind u.label.toList (languagesOf u) u.files.length ++
          shown u.content.toList (s.limit tier)) ∧
      (prompt.truncated = true ↔
        0 < s.limit tier ∧ s.limit tier < u.content.toList.length) ∧
      ((∃ c ∈ shown u.content.toList (s.limit tier), Text.isBlank c = false) →
        prompt.user.toList
          = header tier u.kind u.label.toList (languagesOf u) u.files.length ++
            Text.stripRight (shown u.content.toList (s.limit tier))) := by
  obtain ⟨user, huser, hsaid⟩ :=
    exists_renders_user tier hkind (shown u.content.toList (s.limit tier))
  have hsystem : ∃ system, packaged? (systemName tier u.kind) = some system := by
    rcases hkind with h | h <;> rw [h] <;> cases tier <;> exact ⟨_, rfl⟩
  obtain ⟨system, hsystem⟩ := hsystem
  obtain ⟨other, hbuild⟩ := build_eq hpackaged hsystem huser hsaid
  have hmessage : (String.ofList (Text.strip
      (header tier u.kind u.label.toList (languagesOf u) u.files.length ++
        shown u.content.toList (s.limit tier)))).toList
        = Text.strip (header tier u.kind u.label.toList (languagesOf u) u.files.length ++
          shown u.content.toList (s.limit tier)) :=
    String.toList_ofList
  refine ⟨_, hbuild, hmessage, decide_eq_true_iff, fun hshown ↦ hmessage.trans ?_⟩
  obtain ⟨c, rest, hheader, hblank⟩ :=
    exists_header_eq_cons tier u.kind u.label.toList (languagesOf u) u.files.length
  rw [Text.strip, hheader, List.cons_append, Text.stripLeft_cons hblank, ← List.cons_append,
    Text.stripRight_append hshown]

/-- A feature whose label and content look like templates, shown up to the seventh character by the
standard engine. -/
theorem exists_build_user_braces :
    let s : Settings := ⟨7, 0, [], .standard⟩
    let u : Page.PageUnit := ⟨.group, "\x7b\x7b content \x7d\x7d", "", ["a.py", "b.js"],
      "\x7b\x7b 1 \x7d\x7d\x7b# gone #\x7d", []⟩
    s.templates = [] ∧ (u.kind = .group ∨ u.kind = .file) ∧
      ∃ prompt, build s .full u = .ok prompt ∧ prompt.truncated = true ∧
        prompt.user.toList = text [
          "Generate comprehensive documentation for the ",
          "'\x7b\x7b content \x7d\x7d' feature of this application. It spans 2 files. ",
          "Here's the code structure:\n\n\x7b\x7b 1 \x7d\x7d\n\n... (content truncated)"] := by
  intro s u
  have hpackaged : s.templates = [] := rfl
  have hkind : u.kind = .group ∨ u.kind = .file := .inl rfl
  obtain ⟨prompt, hbuild, huser, hcut, -⟩ := exists_build_user hpackaged .full hkind
  refine ⟨hpackaged, hkind, prompt, hbuild, hcut.2 (by decide), huser.trans (by decide +kernel)⟩

end Docwright.Prompt
