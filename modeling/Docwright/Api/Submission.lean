import Docwright.Json.Encoding
import Docwright.Run
import Docwright.Text.Base64

/-!
# Submitting jobs

A submission asks for a job: either about the files of a folder or about files that it brings along.
`Submission.ofJson` takes it from structured data and finds all issues at once, each with its place;
`Submission.ofBytes` reads the data first. Fields that no submission has are passed over.
-/

namespace Docwright.Api

/-- A step on the way to a place in structured data. -/
inductive Step
  | field (name : String)
  | item (index : Nat)
  deriving DecidableEq, Repr

/-- What is wrong at a place. -/
inductive IssueKind
  | missing
  | notText
  | notList
  /-- The value is none of those that are allowed. -/
  | notAllowed
  | notObject
  /-- The fields contradict each other. -/
  | contradiction
  /-- The data cannot be read from the given place on. -/
  | unreadable
  deriving DecidableEq, Repr

/-- Something that is wrong with a submission. -/
structure Issue where
  kind : IssueKind
  place : List Step
  deriving DecidableEq, Repr

/-- The name of a kind of issue. -/
def IssueKind.name : IssueKind → String
  | missing => "missing"
  | notText => "string_type"
  | notList => "list_type"
  | notAllowed => "literal_error"
  | notObject => "model_attributes_type"
  | contradiction => "value_error"
  | unreadable => "json_invalid"

/-- A file that a submission brings along. -/
structure SentFile where
  path : String
  content : String
  /-- Whether the content is given in Base64. -/
  isBase64 : Bool := false
  deriving DecidableEq, Repr

/-- What a job is about. -/
inductive Input
  /-- The files of a folder. -/
  | folder (path : String)
  /-- Files that are brought along. -/
  | files (files : List SentFile)
  deriving DecidableEq, Repr

/-- A request for a job. -/
structure Submission where
  input : Input
  outputDir : String := "docs"
  mode : Option String := none
  jobId : Option String := none
  deriving DecidableEq, Repr

/-! ### Fields -/

/-- A value of a field, a stand-in for it, and what is wrong. -/
structure Checked (α : Type) where
  value : α
  issues : List Issue := []

/-- The place of a field in the object at a place. -/
def at_ (place : List Step) (name : String) : List Step :=
  place ++ [.field name]

/-- A text. -/
def text (place : List Step) (j : Json) : Checked String :=
  match j with
  | .text s => ⟨s, []⟩
  | _ => ⟨"", [⟨.notText, place⟩]⟩

/-- A text that must be there. -/
def requiredText (place : List Step) (j : Json) (name : String) : Checked String :=
  match j.field? name with
  | some v => text (at_ place name) v
  | none => ⟨"", [⟨.missing, at_ place name⟩]⟩

/-- A text that may be left out or be nothing. -/
def optionalText (place : List Step) (j : Json) (name : String) : Checked (Option String) :=
  match j.field? name with
  | none => ⟨none, []⟩
  | some .null => ⟨none, []⟩
  | some v =>
    let t := text (at_ place name) v
    ⟨some t.value, t.issues⟩

/-- One of the given texts. -/
def choice (place : List Step) (allowed : List String) (j : Json) : Checked String :=
  match j with
  | .text s => if allowed.contains s then ⟨s, []⟩ else ⟨s, [⟨.notAllowed, place⟩]⟩
  | _ => ⟨"", [⟨.notAllowed, place⟩]⟩

/-- A file that is brought along. -/
def sentFile (place : List Step) (j : Json) : Checked SentFile :=
  match j with
  | .object _ =>
    let path := requiredText place j "path"
    let content := requiredText place j "content"
    let encoding : Checked String := match j.field? "encoding" with
      | none => ⟨"utf-8", []⟩
      | some v => choice (at_ place "encoding") ["utf-8", "base64"] v
    ⟨⟨path.value, content.value, encoding.value == "base64"⟩,
      path.issues ++ content.issues ++ encoding.issues⟩
  | _ => ⟨⟨"", "", false⟩, [⟨.notObject, place⟩]⟩

/-- The files that are brought along, if any are. -/
def sentFiles (place : List Step) (j : Json) : Checked (Option (List SentFile)) :=
  match j.field? "files" with
  | none => ⟨none, []⟩
  | some .null => ⟨none, []⟩
  | some (.array items) =>
    let files := (items.zip (List.range items.length)).map fun (item, index) =>
      sentFile (at_ place "files" ++ [Step.item index]) item
    ⟨some (files.map (·.value)), files.flatMap (·.issues)⟩
  | some _ => ⟨none, [⟨.notList, at_ place "files"⟩]⟩

/-- The mode, if one is asked for. -/
def mode (place : List Step) (j : Json) : Checked (Option String) :=
  match j.field? "mode" with
  | none => ⟨none, []⟩
  | some .null => ⟨none, []⟩
  | some v =>
    let m := choice (at_ place "mode") generationModes v
    ⟨some m.value, m.issues⟩

/-- Where the data of a submission are. -/
def body : List Step := [.field "body"]

namespace Submission

/-- The submission that structured data make. That a job is about one input only is looked at when
every field is in order. -/
def ofJson (j : Json) : Except (List Issue) Submission :=
  match j with
  | .object _ =>
    let path := optionalText body j "path"
    let files := sentFiles body j
    let outputDir : Checked String := match j.field? "output_dir" with
      | none => ⟨"docs", []⟩
      | some v => text (at_ body "output_dir") v
    let mode := Api.mode body j
    let jobId := optionalText body j "job_id"
    let issues := path.issues ++ files.issues ++ outputDir.issues ++ mode.issues ++ jobId.issues
    if !issues.isEmpty then .error issues
    else
      match path.value, files.value with
      | some p, none => .ok ⟨.folder p, outputDir.value, mode.value, jobId.value⟩
      | none, some fs => .ok ⟨.files fs, outputDir.value, mode.value, jobId.value⟩
      | _, _ => .error [⟨.contradiction, body⟩]
  | _ => .error [⟨.notObject, body⟩]

/-- The submission in the data of a request; `none` when the data cannot be read at all. -/
def ofBytes (bytes : List UInt8) : Option (Except (List Issue) Submission) :=
  if bytes.isEmpty then some (.error [⟨.missing, body⟩])
  else
    match Json.textOf? bytes with
    | none => none
    | some cs =>
      match Json.parse cs with
      | .ok j => some (ofJson j)
      | .error fault =>
        (fault.position? cs.length).map fun position =>
          .error [⟨.unreadable, body ++ [.item position]⟩]

end Submission

/-- The file that is brought along; `none` when its content is not in Base64 although it should
be. -/
def SentFile.source? (f : SentFile) : Option SourceFile :=
  if f.isBase64 then (Text.Base64.decode? f.content.toList).map (⟨f.path, ·⟩)
  else some ⟨f.path, Text.Utf8.ofString f.content⟩

end Docwright.Api
