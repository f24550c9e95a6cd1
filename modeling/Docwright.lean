import Docwright.Api.Serve
import Docwright.Api.Submission
import Docwright.Api.Target
import Docwright.Cache
import Docwright.Clock
import Docwright.Command.Execute
import Docwright.Command.Invocation
import Docwright.Command.Words
import Docwright.Config
import Docwright.Crash
import Docwright.Digest
import Docwright.Feature
import Docwright.Files.Disk
import Docwright.Files.Entry
import Docwright.Files.Path
import Docwright.Generation
import Docwright.Job
import Docwright.Json.Basic
import Docwright.Json.Encoding
import Docwright.Json.Printer
import Docwright.Json.Reader
import Docwright.Json.Whole
import Docwright.Log
import Docwright.Main
import Docwright.Number.Basic
import Docwright.Number.Binary64
import Docwright.Number.Reading
import Docwright.Number.Shortest
import Docwright.Outline.Extract
import Docwright.Outline.Python
import Docwright.Outline.Script
import Docwright.Outline.Symbol
import Docwright.Outline.SyntaxTree
import Docwright.Page.Document
import Docwright.Page.Fallback
import Docwright.Page.FrontMatter
import Docwright.Page.Lint
import Docwright.Page.Review
import Docwright.Page.Slug
import Docwright.Page.Unit
import Docwright.Prompt
import Docwright.Proofs.Api.Serve
import Docwright.Proofs.Cache.Cycle
import Docwright.Proofs.Cache.Key
import Docwright.Proofs.Cache.Opening
import Docwright.Proofs.Cache.Snapshot
import Docwright.Proofs.Cache.Store
import Docwright.Proofs.Config.Load
import Docwright.Proofs.Config.SetUp
import Docwright.Proofs.Config.Settings
import Docwright.Proofs.Feature.Groups
import Docwright.Proofs.Files.Disk
import Docwright.Proofs.Files.Entry
import Docwright.Proofs.Files.Ground
import Docwright.Proofs.Files.Kept
import Docwright.Proofs.Files.Name
import Docwright.Proofs.Files.ReadBack
import Docwright.Proofs.Generation.Memory
import Docwright.Proofs.Generation.Outcome
import Docwright.Proofs.Generation.Session
import Docwright.Proofs.Generation.Tier
import Docwright.Proofs.Generation.Unavailable
import Docwright.Proofs.Job.Actions
import Docwright.Proofs.Job.Conduct
import Docwright.Proofs.Job.Growth
import Docwright.Proofs.Job.Ledger
import Docwright.Proofs.Job.Memory
import Docwright.Proofs.Job.Status
import Docwright.Proofs.Json.Distinct
import Docwright.Proofs.Json.Fields
import Docwright.Proofs.Json.Limits
import Docwright.Proofs.Json.Sorting
import Docwright.Proofs.Json.Text
import Docwright.Proofs.Json.Value
import Docwright.Proofs.Number.Doubling
import Docwright.Proofs.Number.Range
import Docwright.Proofs.Outline.Batch
import Docwright.Proofs.Outline.Definitions
import Docwright.Proofs.Outline.Exports
import Docwright.Proofs.Outline.Failure
import Docwright.Proofs.Outline.Fault
import Docwright.Proofs.Outline.Nameless.Python
import Docwright.Proofs.Outline.Nameless.Script
import Docwright.Proofs.Outline.Order
import Docwright.Proofs.Outline.Places
import Docwright.Proofs.Outline.Python
import Docwright.Proofs.Outline.Script
import Docwright.Proofs.Outline.Tree
import Docwright.Proofs.Page.Again
import Docwright.Proofs.Page.Dropped
import Docwright.Proofs.Page.Excerpt
import Docwright.Proofs.Page.Fallback
import Docwright.Proofs.Page.FrontMatter
import Docwright.Proofs.Page.Layout
import Docwright.Proofs.Page.Lint
import Docwright.Proofs.Page.Opening
import Docwright.Proofs.Page.Prose
import Docwright.Proofs.Page.Slug
import Docwright.Proofs.Prompt.Message
import Docwright.Proofs.Run.Career
import Docwright.Proofs.Run.Chats
import Docwright.Proofs.Run.Origins
import Docwright.Proofs.Run.Spared
import Docwright.Proofs.Run.Stages
import Docwright.Proofs.Run.Unavailable
import Docwright.Proofs.Run.Untouched
import Docwright.Proofs.Service.Address
import Docwright.Proofs.Service.Backoff
import Docwright.Proofs.Service.Course
import Docwright.Proofs.Service.Endpoint
import Docwright.Proofs.Service.Gate
import Docwright.Proofs.Service.Retry
import Docwright.Proofs.Site.Agreement
import Docwright.Proofs.Site.Arrangement
import Docwright.Proofs.Site.Bare
import Docwright.Proofs.Site.Contents
import Docwright.Proofs.Site.DocId
import Docwright.Proofs.Site.Frame
import Docwright.Proofs.Site.Fresh
import Docwright.Proofs.Site.Identity
import Docwright.Proofs.Site.Isolation
import Docwright.Proofs.Site.Listing
import Docwright.Proofs.Site.Materialize
import Docwright.Proofs.Site.Navigation
import Docwright.Proofs.Site.Overview
import Docwright.Proofs.Site.PageId
import Docwright.Proofs.Site.Quiet
import Docwright.Proofs.Site.Replay
import Docwright.Proofs.Site.Settled
import Docwright.Proofs.Site.Touched
import Docwright.Proofs.Site.Vacant
import Docwright.Proofs.Source.Rules
import Docwright.Proofs.Source.Survey
import Docwright.Proofs.Source.Walk
import Docwright.Proofs.Text.Blank
import Docwright.Proofs.Text.Case
import Docwright.Proofs.Text.Lines
import Docwright.Proofs.Text.Utf8
import Docwright.Proofs.Text.Wellformed
import Docwright.Run
import Docwright.Service.Address
import Docwright.Service.Endpoint
import Docwright.Service.Failure
import Docwright.Service.Gate
import Docwright.Service.Retry
import Docwright.Sink
import Docwright.Site.Materialize
import Docwright.Site.Navigation
import Docwright.Source.File
import Docwright.Source.Ignore
import Docwright.Source.Language
import Docwright.Source.Name
import Docwright.Source.Screening
import Docwright.Source.Survey
import Docwright.Template.Rules
import Docwright.Template.Standard
import Docwright.Text.Base64
import Docwright.Text.Blank
import Docwright.Text.Case
import Docwright.Text.CaseTable
import Docwright.Text.CodeSet
import Docwright.Text.Digit
import Docwright.Text.Lines
import Docwright.Text.Printable
import Docwright.Text.Quoted
import Docwright.Text.Utf8
import Docwright.Text.Wildcard
import Docwright.Text.WordChar
import Docwright.Yaml.Lexer
import Docwright.Yaml.Node
import Docwright.Yaml.Scalar
import Docwright.Yaml.Stamp
import Docwright.Yaml.Tag
import Docwright.Yaml.Token
import Docwright.Yaml.Value
