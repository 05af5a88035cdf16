import TypedApi.Main
import TypedApi.Program.Script
import TypedApi.Proofs.Code.Arguments
import TypedApi.Proofs.Code.Comment
import TypedApi.Proofs.Code.Exports
import TypedApi.Proofs.Code.Import
import TypedApi.Proofs.Code.MemberKeys
import TypedApi.Proofs.Code.Names
import TypedApi.Proofs.Code.Rendering
import TypedApi.Proofs.Code.Words
import TypedApi.Proofs.Concurrence
import TypedApi.Proofs.Files.Changes
import TypedApi.Proofs.Files.Entries
import TypedApi.Proofs.Files.Paths
import TypedApi.Proofs.Generation.Accepted
import TypedApi.Proofs.Generation.Closure
import TypedApi.Proofs.Generation.DistinctFiles
import TypedApi.Proofs.Generation.Drafts
import TypedApi.Proofs.Generation.Locality
import TypedApi.Proofs.Generation.ModeAgreement
import TypedApi.Proofs.Generation.Places
import TypedApi.Proofs.Generation.Refusals
import TypedApi.Proofs.Generation.Restyled
import TypedApi.Proofs.Generation.TagClash
import TypedApi.Proofs.Generation.TagNames
import TypedApi.Proofs.Generation.TagOrder
import TypedApi.Proofs.Naming.Casing
import TypedApi.Proofs.Naming.Humps
import TypedApi.Proofs.Naming.Spelling
import TypedApi.Proofs.Noted
import TypedApi.Proofs.Operation.Grouping
import TypedApi.Proofs.Operation.MethodNames
import TypedApi.Proofs.Operation.Parameters
import TypedApi.Proofs.Operation.PathArrays
import TypedApi.Proofs.Operation.PathTemplate
import TypedApi.Proofs.Operation.References
import TypedApi.Proofs.Operation.Refusals
import TypedApi.Proofs.Operation.Restyled
import TypedApi.Proofs.Operation.Route
import TypedApi.Proofs.Operation.Signature
import TypedApi.Proofs.Operation.TemplateGrammar
import TypedApi.Proofs.Output.ContentHash
import TypedApi.Proofs.Output.Handler
import TypedApi.Proofs.Output.HandlerNames
import TypedApi.Proofs.Output.InheritedMembers
import TypedApi.Proofs.Output.Members
import TypedApi.Proofs.Output.Model
import TypedApi.Proofs.Output.ModelNames
import TypedApi.Proofs.Output.StringArrays
import TypedApi.Proofs.Output.TagFiles
import TypedApi.Proofs.Refusal
import TypedApi.Proofs.Run.Generated
import TypedApi.Proofs.Run.Interrupted
import TypedApi.Proofs.Run.Plan
import TypedApi.Proofs.Run.Session
import TypedApi.Proofs.Run.Spared
import TypedApi.Proofs.Run.Steps
import TypedApi.Proofs.Run.Unformatted
import TypedApi.Proofs.Run.UpToDate
import TypedApi.Proofs.Run.Written
import TypedApi.Proofs.Schema.Acceptance
import TypedApi.Proofs.Schema.CodecTree
import TypedApi.Proofs.Schema.Demands
import TypedApi.Proofs.Schema.Expressions
import TypedApi.Proofs.Schema.Imports
import TypedApi.Proofs.Schema.Layout
import TypedApi.Proofs.Schema.Mentions
import TypedApi.Proofs.Schema.NamedPlaces
import TypedApi.Proofs.Schema.Nodes
import TypedApi.Proofs.Schema.ParameterText
import TypedApi.Proofs.Schema.Printers
import TypedApi.Proofs.Schema.ReferenceText
import TypedApi.Proofs.Schema.References
import TypedApi.Proofs.Schema.Refusals
import TypedApi.Proofs.Schema.Registry
import TypedApi.Proofs.Schema.Resolution
import TypedApi.Proofs.Schema.Restyled
import TypedApi.Proofs.Schema.Splicing
import TypedApi.Proofs.Schema.Usage
import TypedApi.Proofs.Schema.Words
import TypedApi.Proofs.Support.Declarations
import TypedApi.Proofs.Text.Json
import TypedApi.Proofs.Text.Literal
import TypedApi.Proofs.Text.Word
