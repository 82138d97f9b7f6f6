import ComponentHost.Artifact
import ComponentHost.Cli.Arguments
import ComponentHost.Cli.Session
import ComponentHost.Component.Assembly
import ComponentHost.Component.Basic
import ComponentHost.Component.Behaviour
import ComponentHost.Component.Binary
import ComponentHost.Component.Catalogue
import ComponentHost.Component.Description
import ComponentHost.Component.Outline
import ComponentHost.Component.Package
import ComponentHost.Component.Refusal
import ComponentHost.Component.Sample
import ComponentHost.Config.Basic
import ComponentHost.Config.Toml
import ComponentHost.Decimal.Fixed
import ComponentHost.Decimal.Shortest
import ComponentHost.Entry.Module
import ComponentHost.Entry.Reference
import ComponentHost.Entry.Statement
import ComponentHost.Entry.Token
import ComponentHost.FileSet
import ComponentHost.Files.Path
import ComponentHost.Files.Tree
import ComponentHost.Interface.Datum
import ComponentHost.Interface.Decode
import ComponentHost.Interface.Encode
import ComponentHost.Interface.Ty
import ComponentHost.Invocation.Arguments
import ComponentHost.Invocation.Callable
import ComponentHost.Invocation.Error
import ComponentHost.Invocation.HostFunction
import ComponentHost.Json.Basic
import ComponentHost.Json.Number
import ComponentHost.Json.Parser
import ComponentHost.Json.Printer
import ComponentHost.KeyedList
import ComponentHost.Main
import ComponentHost.Namespace.EntryPoint
import ComponentHost.Namespace.Graph
import ComponentHost.Namespace.Walk
import ComponentHost.Proofs.Entry.Draft
import ComponentHost.Proofs.Entry.Grammar
import ComponentHost.Proofs.Entry.Layout
import ComponentHost.Proofs.Entry.Line
import ComponentHost.Proofs.Entry.Mount
import ComponentHost.Proofs.Entry.Naming
import ComponentHost.Proofs.Entry.Order
import ComponentHost.Proofs.Entry.Parse
import ComponentHost.Proofs.Entry.Pass
import ComponentHost.Proofs.Entry.Reference
import ComponentHost.Proofs.Entry.Remainder
import ComponentHost.Proofs.Entry.Replacement
import ComponentHost.Proofs.Entry.Showing
import ComponentHost.Proofs.Entry.Statement
import ComponentHost.Proofs.Entry.Step
import ComponentHost.Proofs.Entry.Stretch
import ComponentHost.Proofs.Entry.Template
import ComponentHost.Proofs.Entry.Token
import ComponentHost.Proofs.Interface.Decoding
import ComponentHost.Proofs.Interface.Reading
import ComponentHost.Proofs.Interface.RoundTrip
import ComponentHost.Proofs.Interface.Typing
import ComponentHost.Proofs.Json.RoundTrip
import ComponentHost.Proofs.Json.Scalar
import ComponentHost.Proofs.Namespace.Graph
import ComponentHost.Proofs.Namespace.Lookup
import ComponentHost.Proofs.Namespace.Path
import ComponentHost.Proofs.Namespace.Relabel
import ComponentHost.Proofs.Namespace.Setting
import ComponentHost.Proofs.Namespace.Walk
import ComponentHost.Proofs.Resource.Locator
import ComponentHost.Proofs.Resource.Table
import ComponentHost.Proofs.Runner.Artifact
import ComponentHost.Proofs.Runner.Coherence
import ComponentHost.Proofs.Runner.Evaluation
import ComponentHost.Proofs.Runner.Exposure
import ComponentHost.Proofs.Runner.Finding
import ComponentHost.Proofs.Runner.Handles
import ComponentHost.Proofs.Runner.History
import ComponentHost.Proofs.Runner.Isolation
import ComponentHost.Proofs.Runner.Link
import ComponentHost.Proofs.Runner.Meaning
import ComponentHost.Proofs.Runner.Ownership
import ComponentHost.Proofs.Runner.Placement
import ComponentHost.Proofs.Runner.Record
import ComponentHost.Proofs.Runner.Rejection
import ComponentHost.Proofs.Runner.Running
import ComponentHost.Proofs.Runner.Step
import ComponentHost.Proofs.Text.Blank
import ComponentHost.Proofs.Transpiler.Bundled
import ComponentHost.Resource.Handle
import ComponentHost.Resource.Table
import ComponentHost.Runner.Basic
import ComponentHost.Runner.Build
import ComponentHost.Runner.Log
import ComponentHost.Runner.Operation
import ComponentHost.Runner.State
import ComponentHost.Runner.Status
import ComponentHost.Text.Blank
import ComponentHost.Text.Printable
import ComponentHost.Text.Quoted
import ComponentHost.Text.Word
import ComponentHost.Transpiler.Basic
import ComponentHost.Transpiler.Bundled
