import Datacrate.Lib.KeyedList
import Datacrate.Lib.BoundedLog
import Datacrate.Lib.Transition
import Datacrate.Lib.Interaction
import Datacrate.Lib.Requests
import Datacrate.Lib.Usize
import Datacrate.Lib.Chunks
import Datacrate.Contracts.Shape
import Datacrate.Contracts.Compare
import Datacrate.Contracts.Differences
import Datacrate.Contracts.Check
import Datacrate.Contracts.Relation
import Datacrate.Contracts.Laws
import Datacrate.Contracts.Strength
import Datacrate.Ingest.Batch
import Datacrate.Ingest.ArrowLibrary
import Datacrate.Ingest.Checked
import Datacrate.Ingest.Rows
import Datacrate.Bounded.Errors
import Datacrate.Bounded.Transport
import Datacrate.Bounded.Sections
import Datacrate.Bounded.System
import Datacrate.Bounded.Accounting
import Datacrate.Bounded.Delivery
import Datacrate.Bounded.Waiting
import Datacrate.Bounded.SyncChannel
import Datacrate.Bounded.Token
import Datacrate.Bounded.Channel
import Datacrate.Bounded.Failures
import Datacrate.Bounded.Pipeline
import Datacrate.Bounded.Producing
import Datacrate.Bounded.Consuming
import Datacrate.Bounded.Result
import Datacrate.Bounded.Atomicity
import Datacrate.Bounded.Progress
import Datacrate.Bounded.Termination
import Datacrate.Bounded.Completion
import Datacrate.Remote.Path
import Datacrate.Remote.Errors
import Datacrate.Remote.Manifest
import Datacrate.Remote.Publish
import Datacrate.Remote.Keys
import Datacrate.Remote.Store
import Datacrate.Remote.Steps
import Datacrate.Remote.Outcome
import Datacrate.Remote.Ownership
import Datacrate.Remote.Download
import Datacrate.Remote.Snapshot
import Datacrate.Remote.Promise
import Datacrate.Remote.Agreement
import Datacrate.Remote.Pipeline
import Datacrate.Lib.Fallible
import Datacrate.Contracts.Ordered
import Datacrate.Arrow.DataType
import Datacrate.Arrow.Mapping
import Datacrate.Arrow.Array
import Datacrate.Arrow.Validation
import Datacrate.Arrow.Denotation
import Datacrate.Arrow.Soundness
import Datacrate.Arrow.Batch
import Datacrate.Arrow.Slice
import Datacrate.Arrow.Injective
import Datacrate.Arrow.Conformance
import Datacrate.Typestate.Pipeline
import Datacrate.Typestate.Run
import Datacrate.Typestate.Delivery
import Datacrate.Codegen.Render
import Datacrate.Codegen.Text
import Datacrate.Codegen.Names
import Datacrate.Codegen.RoundTrip
import Datacrate.Codegen.Acceptance
import Datacrate.Lib.Text
import Datacrate.Codegen.Declared
import Datacrate.Codegen.Composition
import Datacrate.Codegen.Spelling
import Datacrate.Ingest.Digest
import Datacrate.Bounded.Consumption
import Datacrate.Lib.Numeral
import Datacrate.Query.Amount
import Datacrate.Scaffold.Dataframe
import Datacrate.Scaffold.Grammar
import Datacrate.Scaffold.Chain
import Datacrate.Lib.Fields
import Datacrate.Remote.Wire
import Datacrate.Remote.Json
import Datacrate.Remote.Multipart
import Datacrate.Remote.Uploading
import Datacrate.Remote.UploadProgress
import Datacrate.Remote.Handover
import Datacrate.Remote.Faultless
import Datacrate.Remote.Refinement
import Datacrate.Lib.Aggregate
import Datacrate.Query.AmountRange
import Datacrate.Query.Guardrail
import Datacrate.Lib.RowMajor
import Datacrate.Lib.Buffer
import Datacrate.Arrow.Primitive
import Datacrate.Layout.Batch
import Datacrate.Layout.Transpose
import Datacrate.Layout.RoundTrip
import Datacrate.Simd.Add
import Datacrate.Codegen.Documents
import Datacrate.Codegen.Gate
import Datacrate.Codegen.SchemaGate
import Datacrate.Scaffold.Program
import Datacrate.Bounded.Reporting
import Datacrate.Remote.EndToEnd
import Datacrate.Bounded.Liveness
import Datacrate.Lib.Fleet
import Datacrate.Remote.Tenants
import Datacrate.Lib.Disk
import Datacrate.Lib.Replacement
import Datacrate.Bounded.Staging
import Datacrate.Bounded.Durability
import Datacrate.Scaffold.Command
import Datacrate.Bounded.Undisturbed
import Datacrate.Bounded.Loop
import Datacrate.Bounded.Sequential
import Datacrate.Typestate.Builder
import Datacrate.Scaffold.Runtime
import Datacrate.Ingest.ReadBack
import Datacrate.Bounded.ReadBack
import Datacrate.Derive.Attribute
import Datacrate.Derive.Contract
import Datacrate.Derive.Mapping
import Datacrate.Derive.Generated
import Datacrate.Ballista.App
import Datacrate.Query.Orders
