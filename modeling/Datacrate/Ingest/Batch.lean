import Datacrate.Remote.Errors

namespace Datacrate.Ingest

open Datacrate.Remote

inductive DataType where
  | int64
  | utf8
  | other (name : String)
  deriving DecidableEq, Repr

structure Field where
  name : String
  dataType : DataType
  nullable : Bool
  deriving DecidableEq, Repr

/-- An Arrow array. A foreign one has a representation the pipeline cannot
downcast to; only its validity matters here. -/
inductive Column where
  | int64 (values : List (Option Int))
  | utf8 (values : List (Option String))
  | foreign (dataType : DataType) (validity : List Bool)
  deriving DecidableEq, Repr

def Column.dataType : Column → DataType
  | .int64 _ => .int64
  | .utf8 _ => .utf8
  | .foreign dataType _ => dataType

def Column.length : Column → Nat
  | .int64 values => values.length
  | .utf8 values => values.length
  | .foreign _ validity => validity.length

def Column.nullCount : Column → Nat
  | .int64 values => values.countP Option.isNone
  | .utf8 values => values.countP Option.isNone
  | .foreign _ validity => validity.countP (! ·)

/-- One position of a column. -/
inductive Cell where
  | int64 (value : Option Int)
  | utf8 (value : Option String)
  | foreign (valid : Bool)
  deriving DecidableEq, Repr

def Column.cells : Column → List Cell
  | .int64 values => values.map .int64
  | .utf8 values => values.map .utf8
  | .foreign _ validity => validity.map .foreign

/-- An Arrow record batch: columns of the declared types and of one length. -/
structure RecordBatch where
  schema : List Field
  columns : List Column
  numRows : Nat
  typed : columns.map Column.dataType = schema.map Field.dataType
  aligned : ∀ column ∈ columns, column.length = numRows

def RecordBatch.row (batch : RecordBatch) (i : Nat) : List (Option Cell) :=
  batch.columns.map fun column => column.cells[i]?

/-- The contents of a batch, row by row. -/
def RecordBatch.rows (batch : RecordBatch) : List (List (Option Cell)) :=
  (List.range batch.numRows).map batch.row

/-- Why Arrow refuses to assemble a batch. -/
inductive ArrowError where
  | noColumns
  | columnTypes
  | columnLengths
  | nullValues
  deriving DecidableEq, Repr

/-- A violation of the fixed ingest batch contract. -/
inductive BatchViolation where
  | columnCount (expected found : Nat)
  | fieldName (index : Nat) (expected found : String)
  | dataType (index : Nat) (expected found : DataType)
  | nullability (index : Nat) (expected found : Bool)
  | nullValues (index count : Nat)
  | arrayRepresentation (index : Nat)
  deriving DecidableEq, Repr

/-- A configured callback's position in the pipeline. -/
inductive CallbackStage where
  | transform
  | sink
  deriving DecidableEq, Repr

/-- The errors of the readers and writers. A third-party source is kept as
its text. -/
inductive PipelineIoError where
  | callback (stage : CallbackStage) (batchIndex : Nat) (source : PipelineIoError)
  | invalidBatch (violation : BatchViolation)
  | openInput (path : String) (source : String)
  | readRecord (source : String)
  | invalidId (row : Nat) (value : String)
  | buildBatch (source : ArrowError)
  | openOutput (path : String) (source : String)
  | writeParquet (source : String)
  | downloadObject (key : ObjectPath) (source : StoreError)
  | invalidSnapshot (key : ObjectPath) (violation : SnapshotViolation)
  | snapshotPrecondition (key : ObjectPath) (source : StoreError)
  | uploadObject (key : ObjectPath) (source : StoreError)
  | multipartAbort (source : PipelineIoError) (abortSource : StoreError)
  | headObject (key : ObjectPath) (source : StoreError)
  | deleteObject (key : ObjectPath) (source : StoreError)
  | readManifest (source : String)
  | unsupportedManifestVersion (version : Nat)
  | invalidManifest (violation : ManifestViolation)
  | unsupportedDigestScheme (scheme : String)
  | completionIdentityRequired (version : Nat)
  | writeManifest (source : String)
  deriving DecidableEq, Repr

end Datacrate.Ingest
