import Datacrate.Ingest.Batch

namespace Datacrate.Ingest

def ingestFields : List Field :=
  [⟨"id", .int64, false⟩, ⟨"name", .utf8, false⟩, ⟨"note", .utf8, true⟩]

/-- The contract of one column, in the order the code checks it. -/
def checkField (index : Nat) (expected field : Field) (column : Column) : Except BatchViolation Unit :=
  if field.name ≠ expected.name then .error (.fieldName index expected.name field.name)
  else if field.dataType ≠ expected.dataType then .error (.dataType index expected.dataType field.dataType)
  else if field.nullable ≠ expected.nullable then .error (.nullability index expected.nullable field.nullable)
  else if !expected.nullable && column.nullCount != 0 then .error (.nullValues index column.nullCount)
  else .ok ()

def checkFields : Nat → List Field → List (Field × Column) → Except BatchViolation Unit
  | index, expected :: fields, (field, column) :: columns => do
    checkField index expected field column
    checkFields (index + 1) fields columns
  | _, _, _ => .ok ()

def int64Column (columns : List Column) (index : Nat) : Except BatchViolation (List (Option Int)) :=
  match columns[index]? with
  | some (.int64 values) => .ok values
  | _ => .error (.arrayRepresentation index)

def utf8Column (columns : List Column) (index : Nat) : Except BatchViolation (List (Option String)) :=
  match columns[index]? with
  | some (.utf8 values) => .ok values
  | _ => .error (.arrayRepresentation index)

def validatedColumns (batch : RecordBatch) :
    Except BatchViolation (List (Option Int) × List (Option String) × List (Option String)) := do
  if batch.columns.length ≠ ingestFields.length then
    throw (.columnCount ingestFields.length batch.columns.length)
  checkFields 0 ingestFields (batch.schema.zip batch.columns)
  let ids ← int64Column batch.columns 0
  let names ← utf8Column batch.columns 1
  let notes ← utf8Column batch.columns 2
  return (ids, names, notes)

/-- A checked batch and the typed columns used by the digest. -/
structure CheckedIngestBatch where
  batch : RecordBatch
  ids : List (Option Int)
  names : List (Option String)
  notes : List (Option String)

def CheckedIngestBatch.tryNew (batch : RecordBatch) : Except PipelineIoError CheckedIngestBatch :=
  match validatedColumns batch with
  | .ok (ids, names, notes) => .ok { batch, ids, names, notes }
  | .error violation => .error (.invalidBatch violation)

theorem CheckedIngestBatch.tryNew_batch {batch : RecordBatch} {checked : CheckedIngestBatch}
    (valid : CheckedIngestBatch.tryNew batch = .ok checked) : checked.batch = batch := by
  unfold CheckedIngestBatch.tryNew at valid
  split at valid
  · cases valid
    rfl
  · cases valid

/-- The value at an index; a null or missing slot reads as the default. -/
def value {α : Type} [Inhabited α] (values : List (Option α)) (index : Nat) : α :=
  (values[index]?.join).getD default

/-- Folds the hash of every row into the running digest by wrapping
addition. -/
def accumulateBatchDigest (hashRow : Int → String → Option String → UInt64) (running : UInt64)
    (checked : CheckedIngestBatch) : UInt64 :=
  (List.range checked.batch.numRows).foldl
    (fun acc row =>
      acc + hashRow (value checked.ids row) (value checked.names row) checked.notes[row]?.join)
    running

end Datacrate.Ingest
