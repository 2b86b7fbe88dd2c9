import Datacrate.Ingest.ArrowLibrary
import Datacrate.Ingest.Checked

namespace Datacrate.Ingest

/-- A parsed row. An empty note is no note. -/
structure Row where
  id : Int
  name : String
  note : Option String
  deriving DecidableEq, Repr

/-- The columns of one CSV record. -/
abbrev StringRecord := List String

/-- A CSV file: it opens or not, and each record below its header reads or
not. -/
structure CsvFile where
  path : String
  opened : Except String (List (Except String StringRecord))

def parseDigits (digits : List Char) : Option Nat :=
  if digits ≠ [] ∧ digits.all Char.isDigit then
    some (digits.foldl (fun sum digit => 10 * sum + (digit.toNat - '0'.toNat)) 0)
  else none

/-- The text of an `i64`: an optional sign and ASCII digits, in range. -/
def parseI64 (text : String) : Option Int :=
  match text.toList with
  | '-' :: digits => do
    let magnitude ← parseDigits digits
    if magnitude ≤ 2 ^ 63 then return -(magnitude : Int) else none
  | '+' :: digits => do
    let magnitude ← parseDigits digits
    if magnitude < 2 ^ 63 then return magnitude else none
  | digits => do
    let magnitude ← parseDigits digits
    if magnitude < 2 ^ 63 then return magnitude else none

def parseId (row : Nat) (record : StringRecord) : Except PipelineIoError Int :=
  let idField := record[0]?.getD ""
  match parseI64 idField with
  | some id => .ok id
  | none => .error (.invalidId row idField)

def parseRow (row : Nat) (record : StringRecord) : Except PipelineIoError Row := do
  let id ← parseId row record
  let name := record[1]?.getD ""
  let note := match record[2]?.getD "" with
    | "" => none
    | note => some note
  return { id, name, note }

/-- One record as the producer and the whole-file reader see it. -/
def readRow (row : Nat) (record : Except String StringRecord) : Except PipelineIoError Row :=
  match record with
  | .ok record => parseRow row record
  | .error source => .error (.readRecord source)

def readRows : Nat → List (Except String StringRecord) → Except PipelineIoError (List Row)
  | _, [] => .ok []
  | index, record :: records => do
    let row ← readRow index record
    let rows ← readRows (index + 1) records
    return row :: rows

def parseRows (file : CsvFile) : Except PipelineIoError (List Row) :=
  match file.opened with
  | .error source => .error (.openInput file.path source)
  | .ok records => readRows 0 records

def schema : List Field :=
  ingestFields

/-- The batch of some rows. No outcome is a panic: the names or the notes are
more than a string array holds. -/
def batchFromRows (arrow : ArrowLibrary) (rows : List Row) : Option (Except PipelineIoError RecordBatch) := do
  let ids := rows.map fun row => some row.id
  let names ← arrow.stringArray (rows.map fun row => some row.name)
  let notes ← arrow.stringArray (rows.map (·.note))
  return (arrow.tryNew schema [.int64 ids, .utf8 names, .utf8 notes]).mapError .buildBatch

def fixtureToRecordBatch (arrow : ArrowLibrary) (file : CsvFile) : Option (Except PipelineIoError RecordBatch) :=
  match parseRows file with
  | .ok rows => batchFromRows arrow rows
  | .error source => some (.error source)

def rowColumns (rows : List Row) : List Column :=
  [.int64 (rows.map fun row => some row.id), .utf8 (rows.map fun row => some row.name),
    .utf8 (rows.map (·.note))]

/-- The batch of some rows. -/
def rowBatch (rows : List Row) : RecordBatch where
  schema := schema
  columns := rowColumns rows
  numRows := rows.length
  typed := rfl
  aligned := by simp [rowColumns, Column.length]

theorem rowBatch_assembled (rows : List Row) : (rowBatch rows).Assembled := by
  refine ⟨by simp [rowBatch, rowColumns], ?_⟩
  simp [rowBatch, schema, ingestFields, rowColumns, Column.nullCount]

/-- The names of some rows fit a string array, and so do their notes. -/
def TextFits (rows : List Row) : Prop :=
  textBytes (rows.map fun row => some row.name) ≤ maxOffset ∧ textBytes (rows.map (·.note)) ≤ maxOffset

instance (rows : List Row) : Decidable (TextFits rows) :=
  inferInstanceAs (Decidable (_ ∧ _))

theorem addressable_rowColumns {rows : List Row} : Addressable (rowColumns rows) ↔ TextFits rows := by
  simp [Addressable, rowColumns, Column.textBytes, TextFits]

theorem TextFits.part {rows part : List Row} (fits : TextFits rows) (inside : part <:+: rows) : TextFits part := by
  obtain ⟨before, after, rfl⟩ := inside
  simp only [TextFits, List.map_append, textBytes_append] at fits ⊢
  omega

/-- Rows make their batch just where their text fits. -/
theorem batchFromRows_eq (arrow : ArrowLibrary) (rows : List Row) :
    batchFromRows arrow rows = if TextFits rows then some (.ok (rowBatch rows)) else none := by
  have built := arrow.builds (rowBatch rows) (rowBatch_assembled rows)
  simp only [rowBatch, rowColumns] at built
  simp only [batchFromRows, arrow.collects, TextFits, bind, Option.bind]
  by_cases names : textBytes (rows.map fun row => some row.name) ≤ maxOffset
  · by_cases notes : textBytes (rows.map (·.note)) ≤ maxOffset
    · simp only [names, notes, and_self, if_true, built]
      rfl
    · simp only [names, notes, and_false, if_true, if_false]
  · simp only [names, false_and, if_false]

theorem batchFromRows_eq_some {arrow : ArrowLibrary} {rows : List Row} {message : Except PipelineIoError RecordBatch} :
    batchFromRows arrow rows = some message ↔ TextFits rows ∧ message = .ok (rowBatch rows) := by
  rw [batchFromRows_eq]
  split
  · rename_i fits
    rw [Option.some.injEq, eq_comm]
    exact (and_iff_right fits).symm
  · rename_i large
    simp [large]

/-- The cells of a row. -/
def Row.cells (row : Row) : List (Option Cell) :=
  [some (.int64 (some row.id)), some (.utf8 (some row.name)), some (.utf8 row.note)]

theorem rowBatch_rows (rows : List Row) : (rowBatch rows).rows = rows.map Row.cells := by
  refine List.ext_getElem (by simp [RecordBatch.rows, rowBatch]) fun i below _ => ?_
  have within : i < rows.length := by simpa [RecordBatch.rows, rowBatch] using below
  simp [RecordBatch.rows, RecordBatch.row, rowBatch, rowColumns, Column.cells, Row.cells, within]

/-- The typed columns of a row batch, as the contract check returns them. -/
def checkedRows (rows : List Row) : CheckedIngestBatch where
  batch := rowBatch rows
  ids := rows.map fun row => some row.id
  names := rows.map fun row => some row.name
  notes := rows.map (·.note)

theorem tryNew_rowBatch (rows : List Row) : CheckedIngestBatch.tryNew (rowBatch rows) = .ok (checkedRows rows) := by
  have checked : checkFields 0 ingestFields ((rowBatch rows).schema.zip (rowBatch rows).columns) = .ok () := by
    simp [checkFields, checkField, rowBatch, rowColumns, schema, ingestFields, Column.nullCount, bind, Except.bind]
  have validated : validatedColumns (rowBatch rows) =
      .ok ((checkedRows rows).ids, (checkedRows rows).names, (checkedRows rows).notes) := by
    unfold validatedColumns
    rw [checked]
    rfl
  unfold CheckedIngestBatch.tryNew
  rw [validated]
  rfl

/-- The digest of rows, from the empty digest. -/
def rowsDigest (hashRow : Int → String → Option String → UInt64) (running : UInt64) (rows : List Row) : UInt64 :=
  rows.foldl (fun acc row => acc + hashRow row.id row.name row.note) running

/-- The hash of a position that may hold a row. -/
def slotHash (hashRow : Int → String → Option String → UInt64) (slot : Option Row) : UInt64 :=
  hashRow ((slot.map Row.id).getD default) ((slot.map Row.name).getD default) (slot.bind Row.note)

theorem accumulateBatchDigest_checkedRows (hashRow : Int → String → Option String → UInt64) (running : UInt64)
    (rows : List Row) :
    accumulateBatchDigest hashRow running (checkedRows rows) = rowsDigest hashRow running rows := by
  have slots : (List.range rows.length).map (rows[·]?) = rows.map some := by
    refine List.ext_getElem (by simp) fun i below _ => ?_
    have within : i < rows.length := by simpa using below
    simp [within]
  have hashes : ∀ i : Nat, hashRow (value (checkedRows rows).ids i) (value (checkedRows rows).names i)
      (checkedRows rows).notes[i]?.join = slotHash hashRow rows[i]? := by
    intro i
    cases slot : rows[i]? <;> simp [checkedRows, value, slot, slotHash]
  calc accumulateBatchDigest hashRow running (checkedRows rows)
      = (List.range rows.length).foldl (fun acc i => acc + slotHash hashRow rows[i]?) running := by
        simp only [accumulateBatchDigest, hashes]
        rfl
    _ = ((List.range rows.length).map (rows[·]?)).foldl (fun acc slot => acc + slotHash hashRow slot) running := by
        rw [List.foldl_map]
    _ = (rows.map some).foldl (fun acc slot => acc + slotHash hashRow slot) running := by rw [slots]
    _ = rowsDigest hashRow running rows := List.foldl_map

theorem rowsDigest_append (hashRow : Int → String → Option String → UInt64) (running : UInt64)
    (rows more : List Row) :
    rowsDigest hashRow running (rows ++ more) = rowsDigest hashRow (rowsDigest hashRow running rows) more :=
  List.foldl_append

end Datacrate.Ingest
