import Datacrate.Ingest.Batch
import Datacrate.Lib.Fallible

namespace Datacrate.Ingest

/-- The bytes that the texts of a string array take. -/
def textBytes (texts : List (Option String)) : Nat :=
  (texts.map fun text => (text.getD "").utf8ByteSize).sum

/-- The offsets of a string array are `i32`. -/
def maxOffset : Nat :=
  2 ^ 31 - 1

@[simp] theorem textBytes_append (texts more : List (Option String)) :
    textBytes (texts ++ more) = textBytes texts + textBytes more := by
  simp [textBytes]

def Column.textBytes : Column → Nat
  | .utf8 values => Ingest.textBytes values
  | _ => 0

/-- The offsets reach the text of every column. -/
def Addressable (columns : List Column) : Prop :=
  ∀ column ∈ columns, column.textBytes ≤ maxOffset

instance (columns : List Column) : Decidable (Addressable columns) :=
  inferInstanceAs (Decidable (∀ column ∈ columns, _))

/-- Columns that a batch of this schema may have: at least one, and nulls only
where the schema allows them. -/
def RecordBatch.Assembled (batch : RecordBatch) : Prop :=
  batch.columns ≠ [] ∧ ∀ slot ∈ batch.schema.zip batch.columns, slot.1.nullable = true ∨ slot.2.nullCount = 0

def Column.int64s : Column → Option (List (Option Int))
  | .int64 values => some values
  | _ => none

def Column.utf8s : Column → Option (List (Option String))
  | .utf8 values => some values
  | _ => none

def Column.validities : Column → Option (List Bool)
  | .foreign _ validity => some validity
  | _ => none

/-- Arrays of one type after each other. -/
def concatColumns (dataType : DataType) (columns : List Column) : Option Column :=
  match dataType with
  | .int64 => (columns.mapM Column.int64s).map fun parts => .int64 parts.flatten
  | .utf8 => (columns.mapM Column.utf8s).map fun parts => .utf8 parts.flatten
  | .other name => (columns.mapM Column.validities).map fun parts => .foreign (.other name) parts.flatten

/-- A batch is made of batches of its schema, column after column, and its
offsets do not overflow. -/
structure RecordBatch.Joins (batches : List RecordBatch) (whole : RecordBatch) : Prop where
  assembled : whole.Assembled
  schema : ∀ batch ∈ batches, batch.schema = whole.schema
  columns : (whole.schema.zipIdx.mapM fun slot =>
    concatColumns slot.1.dataType (batches.filterMap (·.columns[slot.2]?))) = some whole.columns
  addressable : Addressable whole.columns

/-- What the readers take from Arrow: the string array that texts are collected
into, the checked constructor of a batch, and the concatenation of batches.
No outcome is a panic. -/
structure ArrowLibrary where
  stringArray : List (Option String) → Option (List (Option String))
  tryNew : List Field → List Column → Except ArrowError RecordBatch
  concatBatches : List Field → List RecordBatch → Option (Except ArrowError RecordBatch)
  collects : ∀ texts, stringArray texts = if textBytes texts ≤ maxOffset then some texts else none
  builds : ∀ batch : RecordBatch, batch.Assembled → tryNew batch.schema batch.columns = .ok batch
  concatenates : ∀ batches (whole : RecordBatch), whole.Joins batches →
    concatBatches whole.schema batches = some (.ok whole)

/-- A constructor that makes every check of its documentation. -/
def RecordBatch.tryNew (schema : List Field) (columns : List Column) : Except ArrowError RecordBatch :=
  match columns.head? with
  | none => .error .noColumns
  | some first =>
    if typed : columns.map Column.dataType = schema.map Field.dataType then
      if aligned : ∀ column ∈ columns, column.length = first.length then
        if (schema.zip columns).all fun slot => slot.1.nullable || slot.2.nullCount == 0 then
          .ok { schema, columns, numRows := first.length, typed, aligned }
        else .error .nullValues
      else .error .columnLengths
    else .error .columnTypes

theorem RecordBatch.tryNew_assembled {batch : RecordBatch} (assembled : batch.Assembled) :
    RecordBatch.tryNew batch.schema batch.columns = .ok batch := by
  obtain ⟨schema, columns, numRows, typed, aligned⟩ := batch
  obtain ⟨some', complete⟩ := assembled
  dsimp only at some' complete ⊢
  obtain ⟨first, rest, rfl⟩ := List.exists_cons_of_ne_nil some'
  have count : first.length = numRows := aligned first List.mem_cons_self
  subst count
  have nullable : ((schema.zip (first :: rest)).all fun slot => slot.1.nullable || slot.2.nullCount == 0) = true := by
    simpa [List.all_eq_true] using complete
  unfold RecordBatch.tryNew
  show (if typed : _ then _ else _) = _
  rw [dif_pos typed]
  show (if aligned : ∀ column ∈ first :: rest, column.length = first.length then _ else _) = _
  rw [dif_pos aligned, if_pos nullable]

/-- Arrow as it documents itself. -/
def ArrowLibrary.documented : ArrowLibrary where
  stringArray texts := if textBytes texts ≤ maxOffset then some texts else none
  tryNew := RecordBatch.tryNew
  concatBatches schema batches :=
    match schema.zipIdx.mapM fun slot => concatColumns slot.1.dataType (batches.filterMap (·.columns[slot.2]?)) with
    | some columns =>
      if Addressable columns then some (RecordBatch.tryNew schema columns) else none
    | none => some (.error .columnTypes)
  collects _ := rfl
  builds _ := RecordBatch.tryNew_assembled
  concatenates batches whole joins := by
    rw [joins.columns]
    dsimp only
    rw [if_pos joins.addressable, RecordBatch.tryNew_assembled joins.assembled]

end Datacrate.Ingest
