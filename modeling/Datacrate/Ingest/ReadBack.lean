import Datacrate.Ingest.Rows
import Datacrate.Lib.Chunks
import Datacrate.Lib.Fallible

namespace Datacrate.Ingest

open Chunks

/-- The rows of a file in batches of at most this many. No outcome is a panic,
as it is without any rows to a batch. -/
def fixtureToRecordBatches (arrow : ArrowLibrary) (file : CsvFile) (batchSize : Nat) :
    Option (Except PipelineIoError (List RecordBatch)) :=
  if batchSize = 0 then none
  else match parseRows file with
    | .ok rows => ((chunksOf batchSize rows).mapM fun group => ExceptT.mk (batchFromRows arrow group)).run
    | .error source => some (.error source)

/-- A Parquet file: it opens or not, its footer reads or not, and so does each
of its batches. -/
structure ParquetFile where
  path : String
  opened : Except String (Except String (List (Except String RecordBatch)))

/-- Why a Parquet file is not read. A drifted schema and a failed
concatenation are both errors of building the batch. -/
inductive ReadFailure where
  | openInput (path source : String)
  | readParquet (source : String)
  | schemaDrift (expected found : List Field)
  | buildBatch (source : ArrowError)
  deriving DecidableEq, Repr

/-- No outcome is a panic of the concatenation. -/
def readParquet (arrow : ArrowLibrary) (file : ParquetFile) : Option (Except ReadFailure RecordBatch) :=
  match file.opened with
  | .error source => some (.error (.openInput file.path source))
  | .ok (.error source) => some (.error (.readParquet source))
  | .ok (.ok batches) =>
    match batches.mapM id with
    | .error source => some (.error (.readParquet source))
    | .ok batches =>
      match batches.find? fun batch => batch.schema != schema with
      | some drifted => some (.error (.schemaDrift schema drifted.schema))
      | none => (arrow.concatBatches schema batches).map fun built => built.mapError .buildBatch

/-- The array is one that Arrow makes for its type. -/
def Column.Native : Column → Prop
  | .foreign (.other _) _ | .int64 _ | .utf8 _ => True
  | .foreign _ _ => False

/-- What a Parquet reader may give back for batches that were written: the
same rows under the ingest schema, in batches of its own. -/
structure Regroups (written decoded : List RecordBatch) : Prop where
  schema : ∀ batch ∈ decoded, batch.schema = Ingest.schema
  native : ∀ batch ∈ decoded, ∀ column ∈ batch.columns, column.Native
  rows : decoded.flatMap RecordBatch.rows = written.flatMap RecordBatch.rows

theorem fixtureToRecordBatches_eq {arrow : ArrowLibrary} {file : CsvFile} {rows : List Row} {batchSize : Nat}
    (parsed : parseRows file = .ok rows) (positive : 0 < batchSize)
    (text : ∀ group ∈ chunksOf batchSize rows, TextFits group) :
    fixtureToRecordBatches arrow file batchSize = some (.ok ((chunksOf batchSize rows).map rowBatch)) := by
  have each : ∀ groups : List (List Row), (∀ group ∈ groups, TextFits group) →
      (groups.mapM fun group => ExceptT.mk (batchFromRows arrow group)) =
        (pure (groups.map rowBatch) : ExceptT PipelineIoError Option (List RecordBatch)) := by
    intro groups fits
    induction groups with
    | nil => rfl
    | cons group groups ih =>
      rw [List.forall_mem_cons] at fits
      have first : ExceptT.mk (batchFromRows arrow group) = pure (rowBatch group) := by
        rw [batchFromRows_eq, if_pos fits.1]
        rfl
      rw [List.mapM_cons, first, pure_bind, ih fits.2, pure_bind, List.map_cons]
  rw [fixtureToRecordBatches, if_neg (by omega), parsed]
  dsimp only
  rw [each _ text]
  rfl

theorem Column.int64_of_native {column : Column} (native : column.Native) (type : column.dataType = .int64) :
    ∃ values, column = .int64 values := by
  cases column with
  | int64 values => exact ⟨values, rfl⟩
  | utf8 => cases type
  | foreign dataType validity =>
    cases type
    exact native.elim

theorem Column.utf8_of_native {column : Column} (native : column.Native) (type : column.dataType = .utf8) :
    ∃ values, column = .utf8 values := by
  cases column with
  | utf8 values => exact ⟨values, rfl⟩
  | int64 => cases type
  | foreign dataType validity =>
    cases type
    exact native.elim

/-- An ingest batch is known by its rows. -/
theorem eq_rowBatch {batch : RecordBatch} {rows : List Row} (typed : batch.schema = schema)
    (native : ∀ column ∈ batch.columns, column.Native) (same : batch.rows = rows.map Row.cells) : batch = rowBatch rows := by
  obtain ⟨fields, columns, numRows, types, aligned⟩ := batch
  dsimp only at typed native types aligned
  subst typed
  have width : columns.length = 3 := by simpa [schema, ingestFields] using congrArg List.length types
  obtain ⟨first, second, third, rfl⟩ := List.length_eq_three.mp width
  simp only [schema, ingestFields, List.map_cons, List.map_nil, List.cons.injEq, and_true] at types
  simp only [List.forall_mem_cons, List.not_mem_nil, false_imp_iff, implies_true, and_true] at native aligned
  obtain ⟨ids, rfl⟩ := Column.int64_of_native native.1 types.1
  obtain ⟨names, rfl⟩ := Column.utf8_of_native native.2.1 types.2.1
  obtain ⟨notes, rfl⟩ := Column.utf8_of_native native.2.2 types.2.2
  have count : numRows = rows.length := by simpa [RecordBatch.rows] using congrArg List.length same
  obtain ⟨idCount, nameCount, noteCount⟩ := aligned
  simp only [Column.length] at idCount nameCount noteCount
  -- position by position the three arrays are those of the rows
  have at' : ∀ i < rows.length, ids[i]? = (rows.map fun row => some row.id)[i]? ∧
      names[i]? = (rows.map fun row => some row.name)[i]? ∧ notes[i]? = (rows.map (·.note))[i]? := by
    intro i below
    have here := congrArg (·[i]?) same
    simp only [RecordBatch.rows, RecordBatch.row, Column.cells, Row.cells, count, List.map_cons, List.map_nil,
      List.getElem?_map, List.getElem?_range below, Option.map_some, List.getElem?_eq_getElem below,
      List.getElem?_eq_getElem (show i < ids.length by omega), List.getElem?_eq_getElem (show i < names.length by omega),
      List.getElem?_eq_getElem (show i < notes.length by omega), Option.some.injEq, List.cons.injEq, Cell.int64.injEq,
      Cell.utf8.injEq, and_true] at here ⊢
    exact here
  have equal : ∀ {β : Type} {xs ys : List β}, xs.length = rows.length → ys.length = rows.length →
      (∀ i < rows.length, xs[i]? = ys[i]?) → xs = ys := by
    intro β xs ys left right each
    refine List.ext_getElem? fun i => ?_
    by_cases below : i < rows.length
    · exact each i below
    · rw [List.getElem?_eq_none (by omega), List.getElem?_eq_none (by omega)]
  have idsEq := equal (by omega) (by simp) fun i below => (at' i below).1
  have namesEq := equal (by omega) (by simp) fun i below => (at' i below).2.1
  have notesEq := equal (by omega) (by simp) fun i below => (at' i below).2.2
  subst count idsEq namesEq notesEq
  rfl

/-- Batches that hold some rows between them are batches of groups of these. -/
theorem eq_rowBatches {decoded : List RecordBatch} {rows : List Row} (typed : ∀ batch ∈ decoded, batch.schema = schema)
    (native : ∀ batch ∈ decoded, ∀ column ∈ batch.columns, column.Native)
    (same : decoded.flatMap RecordBatch.rows = rows.map Row.cells) :
    ∃ groups : List (List Row), decoded = groups.map rowBatch ∧ groups.flatten = rows := by
  induction decoded generalizing rows with
  | nil =>
    rw [List.flatMap_nil, eq_comm, List.map_eq_nil_iff] at same
    exact ⟨[], rfl, same.symm⟩
  | cons batch rest ih =>
    rw [List.forall_mem_cons] at typed native
    rw [List.flatMap_cons, eq_comm, List.map_eq_append_iff] at same
    obtain ⟨here, later, rfl, first, others⟩ := same
    obtain ⟨groups, rfl, rfl⟩ := ih typed.2 native.2 others.symm
    exact ⟨here :: groups, by rw [List.map_cons, ← eq_rowBatch typed.1 native.1 first.symm], rfl⟩

theorem concatColumns_int64 (parts : List (List (Option Int))) :
    concatColumns .int64 (parts.map .int64) = some (.int64 parts.flatten) := by
  have undone : (parts.map .int64).mapM Column.int64s = some parts := Fallible.mapM_map_eq_some fun _ _ => rfl
  simp only [concatColumns, undone, Option.map_some]

theorem concatColumns_utf8 (parts : List (List (Option String))) :
    concatColumns .utf8 (parts.map .utf8) = some (.utf8 parts.flatten) := by
  have undone : (parts.map .utf8).mapM Column.utf8s = some parts := Fallible.mapM_map_eq_some fun _ _ => rfl
  simp only [concatColumns, undone, Option.map_some]

/-- The batch of some rows is made of those of groups of them, if their text
fits. -/
theorem joins_rowBatches {groups : List (List Row)} (text : TextFits groups.flatten) :
    (rowBatch groups.flatten).Joins (groups.map rowBatch) where
  assembled := rowBatch_assembled groups.flatten
  schema := by simp [rowBatch]
  columns := by
    have ids : (groups.map rowBatch).filterMap (·.columns[0]?) =
        (groups.map (List.map fun row => some row.id)).map .int64 := by
      simp [rowBatch, rowColumns, List.filterMap_map, Function.comp_def]
    have names : (groups.map rowBatch).filterMap (·.columns[1]?) =
        (groups.map (List.map fun row => some row.name)).map .utf8 := by
      simp [rowBatch, rowColumns, List.filterMap_map, Function.comp_def]
    have notes : (groups.map rowBatch).filterMap (·.columns[2]?) =
        (groups.map (List.map Row.note)).map .utf8 := by
      simp [rowBatch, rowColumns, List.filterMap_map, Function.comp_def]
    show (schema.zipIdx.mapM fun slot => concatColumns slot.1.dataType
      ((groups.map rowBatch).filterMap (·.columns[slot.2]?))) = some (rowColumns groups.flatten)
    simp only [schema, ingestFields, List.zipIdx, List.mapM_cons, List.mapM_nil, ids, names, notes, concatColumns_int64,
      concatColumns_utf8, rowColumns, List.map_flatten]
    rfl
  addressable := addressable_rowColumns.mpr text

/-- Whatever batches the reader makes of a file of rows whose text fits, the
batch of all of them comes back. -/
theorem Regroups.read {written decoded : List RecordBatch} {rows : List Row} (regroups : Regroups written decoded)
    (cells : decoded.flatMap RecordBatch.rows = rows.map Row.cells) (text : TextFits rows) (arrow : ArrowLibrary)
    (path : String) : readParquet arrow { path, opened := .ok (.ok (decoded.map .ok)) } = some (.ok (rowBatch rows)) := by
  obtain ⟨groups, rfl, rfl⟩ := eq_rowBatches regroups.schema regroups.native cells
  have collected : ((groups.map rowBatch).map Except.ok).mapM id = (.ok (groups.map rowBatch) : Except String _) :=
    Fallible.mapM_ok_iff.mpr (List.forall₂_map_left_iff.mpr (List.forall₂_same.mpr fun _ _ => rfl))
  have matching : (groups.map rowBatch).find? (fun batch => batch.schema != Ingest.schema) = none := by
    simp [rowBatch]
  have joined : arrow.concatBatches Ingest.schema (groups.map rowBatch) = some (.ok (rowBatch groups.flatten)) :=
    arrow.concatenates _ _ (joins_rowBatches text)
  simp only [readParquet, collected, matching, joined]
  rfl

end Datacrate.Ingest
