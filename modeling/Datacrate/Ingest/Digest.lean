import Datacrate.Ingest.Rows
import Datacrate.Lib.Fallible
import Mathlib.Algebra.BigOperators.Group.Multiset.Basic
import Mathlib.Data.UInt

namespace Datacrate.Ingest

/-- The row that the digest reads at an index. -/
def CheckedIngestBatch.rowAt (checked : CheckedIngestBatch) (index : Nat) : Row where
  id := value checked.ids index
  name := value checked.names index
  note := checked.notes[index]?.join

def CheckedIngestBatch.rows (checked : CheckedIngestBatch) : List Row :=
  (List.range checked.batch.numRows).map checked.rowAt

theorem checkField_complete {index : Nat} {expected field : Field} {column : Column}
    (checked : checkField index expected field column = .ok ()) (required : expected.nullable = false) :
    column.nullCount = 0 := by
  unfold checkField at checked
  split at checked
  · cases checked
  · split at checked
    · cases checked
    · split at checked
      · cases checked
      · split at checked
        · cases checked
        · rename_i complete
          rw [required] at complete
          simpa using complete

theorem int64Column_ok {columns : List Column} {index : Nat} {values : List (Option Int)}
    (read : int64Column columns index = .ok values) : columns[index]? = some (.int64 values) := by
  unfold int64Column at read
  split at read
  · rename_i found
    cases read
    exact found
  · cases read

theorem utf8Column_ok {columns : List Column} {index : Nat} {values : List (Option String)}
    (read : utf8Column columns index = .ok values) : columns[index]? = some (.utf8 values) := by
  unfold utf8Column at read
  split at read
  · rename_i found
    cases read
    exact found
  · cases read

theorem isSome_of_countP {α : Type} {values : List (Option α)} (complete : values.countP Option.isNone = 0) :
    ∀ value ∈ values, value.isSome = true := by
  intro value member
  have present := List.countP_eq_zero.mp complete value member
  rw [Option.isNone_iff_eq_none] at present
  exact Option.isSome_iff_ne_none.mpr present

/-- The contract check hands out the columns of the batch, without nulls in
the first two. -/
theorem validatedColumns_ok {batch : RecordBatch} {ids : List (Option Int)} {names notes : List (Option String)}
    (valid : validatedColumns batch = .ok (ids, names, notes)) :
    batch.columns = [.int64 ids, .utf8 names, .utf8 notes] ∧ (∀ id ∈ ids, id.isSome = true) ∧
      ∀ name ∈ names, name.isSome = true := by
  unfold validatedColumns at valid
  split at valid
  · cases valid
  · rename_i count
    rw [not_not] at count
    obtain ⟨_, checked, valid⟩ := Fallible.bind_ok_iff.mp valid
    obtain ⟨ids', idColumn, valid⟩ := Fallible.bind_ok_iff.mp valid
    obtain ⟨names', nameColumn, valid⟩ := Fallible.bind_ok_iff.mp valid
    obtain ⟨notes', noteColumn, valid⟩ := Fallible.bind_ok_iff.mp valid
    cases valid
    have fields := congrArg List.length batch.typed
    rw [List.length_map, List.length_map] at fields
    obtain ⟨first, second, third, columns⟩ := List.length_eq_three.mp count
    obtain ⟨idField, nameField, noteField, schema⟩ := List.length_eq_three.mp (fields.symm.trans count)
    rw [schema, columns] at checked
    rw [columns] at idColumn nameColumn noteColumn ⊢
    obtain ⟨_, idChecked, checked⟩ := Fallible.bind_ok_iff.mp checked
    obtain ⟨_, nameChecked, _⟩ := Fallible.bind_ok_iff.mp checked
    have idValues := checkField_complete idChecked rfl
    have nameValues := checkField_complete nameChecked rfl
    cases int64Column_ok idColumn
    cases utf8Column_ok nameColumn
    cases utf8Column_ok noteColumn
    exact ⟨rfl, isSome_of_countP idValues, isSome_of_countP nameValues⟩

theorem some_value {α : Type} [Inhabited α] {values : List (Option α)} (complete : ∀ value ∈ values, value.isSome = true)
    {index : Nat} (within : index < values.length) : values[index]? = some (some (value values index)) := by
  have present := complete values[index] (List.getElem_mem within)
  obtain ⟨here, found⟩ := Option.isSome_iff_exists.mp present
  rw [List.getElem?_eq_getElem within, value, List.getElem?_eq_getElem within, found]
  rfl

/-- The rows that the digest reads are those of the batch. -/
theorem CheckedIngestBatch.rows_cells {batch : RecordBatch} {checked : CheckedIngestBatch}
    (valid : CheckedIngestBatch.tryNew batch = .ok checked) : batch.rows = checked.rows.map Row.cells := by
  have same := tryNew_batch valid
  unfold CheckedIngestBatch.tryNew at valid
  split at valid
  · rename_i ids names notes columns
    cases valid
    obtain ⟨whole, idValues, nameValues⟩ := validatedColumns_ok columns
    have aligned := batch.aligned
    rw [whole] at aligned
    simp only [List.forall_mem_cons] at aligned
    obtain ⟨idLength, nameLength, noteLength, _⟩ := aligned
    rw [RecordBatch.rows, rows, List.map_map]
    apply List.map_congr_left
    intro index member
    have within := List.mem_range.mp member
    have idHere := some_value idValues (within.trans_eq idLength.symm)
    have nameHere := some_value nameValues (within.trans_eq nameLength.symm)
    have noteHere : notes[index]? = some notes[index]?.join := by
      rw [List.getElem?_eq_getElem (within.trans_eq noteLength.symm)]
      rfl
    rw [RecordBatch.row, whole]
    simp only [List.map_cons, List.map_nil, Column.cells, List.getElem?_map, Function.comp_apply, Row.cells, rowAt]
    rw [idHere, nameHere, noteHere]
    rfl
  · cases valid

def Row.hash (hashRow : Int → String → Option String → UInt64) (row : Row) : UInt64 :=
  hashRow row.id row.name row.note

/-- The sum of the row hashes, modulo 2^64. -/
def digest (hashRow : Int → String → Option String → UInt64) (rows : Multiset Row) : UInt64 :=
  (rows.map (Row.hash hashRow)).sum

section

variable (hashRow : Int → String → Option String → UInt64)

theorem digest_add (left right : Multiset Row) :
    digest hashRow (left + right) = digest hashRow left + digest hashRow right := by
  rw [digest, Multiset.map_add, Multiset.sum_add, digest, digest]

theorem foldl_hash (running : UInt64) (rows : List Row) :
    rows.foldl (fun acc row => acc + row.hash hashRow) running = running + digest hashRow rows := by
  induction rows generalizing running with
  | nil => exact (add_zero running).symm
  | cons row rest ih =>
    rw [List.foldl_cons, ih, add_assoc, ← Multiset.cons_coe, digest, digest, Multiset.map_cons, Multiset.sum_cons]

theorem accumulateBatchDigest_eq (running : UInt64) (checked : CheckedIngestBatch) :
    accumulateBatchDigest hashRow running checked = running + digest hashRow checked.rows := by
  rw [← foldl_hash, CheckedIngestBatch.rows, List.foldl_map]
  rfl

theorem foldl_accumulateBatchDigest (running : UInt64) (batches : List CheckedIngestBatch) :
    batches.foldl (accumulateBatchDigest hashRow) running =
      running + digest hashRow (batches.flatMap CheckedIngestBatch.rows : List Row) := by
  induction batches generalizing running with
  | nil => exact (add_zero running).symm
  | cons checked rest ih =>
    rw [List.foldl_cons, ih, accumulateBatchDigest_eq, add_assoc, List.flatMap_cons, ← Multiset.coe_add, digest_add]

end

/-- The batches pass the contract check and hold these rows, in any order. -/
def Carries (batches : List CheckedIngestBatch) (rows : Multiset Row) : Prop :=
  (∀ checked ∈ batches, CheckedIngestBatch.tryNew checked.batch = .ok checked) ∧
    ((batches.flatMap fun checked => checked.batch.rows : List (List (Option Cell))) : Multiset (List (Option Cell))) =
      rows.map Row.cells

theorem Row.cells_injective : Function.Injective Row.cells := by
  intro first second same
  cases first
  cases second
  cases same
  rfl

theorem Carries.rows_eq {batches : List CheckedIngestBatch} {rows : Multiset Row} (carries : Carries batches rows) :
    ((batches.flatMap CheckedIngestBatch.rows : List Row) : Multiset Row) = rows := by
  have cells : (batches.flatMap fun checked => checked.batch.rows) =
      (batches.flatMap CheckedIngestBatch.rows).map Row.cells := by
    rw [List.map_flatMap]
    exact List.flatMap_congr fun checked member => CheckedIngestBatch.rows_cells (carries.1 checked member)
  have same := carries.2
  rw [cells, ← Multiset.map_coe] at same
  exact Multiset.map_injective Row.cells_injective same

theorem Carries.digest_eq {batches : List CheckedIngestBatch} {rows : Multiset Row} (carries : Carries batches rows)
    (hashRow : Int → String → Option String → UInt64) :
    batches.foldl (accumulateBatchDigest hashRow) 0 = digest hashRow rows := by
  rw [foldl_accumulateBatchDigest, carries.rows_eq, zero_add]

/-- Rows cut into groups in any way, some of them empty, are carried. -/
theorem carries_groups (groups : List (List Row)) : Carries (groups.map checkedRows) (groups.flatten : List Row) := by
  refine ⟨fun checked member => ?_, ?_⟩
  · obtain ⟨group, _, rfl⟩ := List.mem_map.mp member
    exact tryNew_rowBatch group
  · rw [Multiset.map_coe, List.map_flatten, List.flatMap_map, ← List.flatMap_def]
    exact congrArg _ (List.flatMap_congr fun group _ => rowBatch_rows group)

/-- The digest of a run depends on its rows alone, whatever their order and
their batches, and that of a union is the sum of the digests. -/
theorem digest_independent (hashRow : Int → String → Option String → UInt64) :
    (∀ (rows : Multiset Row) (batches others : List CheckedIngestBatch), Carries batches rows → Carries others rows →
      batches.foldl (accumulateBatchDigest hashRow) 0 = others.foldl (accumulateBatchDigest hashRow) 0) ∧
    (∀ (left right : Multiset Row) (batches others whole : List CheckedIngestBatch), Carries batches left →
      Carries others right → Carries whole (left + right) →
      whole.foldl (accumulateBatchDigest hashRow) 0 =
        batches.foldl (accumulateBatchDigest hashRow) 0 + others.foldl (accumulateBatchDigest hashRow) 0) ∧
    ∀ groups : List (List Row), Carries (groups.map checkedRows) (groups.flatten : List Row) := by
  refine ⟨fun rows batches others first second => ?_, fun left right batches others whole first second both => ?_,
    carries_groups⟩
  · rw [first.digest_eq, second.digest_eq]
  · rw [both.digest_eq, first.digest_eq, second.digest_eq, digest_add]

end Datacrate.Ingest
