import Datacrate.Arrow.Soundness

namespace Datacrate.Arrow

open Contracts (TypeShape FieldShape isOptional)

section

variable {α : Type}

/-- An array of a type is one of any standard type that differs in metadata
only. -/
theorem WellFormed.of_plain_eq {expected actual : DataType} {array : ArrayData α} (typed : WellFormed actual array)
    (standard : expected.Standard) (same : actual.plain = expected.plain) : WellFormed expected array := by
  induction standard generalizing actual array with
  | leaf kind =>
    cases actual <;> simp only [DataType.plain, DataType.leaf.injEq, reduceCtorEq] at same
    rwa [← same]
  | list _ ih =>
    cases actual <;> simp only [DataType.plain, DataType.list.injEq, Field.plain_eq, Field.mk.injEq,
      reduceCtorEq] at same
    cases typed with
    | list fit typed => exact .list fit (ih typed same.2.1)
  | map _ ih =>
    cases actual <;> simp only [DataType.plain, DataType.map.injEq, Field.plain_eq, Field.mk.injEq,
      reduceCtorEq] at same
    cases typed with
    | map fit typed => exact .map fit (ih typed same.1.2.1)
  | @struct fields _ ih =>
    cases actual with
    | struct others =>
      rw [DataType.plain, DataType.plain, DataType.struct.injEq, plainFields_eq_map, plainFields_eq_map] at same
      cases typed with
      | @struct _ validity columns count typed lengths =>
        have width : others.length = fields.length := by simpa using congrArg List.length same
        refine .struct (count.trans width) (fun pair member => ?_) lengths
        obtain ⟨i, found⟩ := List.getElem?_of_mem member
        rw [List.getElem?_zip_eq_some] at found
        have twin := congrArg (·[i]?) same
        simp only [List.getElem?_map, found.1, Option.map_some] at twin
        obtain ⟨other, atOther, plainly⟩ := Option.map_eq_some_iff.mp twin
        rw [Field.plain_eq, Field.plain_eq, Field.mk.injEq] at plainly
        exact ih pair.1 (List.mem_of_getElem? found.1)
          (typed (other, pair.2) (List.mem_of_getElem? (List.getElem?_zip_eq_some.mpr ⟨atOther, found.2⟩)))
          plainly.2.1
    | _ => simp [DataType.plain] at same

/-- The batch as a struct array without nulls. -/
def RecordBatch.toStruct (batch : RecordBatch α) : ArrayData α :=
  .struct (List.replicate batch.numRows true) batch.columns

theorem RecordBatch.wellFormed (batch : RecordBatch α) : WellFormed (.struct batch.schema.fields) batch.toStruct :=
  .struct batch.columnCount batch.typed fun column member => by rw [batch.rows column member, List.length_replicate]

theorem RecordBatch.not_null (batch : RecordBatch α) {row : Nat} (within : row < batch.numRows) :
    batch.toStruct.isNull row = false := by
  simp [RecordBatch.toStruct, ArrayData.isNull, within]

/-- The batch read as a mapped struct whose fields match its schema. -/
theorem RecordBatch.reads {fields : List FieldShape} {batch : RecordBatch α}
    (same : batch.schema.fields.map Field.plain = arrowFields fields) :
    WellFormed (arrowType (.struct fields)) batch.toStruct := by
  refine batch.wellFormed.of_plain_eq (standard_arrowType (.struct fields)) ?_
  rw [DataType.plain, plainFields_eq_map, same, plain_arrowType, arrowType]

theorem RecordBatch.length_toStruct (batch : RecordBatch α) : batch.toStruct.length = batch.numRows :=
  List.length_replicate

theorem RecordBatch.fits {fields : List FieldShape} {batch : RecordBatch α}
    (same : batch.schema.fields.map Field.plain = arrowFields fields) :
    ∀ pair ∈ fields.zip batch.columns, WellFormed (arrowType pair.1.shape) pair.2 := by
  have typed := RecordBatch.reads same
  rw [arrowType, RecordBatch.toStruct] at typed
  cases typed with
  | struct _ typed _ => exact wellFormed_fields_iff.mp typed

theorem RecordBatch.clean_iff {fields : List FieldShape} {batch : RecordBatch α} {row : Nat}
    (within : row < batch.numRows) :
    Position.Clean ⟨.struct fields, batch.toStruct, row⟩ ↔
      ∀ pair ∈ fields.zip batch.columns, Position.Clean ⟨pair.1.shape, pair.2, row⟩ := by
  have present := batch.not_null within
  unfold RecordBatch.toStruct at present ⊢
  rw [clean_struct_iff, present]
  exact and_iff_right rfl

/-- The plans of the fields decide the rows of a batch whose schema matches. -/
theorem BatchValidator.validate_ok_iff {fields : List FieldShape} (mappable : Mappable (.struct fields))
    (batch : RecordBatch α) :
    (BatchValidator.mk (Schema.new (arrowFields fields))
      ((arrowFields fields).map fun field => Node.new field field.name)).validate batch = .ok () ↔
      batch.schema.fields.map Field.plain = arrowFields fields ∧
        ∀ row < batch.numRows, Position.Clean ⟨.struct fields, batch.toStruct, row⟩ := by
  have matching := @fieldsMatch_iff _ (standard_arrowType (.struct fields)) batch.schema.fields
  rw [plain_arrowFields, eq_comm (a := arrowFields fields)] at matching
  unfold BatchValidator.validate
  by_cases same : batch.schema.fields.map Field.plain = arrowFields fields
  · have typed := RecordBatch.fits same
    have parts := (mappable_struct_iff.mp mappable).2
    simp only [Schema.new, matching.mpr same, Bool.not_true, Bool.false_eq_true, if_false, same, true_and]
    simp only [arrowFields_eq_map, List.map_map, List.zip_map_left, Fallible.forM_ok_iff, List.mem_range,
      List.forall_mem_map]
    have each : ∀ pair ∈ fields.zip batch.columns, ∀ row < batch.numRows,
        ((Node.new (arrowField pair.1.name pair.1.shape) pair.1.name).validate pair.2 row = .ok () ↔
          Position.Clean ⟨pair.1.shape, pair.2, row⟩) := by
      intro pair member row within
      have inside := List.of_mem_zip member
      exact decides_of_mappable (parts _ inside.1) (typed pair member) (by rwa [batch.rows _ inside.2])
    constructor
    · intro valid row within
      rw [RecordBatch.clean_iff within]
      exact fun pair member => (each pair member row within).mp (valid pair member row within)
    · intro clean pair member row within
      exact (each pair member row within).mpr ((RecordBatch.clean_iff within).mp (clean row within) pair member)
  · have apart : fieldsMatch (arrowFields fields) batch.schema.fields = false := by
      rw [← Bool.not_eq_true, matching]
      exact same
    simp [Schema.new, apart, same]

end

end Datacrate.Arrow
