import Datacrate.Arrow.Batch

namespace Datacrate.Arrow

open Contracts (TypeShape FieldShape isOptional)

section Window

variable {β : Type*} {start count row : Nat} {xs : List β}

/-- Some consecutive elements of a list. -/
def window (start count : Nat) (xs : List β) : List β :=
  (xs.drop start).take count

theorem getElem?_window (inside : row < count) : (window start count xs)[row]? = xs[start + row]? := by
  rw [window, List.getElem?_take_of_lt inside, List.getElem?_drop]

theorem length_window (within : start + count ≤ xs.length) : (window start count xs).length = count := by
  rw [window, List.length_take, List.length_drop]
  omega

theorem mem_of_mem_window {x : β} (member : x ∈ window start count xs) : x ∈ xs :=
  List.mem_of_mem_drop (List.mem_of_mem_take member)

end Window

section

variable {α : Type}

mutual

/-- Some rows of an array, as Arrow slices it: a struct slices its columns,
while a list or a map keeps its child array and slices its offsets. -/
def ArrayData.slice (start count : Nat) : ArrayData α → ArrayData α
  | .leaf dataType cells => .leaf dataType (window start count cells)
  | .struct validity columns => .struct (window start count validity) (sliceColumns start count columns)
  | .list validity offsets values =>
    .list (window start count validity) (window start (count + 1) offsets) values
  | .map validity offsets entries =>
    .map (window start count validity) (window start (count + 1) offsets) entries

def sliceColumns (start count : Nat) : List (ArrayData α) → List (ArrayData α)
  | [] => []
  | column :: rest => column.slice start count :: sliceColumns start count rest

end

variable {start count row : Nat}

theorem sliceColumns_eq_map (columns : List (ArrayData α)) :
    sliceColumns start count columns = columns.map (ArrayData.slice start count) := by
  induction columns with
  | nil => rfl
  | cons column rest ih => rw [sliceColumns, ih, List.map_cons]

theorem offsetRange_window {offsets : List Nat} (inside : row < count) :
    offsetRange (window start (count + 1) offsets) row = offsetRange offsets (start + row) := by
  have here : (window start (count + 1) offsets).getD row 0 = offsets.getD (start + row) 0 := by
    rw [List.getD_eq_getElem?_getD, List.getD_eq_getElem?_getD, getElem?_window (by omega)]
  have next : (window start (count + 1) offsets).getD (row + 1) 0 = offsets.getD (start + row + 1) 0 := by
    rw [List.getD_eq_getElem?_getD, List.getD_eq_getElem?_getD, getElem?_window (by omega), Nat.add_assoc]
  rw [offsetRange, offsetRange, here, next]

theorem ArrayData.length_slice {array : ArrayData α} (within : start + count ≤ array.length) :
    (array.slice start count).length = count := by
  cases array <;> exact length_window within

theorem ArrayData.isNull_slice (array : ArrayData α) (inside : row < count) :
    (array.slice start count).isNull row = array.isNull (start + row) := by
  cases array <;> simp only [ArrayData.slice, ArrayData.isNull, getElem?_window inside]

/-- A row of a slice denotes what it denotes in the whole array. -/
theorem valueAt_slice (shape : TypeShape) (array : ArrayData α) (inside : row < count) :
    valueAt shape (array.slice start count) row = valueAt shape array (start + row) := by
  induction shape using TypeShape.induction generalizing array with
  | primitive name => cases array <;> simp only [ArrayData.slice, valueAt, getElem?_window inside]
  | optional inner ih => rw [valueAt, valueAt, ArrayData.isNull_slice array inside, ih]
  | sequence item ih =>
    cases array <;> simp only [ArrayData.slice, valueAt, getElem?_window inside, offsetRange_window inside]
  | map key value keyIh valueIh =>
    cases array with
    | map validity offsets entries =>
      rcases entries with _ | ⟨entryValidity, _ | ⟨keys, _ | ⟨values, _ | _⟩⟩⟩ | _ | _ <;>
        simp only [ArrayData.slice, valueAt, getElem?_window inside, offsetRange_window inside]
    | _ => rfl
  | struct fields ih =>
    cases array with
    | struct validity columns =>
      have members : membersAt fields (sliceColumns start count columns) row =
          membersAt fields columns (start + row) := by
        induction fields generalizing columns with
        | nil => rfl
        | cons field rest restIh =>
          cases columns with
          | nil =>
            cases field
            rfl
          | cons column columns =>
            rw [List.forall_mem_cons] at ih
            cases field
            rw [sliceColumns, membersAt, membersAt, ih.1, restIh ih.2]
      simp only [ArrayData.slice, valueAt, getElem?_window inside, members]
    | _ => rfl

theorem Offsets.window {rows values : Nat} {offsets : List Nat} (fit : Offsets rows values offsets)
    (within : start + count ≤ rows) : Offsets count values (window start (count + 1) offsets) where
  count := by
    have whole := fit.count
    exact length_window (by omega)
  monotone := (fit.monotone.drop).take
  bounded := fun offset member => fit.bounded offset (mem_of_mem_window member)

/-- A slice within the bounds is an array of the same type. -/
theorem WellFormed.slice {dataType : DataType} {array : ArrayData α} (typed : WellFormed dataType array)
    (within : start + count ≤ array.length) : WellFormed dataType (array.slice start count) := by
  induction typed with
  | leaf kind cells => exact .leaf kind _
  | largeList item cells => exact .largeList item _
  | @struct fields validity columns count' typed lengths ih =>
    rw [ArrayData.slice, sliceColumns_eq_map]
    refine .struct (by rw [List.length_map, count']) (fun pair member => ?_) (fun column member => ?_)
    · rw [List.zip_map_right] at member
      obtain ⟨⟨field, column⟩, inside, rfl⟩ := List.mem_map.mp member
      refine ih (field, column) inside ?_
      rw [lengths column (List.of_mem_zip inside).2]
      exact within
    · obtain ⟨whole, inside, rfl⟩ := List.mem_map.mp member
      rw [ArrayData.length_slice (by rw [lengths whole inside]; exact within), length_window within]
  | list fit typed =>
    refine .list ?_ typed
    rw [length_window within]
    exact fit.window within
  | map fit typed =>
    refine .map ?_ typed
    rw [length_window within]
    exact fit.window within

/-- Some rows of a batch. -/
def RecordBatch.slice (batch : RecordBatch α) (start count : Nat) (within : start + count ≤ batch.numRows) :
    RecordBatch α where
  schema := batch.schema
  columns := batch.columns.map (ArrayData.slice start count)
  numRows := count
  columnCount := by rw [List.length_map, batch.columnCount]
  typed := by
    intro pair member
    rw [List.zip_map_right] at member
    obtain ⟨⟨field, column⟩, inside, rfl⟩ := List.mem_map.mp member
    exact (batch.typed (field, column) inside).slice (by rw [batch.rows column (List.of_mem_zip inside).2]; exact within)
  rows := by
    intro column member
    obtain ⟨whole, inside, rfl⟩ := List.mem_map.mp member
    exact ArrayData.length_slice (by rw [batch.rows whole inside]; exact within)

theorem RecordBatch.toStruct_slice {batch : RecordBatch α} (within : start + count ≤ batch.numRows) :
    (batch.slice start count within).toStruct = batch.toStruct.slice start count := by
  have present : window start count (List.replicate batch.numRows true) = List.replicate count true := by
    rw [window, List.drop_replicate, List.take_replicate, Nat.min_eq_left (by omega)]
  rw [toStruct, toStruct, ArrayData.slice, sliceColumns_eq_map, present]
  rfl

theorem BatchValidator.validate_ok_iff_values {fields : List FieldShape} (mappable : Mappable (.struct fields))
    (batch : RecordBatch α) :
    (BatchValidator.mk (Schema.new (arrowFields fields))
      ((arrowFields fields).map fun field => Node.new field field.name)).validate batch = .ok () ↔
      batch.schema.fields.map Field.plain = arrowFields fields ∧
        ∀ row < batch.numRows, (valueAt (.struct fields) batch.toStruct row).isSome = true := by
  refine (BatchValidator.validate_ok_iff mappable batch).trans
    (and_congr_right fun same => forall₂_congr fun row inside => ?_)
  exact (denotes_of_mappable mappable (RecordBatch.reads same) (by rwa [batch.length_toStruct])).symm

end

/-- The validator of a shape that maps accepts a batch exactly when its
schema is the mapped one up to metadata and every row denotes a value of the
shape, and this is when no active required position holds a null. Of a slice it
sees the rows it was cut from. -/
theorem validate_ok_iff_rows_denote {shape : TypeShape} {mapped : Schema} (maps : schema shape = .ok mapped) :
    ∃ validator, BatchValidator.new shape = .ok validator ∧ ∀ (α : Type) (batch : RecordBatch α),
      (validator.validate batch = .ok () ↔
        batch.schema.fields.map Field.plain = mapped.fields.map Field.plain ∧
          ∀ row < batch.numRows, (valueAt shape batch.toStruct row).isSome = true) ∧
      (validator.validate batch = .ok () ↔
        batch.schema.fields.map Field.plain = mapped.fields.map Field.plain ∧
          ∀ row < batch.numRows, ∀ position, Active ⟨shape, batch.toStruct, row⟩ position →
            ¬ (isOptional position.shape = false ∧ position.array.isNull position.row = true)) ∧
      ∀ start count, (within : start + count ≤ batch.numRows) →
        (validator.validate (batch.slice start count within) = .ok () ↔
          batch.schema.fields.map Field.plain = mapped.fields.map Field.plain ∧
            ∀ row < count, (valueAt shape batch.toStruct (start + row)).isSome = true) := by
  refine ⟨_, BatchValidator.new_ok_iff.mpr ⟨mapped, maps, rfl⟩, fun α batch => ?_⟩
  obtain ⟨fields, rfl, mappable, within, rfl⟩ := schema_ok_iff.mp maps
  have decided := BatchValidator.validate_ok_iff mappable batch
  simp only [Schema.new, plain_arrowFields] at decided ⊢
  refine ⟨BatchValidator.validate_ok_iff_values mappable batch, decided, fun start count within => ?_⟩
  refine (BatchValidator.validate_ok_iff_values mappable (batch.slice start count within)).trans
    (and_congr_right fun same => forall₂_congr fun row (inside : row < count) => ?_)
  rw [RecordBatch.toStruct_slice, valueAt_slice _ _ inside]

/-- Two rows of a required number and an optional list of required texts. -/
def taggedShape : TypeShape :=
  .struct [⟨"id", .primitive "i64", false⟩, ⟨"tags", .optional (.sequence (.primitive "String")), true⟩]

/-- The first row's list is one cell amid two nulls; the second is null over
one of them. -/
def taggedBatch : RecordBatch Nat where
  schema := Schema.new [⟨"id", .leaf .int64, false, [("unit", "none")]⟩,
    Field.new "tags" (.list (Field.new "item" (.leaf .utf8) false)) true]
  columns := [.leaf (.leaf .int64) [some 1, some 2],
    .list [true, false] [1, 2, 3] (.leaf (.leaf .utf8) [none, some 7, none])]
  numRows := 2
  columnCount := rfl
  typed := by
    simp only [Schema.new, List.zip_cons_cons, List.zip_nil_right, List.forall_mem_cons, List.not_mem_nil,
      false_imp_iff, implies_true, and_true]
    exact ⟨.leaf _ _, .list ⟨rfl, by decide, by decide⟩ (.leaf _ _)⟩
  rows := by simp [ArrayData.length]

theorem taggedShape_mappable : Mappable taggedShape := by
  refine .struct (by decide) ?_
  simp only [List.forall_mem_cons, List.not_mem_nil, false_imp_iff, implies_true, and_true]
  exact ⟨.primitive rfl, .optional rfl (.sequence (.primitive rfl))⟩

theorem taggedShape_maps : schema taggedShape = .ok (Schema.new (arrowFields
    [⟨"id", .primitive "i64", false⟩, ⟨"tags", .optional (.sequence (.primitive "String")), true⟩])) :=
  schema_ok_iff.mpr ⟨_, rfl, taggedShape_mappable, by decide, rfl⟩

/-- The batch is accepted, and so is its second row. -/
theorem taggedBatch_accepted :
    ∃ validator, BatchValidator.new taggedShape = .ok validator ∧ validator.validate taggedBatch = .ok () ∧
      validator.validate (taggedBatch.slice 1 1 (by decide)) = .ok () := by
  obtain ⟨validator, prepared, decided⟩ := validate_ok_iff_rows_denote taggedShape_maps
  obtain ⟨whole, _, slices⟩ := decided Nat taggedBatch
  exact ⟨validator, prepared, whole.mpr ⟨rfl, by decide⟩, (slices 1 1 (by decide)).mpr ⟨rfl, by decide⟩⟩

end Datacrate.Arrow
