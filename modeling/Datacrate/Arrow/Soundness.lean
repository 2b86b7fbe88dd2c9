import Datacrate.Arrow.Denotation

namespace Datacrate.Arrow

open Contracts (TypeShape FieldShape isOptional)

section

variable {α : Type} {row : Nat} {path : String}

theorem Node.validate_new {field : Field} {array : ArrayData α} :
    (Node.new field path).validate array row =
      if array.isNull row then if field.nullable then .ok () else .error (.requiredNull path row)
      else (childrenOf field.dataType path).validate path array row := by
  cases field
  rw [Node.new, Node.validate]

theorem Node.validate_arrowField {name : String} {shape : TypeShape} {array : ArrayData α} :
    (Node.new (arrowField name shape) path).validate array row =
      if array.isNull row then if isOptional shape then .ok () else .error (.requiredNull path row)
      else (childrenOf (arrowType shape) path).validate path array row :=
  Node.validate_new

theorem validateNodes_ok_iff {fields : List FieldShape} {columns : List (ArrayData α)} :
    validateNodes (nodesOf (arrowFields fields) path) columns row = .ok () ↔
      ∀ pair ∈ fields.zip columns, (Node.new (arrowField pair.1.name pair.1.shape)
        (path ++ "." ++ pair.1.name)).validate pair.2 row = .ok () := by
  induction fields generalizing columns with
  | nil => simp [arrowFields, nodesOf, validateNodes]
  | cons field rest ih =>
    obtain ⟨name, shape, hasDefault⟩ := field
    cases columns with
    | nil => simp [arrowFields, nodesOf, validateNodes]
    | cons column columns =>
      rw [arrowFields, nodesOf, validateNodes, Fallible.bind_ok_iff, List.zip_cons_cons, List.forall_mem_cons, ih]
      exact ⟨fun found => found.elim fun _ both => both, fun both => ⟨(), both⟩⟩

theorem wellFormed_fields_iff {fields : List FieldShape} {columns : List (ArrayData α)} :
    (∀ pair ∈ (arrowFields fields).zip columns, WellFormed pair.1.dataType pair.2) ↔
      ∀ pair ∈ fields.zip columns, WellFormed (arrowType pair.1.shape) pair.2 := by
  rw [arrowFields_eq_map, List.zip_map_left, List.forall_mem_map]
  rfl

/-- What the plan for a shape must decide on arrays of the shape's type. -/
def Decides (α : Type) (shape : TypeShape) : Prop :=
  ∀ {name path : String} {array : ArrayData α} {row : Nat}, WellFormed (arrowType shape) array →
    row < array.length → ((Node.new (arrowField name shape) path).validate array row = .ok () ↔
      Position.Clean ⟨shape, array, row⟩)

/-- A struct at one row, whose columns the plans of its fields decide. -/
theorem decides_struct {fields : List FieldShape} (parts : ∀ field ∈ fields, Decides α field.shape) :
    Decides α (.struct fields) := by
  intro name path array row typed within
  rw [arrowType] at typed
  cases typed with
  | @struct _ validity columns _ typed lengths =>
    rw [wellFormed_fields_iff] at typed
    rw [Node.validate_arrowField, clean_struct_iff]
    cases null : (ArrayData.struct validity columns).isNull row with
    | true => simp [isOptional]
    | false =>
      simp only [Bool.false_eq_true, if_false, arrowType, childrenOf, Children.validate,
        validateNodes_ok_iff, true_and]
      refine forall₂_congr fun pair member => ?_
      have inside := List.of_mem_zip member
      exact parts _ inside.1 (typed pair member) (by rwa [lengths _ inside.2])

/-- Induction on the derivation that the shape maps; a null decides at once,
otherwise the children do. -/
theorem decides_of_mappable {shape : TypeShape} (mappable : Mappable shape) : Decides α shape := by
  induction mappable with
  | @primitive primitive known =>
    intro name path array row typed within
    rw [Node.validate_arrowField, clean_primitive_iff]
    cases null : array.isNull row <;>
      simp [arrowType, isOptional, childrenOf, Children.validate]
  | optional plain _ ih =>
    intro name path array row typed within
    rw [clean_optional_iff plain, ← @ih name path array row typed within, Node.validate_arrowField,
      Node.validate_arrowField]
    cases null : array.isNull row <;> simp [arrowType, isOptional]
  | sequence _ ih =>
    intro name path array row typed within
    rw [arrowType] at typed
    cases typed with
    | @list _ validity offsets values fit typed =>
      rw [Node.validate_arrowField, clean_sequence_iff]
      cases null : (ArrayData.list validity offsets values).isNull row with
      | true => simp [isOptional]
      | false =>
        simp only [Bool.false_eq_true, if_false, arrowType, childrenOf, Children.validate,
          Fallible.forM_ok_iff, true_and]
        exact forall₂_congr fun index member => @ih "item" _ _ _ typed (fit.lt_of_mem within member)
  | @map key value _ _ _ keyIh valueIh =>
    intro name path array row typed within
    rw [arrowType] at typed
    cases typed with
    | @map _ _ validity offsets entries fit typed =>
      rw [Node.validate_arrowField, clean_map_iff]
      cases null : (ArrayData.map validity offsets entries).isNull row with
      | true => simp [isOptional]
      | false =>
        have struct : Decides α (entryShape key value) := by
          refine decides_struct ?_
          simp only [List.forall_mem_cons, List.not_mem_nil, false_imp_iff, implies_true, and_true]
          exact ⟨keyIh, valueIh⟩
        simp only [Bool.false_eq_true, if_false, arrowType, childrenOf, Children.validate,
          Fallible.forM_ok_iff, true_and]
        exact forall₂_congr fun index member => struct typed (fit.lt_of_mem within member)
  | struct _ _ ih => exact decides_struct ih

theorem membersAt_isSome_iff {fields : List FieldShape} {columns : List (ArrayData α)} :
    (membersAt fields columns row).isSome = true ↔
      ∀ pair ∈ fields.zip columns, (valueAt pair.1.shape pair.2 row).isSome = true := by
  induction fields generalizing columns with
  | nil => simp [membersAt]
  | cons field rest ih =>
    obtain ⟨name, shape, hasDefault⟩ := field
    cases columns with
    | nil => simp [membersAt]
    | cons column columns =>
      rw [membersAt, List.zip_cons_cons, List.forall_mem_cons, ← ih]
      cases valueAt shape column row <;> simp

/-- An entry of a map is read like the struct it is stored as. -/
theorem entryAt_isSome_iff {key value : TypeShape} {validity : List Bool} {keys values : ArrayData α} :
    (if validity[row]?.any not then none
      else (valueAt key keys row).bind fun k => (valueAt value values row).map fun v => (k, v)).isSome = true ↔
      (valueAt (entryShape key value) (.struct validity [keys, values]) row).isSome = true := by
  rw [entryShape, valueAt]
  cases validity[row]?.any not with
  | true => simp
  | false =>
    simp only [Bool.false_eq_true, if_false, membersAt]
    cases valueAt key keys row <;> cases valueAt value values row <;> simp

/-- What the denotation of a shape is defined on. -/
def Denotes (α : Type) (shape : TypeShape) : Prop :=
  ∀ {array : ArrayData α} {row : Nat}, WellFormed (arrowType shape) array → row < array.length →
    ((valueAt shape array row).isSome = true ↔ Position.Clean ⟨shape, array, row⟩)

theorem denotes_struct {fields : List FieldShape} (parts : ∀ field ∈ fields, Denotes α field.shape) :
    Denotes α (.struct fields) := by
  intro array row typed within
  rw [arrowType] at typed
  cases typed with
  | @struct _ validity columns _ typed lengths =>
    rw [wellFormed_fields_iff] at typed
    rw [valueAt, clean_struct_iff, ArrayData.isNull]
    cases null : validity[row]?.any not with
    | true => simp
    | false =>
      simp only [Bool.false_eq_true, if_false, Option.isSome_map, membersAt_isSome_iff, true_and]
      refine forall₂_congr fun pair member => ?_
      have inside := List.of_mem_zip member
      exact parts _ inside.1 (typed pair member) (by rwa [lengths _ inside.2])

theorem denotes_of_mappable {shape : TypeShape} (mappable : Mappable shape) : Denotes α shape := by
  induction mappable with
  | @primitive primitive known =>
    intro array row typed within
    rw [arrowType] at typed
    cases typed with
    | leaf kind cells =>
      have present : row < cells.length := within
      rw [clean_primitive_iff, valueAt, ArrayData.isNull, List.getElem?_eq_getElem present]
      cases cells[row] <;> simp
  | optional plain _ ih =>
    intro array row typed within
    rw [clean_optional_iff plain, ← ih typed within, valueAt]
    cases null : array.isNull row <;> simp
  | sequence _ ih =>
    intro array row typed within
    rw [arrowType] at typed
    cases typed with
    | @list _ validity offsets values fit typed =>
      rw [valueAt, clean_sequence_iff, ArrayData.isNull]
      cases null : validity[row]?.any not with
      | true => simp
      | false =>
        simp only [Bool.false_eq_true, if_false, Option.isSome_map, Fallible.mapM_isSome_iff, true_and]
        exact forall₂_congr fun index member => ih typed (fit.lt_of_mem within member)
  | @map key value _ _ _ keyIh valueIh =>
    intro array row typed within
    rw [arrowType] at typed
    cases typed with
    | @map _ _ validity offsets entries fit typed =>
      have struct : Denotes α (entryShape key value) := by
        refine denotes_struct ?_
        simp only [List.forall_mem_cons, List.not_mem_nil, false_imp_iff, implies_true, and_true]
        exact ⟨keyIh, valueIh⟩
      have each := fun index member => @struct _ index typed (fit.lt_of_mem within member)
      cases typed with
      | @struct _ entryValidity columns count typed lengths =>
        obtain ⟨keys, values, rfl⟩ := List.length_eq_two.mp count
        rw [valueAt, clean_map_iff, ArrayData.isNull]
        cases null : validity[row]?.any not with
        | true => simp
        | false =>
          simp only [Bool.false_eq_true, if_false, Option.isSome_map, Fallible.mapM_isSome_iff, true_and,
            entryAt_isSome_iff]
          exact forall₂_congr each
  | struct _ _ ih => exact denotes_struct ih

end

end Datacrate.Arrow
