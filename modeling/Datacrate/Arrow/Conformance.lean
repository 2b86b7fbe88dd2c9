import Datacrate.Arrow.Slice
import Datacrate.Contracts.Ordered

namespace Datacrate.Arrow

open Contracts (TypeShape FieldShape eraseFieldDefaults isOptional conforms)

section Defaults

/-- The field with its default forgotten, at every level. -/
def eraseFieldDefault (field : FieldShape) : FieldShape :=
  ⟨field.name, field.shape.eraseDefaults, false⟩

theorem eraseFieldDefaults_eq_map (fields : List FieldShape) :
    eraseFieldDefaults fields = fields.map eraseFieldDefault := by
  induction fields with
  | nil => rfl
  | cons field rest ih =>
    cases field
    rw [eraseFieldDefaults, ih, List.map_cons, eraseFieldDefault]

theorem eraseFieldDefaults_names (fields : List FieldShape) :
    (eraseFieldDefaults fields).map (·.name) = fields.map (·.name) := by
  rw [eraseFieldDefaults_eq_map, List.map_map]
  rfl

theorem isOptional_eraseDefaults (shape : TypeShape) : isOptional shape.eraseDefaults = isOptional shape := by
  cases shape <;> rfl

theorem isMapKey_eraseDefaults (shape : TypeShape) : isMapKey shape.eraseDefaults = isMapKey shape := by
  cases shape <;> rfl

/-- Contract defaults have no physical representation. -/
theorem arrowType_eraseDefaults (shape : TypeShape) : arrowType shape.eraseDefaults = arrowType shape := by
  induction shape using TypeShape.induction with
  | primitive primitive => rfl
  | optional inner ih => exact ih
  | sequence item ih =>
    simp only [TypeShape.eraseDefaults, arrowType, isOptional_eraseDefaults, ih]
  | map key value keyIh valueIh =>
    simp only [TypeShape.eraseDefaults, arrowType, isOptional_eraseDefaults, keyIh, valueIh]
  | struct fields ih =>
    simp only [TypeShape.eraseDefaults, arrowType, arrowFields_eq_map, eraseFieldDefaults_eq_map, List.map_map]
    refine congrArg _ (List.map_congr_left fun field member => ?_)
    simp only [Function.comp_apply, eraseFieldDefault, arrowField, isOptional_eraseDefaults, ih field member]

theorem mappable_eraseDefaults {shape : TypeShape} : Mappable shape.eraseDefaults ↔ Mappable shape := by
  induction shape using TypeShape.induction with
  | primitive primitive => rfl
  | optional inner ih =>
    rw [TypeShape.eraseDefaults, mappable_optional_iff, mappable_optional_iff, isOptional_eraseDefaults, ih]
  | sequence item ih => rw [TypeShape.eraseDefaults, mappable_sequence_iff, mappable_sequence_iff, ih]
  | map key value keyIh valueIh =>
    rw [TypeShape.eraseDefaults, mappable_map_iff, mappable_map_iff, isMapKey_eraseDefaults, keyIh, valueIh]
  | struct fields ih =>
    rw [TypeShape.eraseDefaults, mappable_struct_iff, mappable_struct_iff, eraseFieldDefaults_names,
      eraseFieldDefaults_eq_map, List.forall_mem_map]
    exact and_congr_right fun _ => forall₂_congr ih

theorem nesting_eraseDefaults (shape : TypeShape) : nesting shape.eraseDefaults = nesting shape := by
  induction shape using TypeShape.induction with
  | primitive primitive => rfl
  | optional inner ih => exact ih
  | sequence item ih => rw [TypeShape.eraseDefaults, nesting, nesting, ih]
  | map key value keyIh valueIh => rw [TypeShape.eraseDefaults, nesting, nesting, keyIh, valueIh]
  | struct fields ih =>
    rw [TypeShape.eraseDefaults, nesting, nesting]
    refine eq_of_forall_ge_iff fun bound => ?_
    rw [nestingFields_le_iff, nestingFields_le_iff, eraseFieldDefaults_eq_map, List.forall_mem_map]
    exact forall₂_congr fun field member => by rw [eraseFieldDefault, ih field member]

/-- A shape maps like it does without defaults. -/
theorem schema_eraseDefaults_ok_iff {shape : TypeShape} {mapped : Schema} :
    schema shape.eraseDefaults = .ok mapped ↔ schema shape = .ok mapped := by
  cases shape with
  | struct fields =>
    have same := arrowType_eraseDefaults (.struct fields)
    rw [TypeShape.eraseDefaults, arrowType, arrowType, DataType.struct.injEq] at same
    rw [schema_ok_iff, schema_ok_iff, mappable_eraseDefaults, nesting_eraseDefaults]
    simp only [TypeShape.eraseDefaults, TypeShape.struct.injEq, exists_eq_left', same]
  | _ => simp [schema, TypeShape.eraseDefaults]

end Defaults

theorem schema_ok_iff_of_conforms {producer contract : TypeShape}
    (conform : conforms producer contract .exactOrdered = true) {mapped : Schema} :
    schema producer = .ok mapped ↔ schema contract = .ok mapped := by
  rw [← schema_eraseDefaults_ok_iff, Contracts.conforms_exactOrdered_iff.mp conform, schema_eraseDefaults_ok_iff]

/-- Contracts that conform in order map together, and then their validators
accept the same batches. -/
theorem conforming_validators_agree {producer contract : TypeShape}
    (conform : conforms producer contract .exactOrdered = true) :
    ((∃ mapped, schema producer = .ok mapped) ↔ ∃ mapped, schema contract = .ok mapped) ∧
      ∀ first second, BatchValidator.new producer = .ok first → BatchValidator.new contract = .ok second →
        ∀ (α : Type) (batch : RecordBatch α), first.validate batch = .ok () ↔ second.validate batch = .ok () := by
  refine ⟨exists_congr fun mapped => schema_ok_iff_of_conforms conform, ?_⟩
  intro first second preparedFirst preparedSecond α batch
  obtain ⟨mapped, maps, rfl⟩ := BatchValidator.new_ok_iff.mp preparedFirst
  obtain ⟨other, otherMaps, rfl⟩ := BatchValidator.new_ok_iff.mp preparedSecond
  have agree := (schema_ok_iff_of_conforms conform).mp maps
  rw [Except.ok.inj (agree.symm.trans otherMaps)]

/-- The shape of the tagged rows with the defaults on the other field. -/
def otherDefaults : TypeShape :=
  .struct [⟨"id", .primitive "i64", true⟩, ⟨"tags", .optional (.sequence (.primitive "String")), false⟩]

/-- What the contract accepts, its conforming producer accepts. -/
theorem taggedBatch_agreed : ∃ first second, BatchValidator.new otherDefaults = .ok first ∧
    BatchValidator.new taggedShape = .ok second ∧ second.validate taggedBatch = .ok () ∧
      first.validate taggedBatch = .ok () := by
  have conform : conforms otherDefaults taggedShape .exactOrdered = true :=
    Contracts.conforms_exactOrdered_iff.mpr rfl
  obtain ⟨maps, agree⟩ := conforming_validators_agree conform
  obtain ⟨mapped, produced⟩ := maps.mpr ⟨_, taggedShape_maps⟩
  have first := BatchValidator.new_ok_iff.mpr ⟨mapped, produced, rfl⟩
  have second := BatchValidator.new_ok_iff.mpr ⟨_, taggedShape_maps, rfl⟩
  have accepted := (BatchValidator.validate_ok_iff_values taggedShape_mappable taggedBatch).mpr ⟨rfl, by decide⟩
  exact ⟨_, _, first, second, accepted, (agree _ _ first second Nat taggedBatch).mpr accepted⟩

end Datacrate.Arrow
