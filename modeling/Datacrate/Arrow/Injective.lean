import Datacrate.Arrow.Validation
import Datacrate.Contracts.Ordered

namespace Datacrate.Arrow

open Contracts (TypeShape FieldShape eraseFieldDefaults isOptional conforms conforms_exactOrdered_iff)

mutual

/-- The shape with the label `str` written `String`, the other label of the
same Arrow type. -/
def identifyLabels : TypeShape → TypeShape
  | .primitive primitive => .primitive (if primitive = "str" then "String" else primitive)
  | .optional inner => .optional (identifyLabels inner)
  | .sequence item => .sequence (identifyLabels item)
  | .map key value => .map (identifyLabels key) (identifyLabels value)
  | .struct fields => .struct (identifyFieldLabels fields)

def identifyFieldLabels : List FieldShape → List FieldShape
  | [] => []
  | ⟨name, shape, hasDefault⟩ :: rest => ⟨name, identifyLabels shape, hasDefault⟩ :: identifyFieldLabels rest

end

/-- A shape up to contract defaults and the two labels of text. -/
def canonical (shape : TypeShape) : TypeShape :=
  (identifyLabels shape).eraseDefaults

section Canonical

variable (inner item key value : TypeShape) (primitive : String)

theorem canonical_primitive :
    canonical (.primitive primitive) = .primitive (if primitive = "str" then "String" else primitive) := rfl

theorem canonical_optional : canonical (.optional inner) = .optional (canonical inner) := rfl

theorem canonical_sequence : canonical (.sequence item) = .sequence (canonical item) := rfl

theorem canonical_map : canonical (.map key value) = .map (canonical key) (canonical value) := rfl

theorem canonical_struct (fields : List FieldShape) :
    canonical (.struct fields) = .struct (fields.map fun field => ⟨field.name, canonical field.shape, false⟩) := by
  rw [canonical, identifyLabels, TypeShape.eraseDefaults, TypeShape.struct.injEq]
  induction fields with
  | nil => rfl
  | cons field rest ih =>
    cases field
    rw [identifyFieldLabels, eraseFieldDefaults, ih, List.map_cons, canonical]

end Canonical

/-- No two labels share an Arrow type but the two labels of text. -/
theorem primitiveType_injective {a b : String} {kind : LeafType} (left : primitiveType a = some kind)
    (right : primitiveType b = some kind) :
    (if a = "str" then "String" else a) = if b = "str" then "String" else b := by
  unfold primitiveType at left right
  split at left <;> cases left <;> split at right <;> simp_all

/-- Induction on the first shape; equal types force the same kind of shape
below the optional layers. -/
theorem canonical_eq_of_arrowType_eq {a b : TypeShape} (left : Mappable a) (right : Mappable b)
    (types : arrowType a = arrowType b) (nullable : isOptional a = isOptional b) : canonical a = canonical b := by
  induction left generalizing b with
  | @primitive primitive known =>
    cases right with
    | @primitive other otherKnown =>
      obtain ⟨kind, here⟩ := Option.isSome_iff_exists.mp known
      obtain ⟨otherKind, there⟩ := Option.isSome_iff_exists.mp otherKnown
      simp only [arrowType, here, there, Option.getD_some, DataType.leaf.injEq] at types
      rw [canonical_primitive, canonical_primitive, primitiveType_injective here (types ▸ there)]
    | optional => simp [isOptional] at nullable
    | _ => simp [arrowType] at types
  | optional plain _ ih =>
    cases right with
    | optional otherPlain mappable =>
      rw [canonical_optional, canonical_optional, ih mappable types (plain.trans otherPlain.symm)]
    | _ => simp [isOptional] at nullable
  | sequence _ ih =>
    cases right with
    | sequence mappable =>
      simp only [arrowType, DataType.list.injEq, Field.new, Field.mk.injEq, true_and, and_true] at types
      rw [canonical_sequence, canonical_sequence, ih mappable types.1 types.2]
    | optional => simp [isOptional] at nullable
    | _ => simp [arrowType] at types
  | map _ _ _ keyIh valueIh =>
    cases right with
    | map _ keyMappable valueMappable =>
      simp only [arrowType, DataType.map.injEq, Field.new, Field.mk.injEq, true_and, and_true,
        DataType.struct.injEq, List.cons.injEq] at types
      rw [canonical_map, canonical_map, keyIh keyMappable types.1.1 types.1.2,
        valueIh valueMappable types.2.1 types.2.2]
    | optional => simp [isOptional] at nullable
    | _ => simp [arrowType] at types
  | @struct fields _ _ ih =>
    cases right with
    | @struct others _ parts =>
      simp only [arrowType, DataType.struct.injEq, arrowFields_eq_map] at types
      rw [canonical_struct, canonical_struct, TypeShape.struct.injEq]
      refine KeyedList.map_eq_of_map_eq (fun field member other otherMember same => ?_) types
      simp only [arrowField, Field.new, Field.mk.injEq, and_true] at same
      rw [same.1, ih field member (parts other otherMember) same.2.1 same.2.2]
    | optional => simp [isOptional] at nullable
    | _ => simp [arrowType] at types

/-- Mapping is injective on one name, up to contract defaults and the two
labels of text; contracts that prepare the same schema conform, under the
same identification. -/
theorem mapping_injective :
    (∀ {name pathA pathB : String} {depthA depthB : Nat} {a b : TypeShape} {fieldA fieldB : Field},
      mapField name a pathA depthA = .ok fieldA → mapField name b pathB depthB = .ok fieldB →
        fieldA.plain = fieldB.plain → (identifyLabels a).eraseDefaults = (identifyLabels b).eraseDefaults) ∧
    ∀ {producer contract : TypeShape} {first second : BatchValidator},
      BatchValidator.new producer = .ok first → BatchValidator.new contract = .ok second →
        first.schema.fields.map Field.plain = second.schema.fields.map Field.plain →
          conforms (identifyLabels producer) (identifyLabels contract) .exactOrdered = true := by
  constructor
  · intro name pathA pathB depthA depthB a b fieldA fieldB mapsA mapsB same
    obtain ⟨left, _, rfl⟩ := mapField_ok_iff.mp mapsA
    obtain ⟨right, _, rfl⟩ := mapField_ok_iff.mp mapsB
    simp only [Field.plain_eq, arrowField, Field.new, plain_arrowType, Field.mk.injEq, true_and, and_true] at same
    exact canonical_eq_of_arrowType_eq left right same.1 same.2
  · intro producer contract first second preparedA preparedB same
    obtain ⟨_, mapsA, rfl⟩ := BatchValidator.new_ok_iff.mp preparedA
    obtain ⟨_, mapsB, rfl⟩ := BatchValidator.new_ok_iff.mp preparedB
    obtain ⟨fields, rfl, left, _, rfl⟩ := schema_ok_iff.mp mapsA
    obtain ⟨others, rfl, right, _, rfl⟩ := schema_ok_iff.mp mapsB
    simp only [Schema.new, plain_arrowFields] at same
    refine conforms_exactOrdered_iff.mpr (canonical_eq_of_arrowType_eq left right ?_ rfl)
    rw [arrowType, arrowType, same]

end Datacrate.Arrow
