import Datacrate.Arrow.Conformance
import Datacrate.Arrow.Injective
import Datacrate.Codegen.Documents
import Datacrate.Codegen.RoundTrip
import Datacrate.Contracts.Check

namespace Datacrate.Codegen

open Arrow
open Contracts (TypeShape FieldShape eraseFieldDefaults isOptional conforms conforms_exactOrdered_iff schemaConformsCheck
  schemaConformsCheck_error_iff SchemaPolicy)

/-- A contract maps to the schema, up to metadata, item names and offset
width. -/
def Describes (contract : TypeShape) (original : Schema) : Prop :=
  ∃ mapped, Arrow.schema contract = .ok mapped ∧ essentialFields mapped.fields = essentialFields original.fields

/-- A contract labels text `String`, not `str`. -/
def TextIsString (contract : TypeShape) : Prop :=
  canonical contract = contract.eraseDefaults

section Shapes

/-- Nothing of a mapped type is inessential. -/
theorem essential_arrowType (shape : TypeShape) : essential (arrowType shape) = arrowType shape := by
  induction shape using TypeShape.induction with
  | primitive primitive => rfl
  | optional inner ih => exact ih
  | sequence item ih =>
    rw [arrowType, Field.new, essential, ih]
    rfl
  | map key value _ _ =>
    have plain := plain_arrowType (.map key value)
    rw [arrowType, DataType.plain, DataType.map.injEq] at plain
    rw [arrowType, essential, plain.1]
  | struct fields ih =>
    rw [arrowType, essential, essentialFields_eq_map, arrowFields_eq_map, List.map_map]
    refine congrArg _ (List.map_congr_left fun field member => ?_)
    simp only [Function.comp_apply, arrowField, Field.new, ih field member]

theorem essential_arrowFields (fields : List FieldShape) : essentialFields (arrowFields fields) = arrowFields fields := by
  have whole := essential_arrowType (.struct fields)
  rwa [arrowType, essential, DataType.struct.injEq] at whole

/-- Labels are identified the same with and without defaults. -/
theorem canonical_eraseDefaults (shape : TypeShape) : canonical shape.eraseDefaults = canonical shape := by
  induction shape using TypeShape.induction with
  | primitive primitive => rfl
  | optional inner ih => rw [TypeShape.eraseDefaults, canonical_optional, canonical_optional, ih]
  | sequence item ih => rw [TypeShape.eraseDefaults, canonical_sequence, canonical_sequence, ih]
  | map key value keyIh valueIh => rw [TypeShape.eraseDefaults, canonical_map, canonical_map, keyIh, valueIh]
  | struct fields ih =>
    rw [TypeShape.eraseDefaults, canonical_struct, canonical_struct, eraseFieldDefaults_eq_map, List.map_map]
    refine congrArg _ (List.map_congr_left fun field member => ?_)
    rw [Function.comp_apply, eraseFieldDefault, ih field member]

theorem textIsString_iff_of_eraseDefaults_eq {first second : TypeShape}
    (same : first.eraseDefaults = second.eraseDefaults) : TextIsString first ↔ TextIsString second := by
  rw [TextIsString, TextIsString, ← canonical_eraseDefaults first, ← canonical_eraseDefaults second, same]

theorem rustPrimitive_ne_str (kind : LeafType) : (rustPrimitive kind).getD "" ≠ "str" := by
  cases kind <;> simp [rustPrimitive]

/-- No rendered type is `str`. -/
theorem textIsString_renderedShape (dataType : DataType) : TextIsString (renderedShape dataType) := by
  rw [TextIsString]
  induction dataType using DataType.induction with
  | leaf kind =>
    rw [renderedShape, canonical_primitive, if_neg (rustPrimitive_ne_str kind)]
    rfl
  | map entries sorted _ => rfl
  | list item ih | largeList item ih =>
    cases item
    rw [renderedShape, canonical_sequence, ih, TypeShape.eraseDefaults]
  | struct fields ih =>
    rw [renderedShape, canonical_struct, TypeShape.eraseDefaults, eraseFieldDefaults_eq_map, renderedFields_eq_map,
      List.map_map, List.map_map]
    refine congrArg _ (List.map_congr_left fun field member => ?_)
    have here := ih field member
    cases nullable : field.nullable <;>
      simp [renderedField, eraseFieldDefault, nullable, canonical_optional, TypeShape.eraseDefaults, here]

/-- Contracts of one schema conform to each other, where both label text
alike. -/
theorem conforms_of_describes {first second : TypeShape} {original : Schema} (left : Describes first original)
    (right : Describes second original) (leftText : TextIsString first) (rightText : TextIsString second) :
    conforms first second .exactOrdered = true := by
  obtain ⟨_, maps, same⟩ := left
  obtain ⟨_, otherMaps, otherSame⟩ := right
  obtain ⟨fields, rfl, mappable, _, rfl⟩ := schema_ok_iff.mp maps
  obtain ⟨others, rfl, otherMappable, _, rfl⟩ := schema_ok_iff.mp otherMaps
  have types : arrowType (.struct fields) = arrowType (.struct others) := by
    simp only [Schema.new, essential_arrowFields] at same otherSame
    rw [arrowType, arrowType, same, otherSame]
  have equal := canonical_eq_of_arrowType_eq mappable otherMappable types rfl
  rw [leftText, rightText] at equal
  exact conforms_exactOrdered_iff.mpr equal

end Shapes

theorem schemaConformsCheck_ok_iff {producer contract : TypeShape} {policy : SchemaPolicy} :
    schemaConformsCheck producer contract policy = .ok () ↔ conforms producer contract policy = true := by
  have failing := @schemaConformsCheck_error_iff producer contract policy
  cases check : schemaConformsCheck producer contract policy with
  | error message =>
    rw [failing.mp ⟨message, check⟩]
    simp
  | ok done =>
    refine iff_of_true rfl ?_
    by_contra rejected
    obtain ⟨message, failed⟩ := failing.mpr (Bool.eq_false_iff.mpr rejected)
    rw [check] at failed
    cases failed

section Gate

variable {tools : Toolchain} {structName : String} {original : Schema} {file : List RustStruct} {shape : TypeShape}

/-- The gate lets through the contracts that describe the source. -/
theorem gate_exact (made : structSource tools structName original = .ok file) (recoverable : Recoverable original)
    (steward : TypeShape) :
    conforms (renderedShape (.struct original.fields)) steward .exactOrdered = true ↔
      TextIsString steward ∧ Describes steward original := by
  have text := textIsString_renderedShape (.struct original.fields)
  obtain ⟨mapped, maps, same⟩ := (renderedShape_maps_iff (structSource_renders made).renderable).mpr
    ⟨recoverable.items, recoverable.unique, recoverable.shallow⟩
  constructor
  · intro conform
    have erased := conforms_exactOrdered_iff.mp conform
    exact ⟨(textIsString_iff_of_eraseDefaults_eq erased).mp text, mapped,
      (schema_ok_iff_of_conforms conform).mp maps, same⟩
  · rintro ⟨stewardText, describes⟩
    exact conforms_of_describes ⟨mapped, maps, same⟩ describes text stewardText

/-- The gate on a generated struct accepts just the contracts that describe
the source, whatever the steward writes, exactly when the source survives the
round trip. -/
theorem gate_exact_iff (made : structSource tools structName original = .ok file) (formed : WellFormed file)
    (read : ReadsAs file structName shape) :
    Recoverable original ∧ Legible structName original.fields ↔
      ∀ steward, schemaConformsCheck shape steward .exactOrdered = .ok () ↔
        TextIsString steward ∧ Describes steward original := by
  simp only [schemaConformsCheck_ok_iff]
  constructor
  · rintro ⟨recoverable, legible⟩
    obtain ⟨_, rfl⟩ := (readsAs_structSource made legible.unshadowed shape).mp read
    exact gate_exact made recoverable
  · intro exact
    -- the generated contract itself passes its gate
    obtain ⟨_, mapped, maps, same⟩ := (exact shape).mp (conforms_exactOrdered_iff.mpr rfl)
    exact (roundTrips_iff made).mp ⟨formed, shape, mapped, read, maps, same⟩

end Gate

/-- The schema of the reference documents. -/
def ordersSchema : Schema :=
  Schema.new [Field.new "id" (.leaf .int64) false, Field.new "customer_name" (.leaf .utf8) true]

theorem ordersSchema_recoverable : Recoverable ordersSchema := by
  refine ⟨.struct ?_, .struct (by decide) ?_, by decide, namesApart_iff.mpr (by decide)⟩
  · simp only [ordersSchema, Schema.new, List.forall_mem_cons, List.not_mem_nil, false_imp_iff, implies_true, and_true]
    exact ⟨.leaf _, .leaf _⟩
  · simp only [ordersSchema, Schema.new, List.forall_mem_cons, List.not_mem_nil, false_imp_iff, implies_true, and_true]
    exact ⟨.leaf _, .leaf _⟩

/-- Under a name that is no reserved word and no standard one. -/
theorem ordersSchema_legible {structName : String} (named : namesNothing structName = false)
    (own : bareName structName ∉ standardNames (.struct ordersSchema.fields)) :
    Legible structName ordersSchema.fields := by
  have root : structPaths (.struct ordersSchema.fields) = [""] := by decide
  refine ⟨?_, by decide, ?_⟩
  · rw [root, List.forall_mem_singleton, String.append_empty]
    exact named
  · rw [Unshadowed, root, List.forall_mem_singleton, String.append_empty]
    exact own

theorem orders_gate_exact : (Recoverable ordersSchema ∧ Legible "SourceOfTruth" ordersSchema.fields) ∧
    ∀ steward, schemaConformsCheck (renderedShape (.struct ordersSchema.fields)) steward .exactOrdered = .ok () ↔
      TextIsString steward ∧ Describes steward ordersSchema := by
  have made : structSource lenient "SourceOfTruth" ordersSchema = .ok _ := rfl
  have legible : Legible "SourceOfTruth" ordersSchema.fields := ordersSchema_legible (by decide) (by decide)
  have formed := (wellFormed_structSource_iff made ordersSchema_recoverable.unique).mpr ⟨legible.structs, legible.names⟩
  have read := (readsAs_structSource made legible.unshadowed _).mpr ⟨ordersSchema_recoverable.apart, rfl⟩
  exact ⟨⟨ordersSchema_recoverable, legible⟩, (gate_exact_iff made formed read).mp ⟨ordersSchema_recoverable, legible⟩⟩

end Datacrate.Codegen
