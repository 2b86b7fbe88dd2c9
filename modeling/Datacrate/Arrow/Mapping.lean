import Datacrate.Arrow.DataType
import Datacrate.Contracts.Shape
import Datacrate.Lib.Fallible

namespace Datacrate.Arrow

open Contracts (TypeShape FieldShape)

/-- A physical representation that cannot be inferred from a declaration,
with the path of the field it blames. -/
inductive MappingError where
  | rootNotStruct
  | unsupportedPrimitive (path : String) (primitive : String)
  | nestedOptional (path : String)
  | invalidMapKey (path : String)
  | duplicateField (path : String)
  | depthLimit (path : String)
  deriving DecidableEq, Repr

/-- The supported nesting depth. -/
def maxDepth : Nat := 128

def primitiveType : String → Option LeafType
  | "bool" => some .boolean
  | "i8" => some .int8
  | "i16" => some .int16
  | "i32" => some .int32
  | "i64" => some .int64
  | "u8" => some .uInt8
  | "u16" => some .uInt16
  | "u32" => some .uInt32
  | "u64" => some .uInt64
  | "f32" => some .float32
  | "f64" => some .float64
  | "str" | "String" => some .utf8
  | _ => none

def mapKeys : List String :=
  ["bool", "String", "i8", "i16", "i32", "i64", "i128", "u8", "u16", "u32", "u64", "u128", "isize", "usize"]

def isMapKey : TypeShape → Bool
  | .primitive name => mapKeys.contains name
  | _ => false

/-- The shape below one optional layer, and whether there was one. -/
def peelOptional : TypeShape → TypeShape × Bool
  | .optional inner => (inner, true)
  | shape => (shape, false)

theorem peelOptional_of_plain {shape : TypeShape} (plain : Contracts.isOptional shape = false) :
    peelOptional shape = (shape, false) := by
  cases shape with
  | optional inner => simp [Contracts.isOptional] at plain
  | _ => rfl

theorem sizeOf_peelOptional_le (shape : TypeShape) : sizeOf (peelOptional shape).1 ≤ sizeOf shape := by
  cases shape <;> simp [peelOptional]

mutual

/-- Maps one named shape. An optional layer becomes the nullability. -/
def mapField (name : String) (shape : TypeShape) (path : String) (depth : Nat) : Except MappingError Field :=
  if depth > maxDepth then .error (.depthLimit path)
  else do
    let dataType ← mapType (peelOptional shape).1 path depth
    return Field.new name dataType (peelOptional shape).2
termination_by 2 * sizeOf shape + 1
decreasing_by
  have smaller := sizeOf_peelOptional_le shape
  omega

def mapType (shape : TypeShape) (path : String) (depth : Nat) : Except MappingError DataType :=
  match shape with
  | .optional _ => .error (.nestedOptional path)
  | .primitive primitive =>
    match primitiveType primitive with
    | some kind => .ok (.leaf kind)
    | none => .error (.unsupportedPrimitive path primitive)
  | .sequence item => do
    let item ← mapField "item" item (path ++ "[]") (depth + 1)
    return .list item
  | .struct fields => do
    let fields ← structFields [] fields path depth
    return .struct fields
  | .map key value =>
    if !isMapKey key then .error (.invalidMapKey (path ++ ".key"))
    else do
      let key ← mapField "key" key (path ++ ".key") (depth + 1)
      let value ← mapField "value" value (path ++ ".value") (depth + 1)
      return .map (Field.new "entries" (.struct [key, value]) false) false
termination_by 2 * sizeOf shape

/-- Maps the fields in order, each after the ones before it. -/
def structFields (prior fields : List FieldShape) (path : String) (depth : Nat) :
    Except MappingError (List Field) :=
  match fields with
  | [] => .ok []
  | field :: rest =>
    let fieldPath := if path.isEmpty then field.name else path ++ "." ++ field.name
    if prior.any (fun earlier => earlier.name == field.name) then .error (.duplicateField fieldPath)
    else do
      let mapped ← mapField field.name field.shape fieldPath (depth + 1)
      let others ← structFields (prior ++ [field]) rest path depth
      return mapped :: others
termination_by 2 * sizeOf fields
decreasing_by
  · cases field
    simp only [List.cons.sizeOf_spec, FieldShape.mk.sizeOf_spec]
    omega
  · simp only [List.cons.sizeOf_spec]
    omega

end

/-- Builds an ordered Arrow schema for a contract's shape. -/
def schema (shape : TypeShape) : Except MappingError Schema :=
  match shape with
  | .struct fields => do
    let fields ← structFields [] fields "" 0
    return Schema.new fields
  | _ => .error .rootNotStruct

/-- Maps one named shape on its own. -/
def field (name : String) (shape : TypeShape) : Except MappingError Field :=
  mapField name shape name 0

mutual

/-- The type a shape maps to where it maps at all. -/
def arrowType : TypeShape → DataType
  | .primitive primitive => .leaf ((primitiveType primitive).getD (.other primitive))
  | .optional inner => arrowType inner
  | .sequence item => .list (Field.new "item" (arrowType item) (Contracts.isOptional item))
  | .map key value =>
    .map (Field.new "entries" (.struct [Field.new "key" (arrowType key) (Contracts.isOptional key),
      Field.new "value" (arrowType value) (Contracts.isOptional value)]) false) false
  | .struct fields => .struct (arrowFields fields)

def arrowFields : List FieldShape → List Field
  | [] => []
  | ⟨name, shape, _⟩ :: rest => Field.new name (arrowType shape) (Contracts.isOptional shape) :: arrowFields rest

end

def arrowField (name : String) (shape : TypeShape) : Field :=
  Field.new name (arrowType shape) (Contracts.isOptional shape)

/-- Shapes with an unambiguous physical representation at any depth. -/
inductive Mappable : TypeShape → Prop
  | primitive {primitive : String} : (primitiveType primitive).isSome → Mappable (.primitive primitive)
  | optional {inner : TypeShape} : Contracts.isOptional inner = false → Mappable inner → Mappable (.optional inner)
  | sequence {item : TypeShape} : Mappable item → Mappable (.sequence item)
  | map {key value : TypeShape} : isMapKey key = true → Mappable key → Mappable value →
      Mappable (.map key value)
  | struct {fields : List FieldShape} : (fields.map (·.name)).Nodup →
      (∀ field ∈ fields, Mappable field.shape) → Mappable (.struct fields)

mutual

/-- How many levels of lists, maps and structs a shape has. -/
def nesting : TypeShape → Nat
  | .primitive _ => 0
  | .optional inner => nesting inner
  | .sequence item => nesting item + 1
  | .map key value => max (nesting key) (nesting value) + 1
  | .struct fields => nestingFields fields

/-- One level for the fields of a struct, none where it has no field. -/
def nestingFields : List FieldShape → Nat
  | [] => 0
  | ⟨_, shape, _⟩ :: rest => max (nesting shape + 1) (nestingFields rest)

end

theorem mappable_primitive_iff {primitive : String} :
    Mappable (.primitive primitive) ↔ (primitiveType primitive).isSome :=
  ⟨fun mappable => by cases mappable; assumption, .primitive⟩

theorem mappable_optional_iff {inner : TypeShape} :
    Mappable (.optional inner) ↔ Contracts.isOptional inner = false ∧ Mappable inner :=
  ⟨fun mappable => by cases mappable; constructor <;> assumption, fun parts => .optional parts.1 parts.2⟩

theorem mappable_sequence_iff {item : TypeShape} : Mappable (.sequence item) ↔ Mappable item :=
  ⟨fun mappable => by cases mappable; assumption, .sequence⟩

theorem mappable_map_iff {key value : TypeShape} :
    Mappable (.map key value) ↔ isMapKey key = true ∧ Mappable key ∧ Mappable value :=
  ⟨fun mappable => by cases mappable; exact ⟨by assumption, by assumption, by assumption⟩,
    fun parts => .map parts.1 parts.2.1 parts.2.2⟩

theorem mappable_struct_iff {fields : List FieldShape} :
    Mappable (.struct fields) ↔ (fields.map (·.name)).Nodup ∧ ∀ field ∈ fields, Mappable field.shape :=
  ⟨fun mappable => by cases mappable; constructor <;> assumption, fun parts => .struct parts.1 parts.2⟩

theorem arrowFields_eq_map (fields : List FieldShape) :
    arrowFields fields = fields.map fun field => arrowField field.name field.shape := by
  induction fields with
  | nil => rfl
  | cons field rest ih =>
    cases field
    rw [arrowFields, ih]
    rfl

theorem nestingFields_le_iff {fields : List FieldShape} {bound : Nat} :
    nestingFields fields ≤ bound ↔ ∀ field ∈ fields, nesting field.shape + 1 ≤ bound := by
  induction fields with
  | nil => simp [nestingFields]
  | cons field rest ih =>
    cases field
    rw [nestingFields, Nat.max_le, ih, List.forall_mem_cons]

theorem any_name_iff {prior : List FieldShape} {name : String} :
    prior.any (fun earlier => earlier.name == name) = true ↔ name ∈ prior.map (·.name) := by
  simp only [List.any_eq_true, beq_iff_eq, List.mem_map]

/-- What mapping a shape below its optional layer comes to. -/
def TypeSpec (shape : TypeShape) : Prop :=
  ∀ {path : String} {depth : Nat} {dataType : DataType}, depth ≤ maxDepth →
    (mapType shape path depth = .ok dataType ↔ Contracts.isOptional shape = false ∧ Mappable shape ∧
      depth + nesting shape ≤ maxDepth ∧ dataType = arrowType shape)

section Spec

variable {name path : String} {depth : Nat}

theorem mapField_ok_iff_of {shape : TypeShape} (types : TypeSpec (peelOptional shape).1) {field : Field} :
    mapField name shape path depth = .ok field ↔
      Mappable shape ∧ depth + nesting shape ≤ maxDepth ∧ field = arrowField name shape := by
  rw [mapField]
  split
  · rename_i deep
    simp only [reduceCtorEq, false_iff, not_and]
    omega
  · rename_i shallow
    simp only [Fallible.bind_ok_iff, Fallible.pure_ok_iff, types (Nat.le_of_not_lt shallow)]
    constructor
    · rintro ⟨dataType, ⟨plain, mappable, within, rfl⟩, rfl⟩
      cases shape with
      | optional inner => exact ⟨.optional plain mappable, within, rfl⟩
      | _ => exact ⟨mappable, within, rfl⟩
    · rintro ⟨mappable, within, rfl⟩
      cases shape with
      | optional inner =>
        have parts := mappable_optional_iff.mp mappable
        exact ⟨arrowType inner, ⟨parts.1, parts.2, within, rfl⟩, rfl⟩
      | _ => exact ⟨_, ⟨rfl, mappable, within, rfl⟩, rfl⟩

theorem structFields_ok_iff_of {fields : List FieldShape}
    (types : ∀ field ∈ fields, TypeSpec (peelOptional field.shape).1) {prior : List FieldShape}
    {mapped : List Field} :
    structFields prior fields path depth = .ok mapped ↔
      (∀ field ∈ fields, field.name ∉ prior.map (·.name)) ∧ (fields.map (·.name)).Nodup ∧
        (∀ field ∈ fields, Mappable field.shape) ∧
        (∀ field ∈ fields, depth + (nesting field.shape + 1) ≤ maxDepth) ∧ mapped = arrowFields fields := by
  induction fields generalizing prior mapped with
  | nil => simp [structFields, arrowFields, eq_comm]
  | cons field rest ih =>
    rw [List.forall_mem_cons] at types
    have tail := fun {others} => @ih types.2 (prior ++ [field]) others
    rw [structFields]
    simp only [any_name_iff, List.map_cons, List.nodup_cons, List.forall_mem_cons]
    by_cases repeated : field.name ∈ prior.map (·.name)
    · rw [if_pos repeated]
      simp only [reduceCtorEq, false_iff, not_and]
      exact fun fresh => absurd repeated fresh.1
    · rw [if_neg repeated]
      simp only [Fallible.bind_ok_iff, Fallible.pure_ok_iff, mapField_ok_iff_of types.1, tail,
        List.map_append, List.map_cons, List.map_nil, List.mem_append, List.mem_singleton, not_or]
      constructor
      · rintro ⟨first, ⟨mappable, within, rfl⟩, others, ⟨fresh, distinct, parts, deep, rfl⟩, rfl⟩
        refine ⟨⟨repeated, fun other member => (fresh other member).1⟩, ⟨?_, distinct⟩, ⟨mappable, parts⟩,
          ⟨by omega, deep⟩, by cases field; rfl⟩
        intro again
        obtain ⟨other, member, same⟩ := List.mem_map.mp again
        exact (fresh other member).2 same
      · rintro ⟨fresh, distinct, parts, deep, rfl⟩
        refine ⟨_, ⟨parts.1, by omega, rfl⟩, _, ⟨fun other member => ⟨fresh.2 other member, ?_⟩, distinct.2,
          parts.2, deep.2, rfl⟩, by cases field; rfl⟩
        exact fun same => distinct.1 (List.mem_map.mpr ⟨other, member, same⟩)

/-- Induction on the shape; below an optional layer the claim for the layer
is the claim for what it wraps. -/
theorem typeSpec (shape : TypeShape) : TypeSpec (peelOptional shape).1 := by
  induction shape using TypeShape.induction with
  | primitive primitive =>
    intro path depth dataType within
    rw [peelOptional_of_plain rfl, mapType, mappable_primitive_iff]
    cases known : primitiveType primitive with
    | none => simp
    | some kind => simp [known, arrowType, nesting, within, Contracts.isOptional, eq_comm]
  | optional inner ih =>
    cases inner with
    | optional layer =>
      intro path depth dataType within
      simp [peelOptional, mapType, Contracts.isOptional]
    | _ => exact ih
  | sequence item ih =>
    intro path depth dataType within
    rw [peelOptional_of_plain rfl, mapType, mappable_sequence_iff]
    simp only [Fallible.bind_ok_iff, Fallible.pure_ok_iff, mapField_ok_iff_of ih, nesting]
    constructor
    · rintro ⟨field, ⟨mappable, deep, rfl⟩, rfl⟩
      exact ⟨rfl, mappable, by omega, rfl⟩
    · rintro ⟨_, mappable, deep, rfl⟩
      exact ⟨_, ⟨mappable, by omega, rfl⟩, rfl⟩
  | map key value keyIh valueIh =>
    intro path depth dataType within
    rw [peelOptional_of_plain rfl, mapType, mappable_map_iff]
    by_cases allowed : isMapKey key = true
    · rw [if_neg (by simp [allowed])]
      simp only [Fallible.bind_ok_iff, Fallible.pure_ok_iff, mapField_ok_iff_of keyIh,
        mapField_ok_iff_of valueIh, nesting]
      constructor
      · rintro ⟨_, ⟨keyMappable, keyDeep, rfl⟩, _, ⟨valueMappable, valueDeep, rfl⟩, rfl⟩
        exact ⟨rfl, ⟨allowed, keyMappable, valueMappable⟩, by omega, rfl⟩
      · rintro ⟨_, ⟨_, keyMappable, valueMappable⟩, deep, rfl⟩
        exact ⟨_, ⟨keyMappable, by omega, rfl⟩, _, ⟨valueMappable, by omega, rfl⟩, rfl⟩
    · rw [if_pos (by simpa using allowed)]
      simp [allowed]
  | struct fields ih =>
    intro path depth dataType within
    rw [peelOptional_of_plain rfl, mapType, mappable_struct_iff]
    simp only [Fallible.bind_ok_iff, Fallible.pure_ok_iff, structFields_ok_iff_of ih, nesting]
    have deep_iff : depth + nestingFields fields ≤ maxDepth ↔
        ∀ field ∈ fields, depth + (nesting field.shape + 1) ≤ maxDepth := by
      have below := @nestingFields_le_iff fields (maxDepth - depth)
      rw [show depth + nestingFields fields ≤ maxDepth ↔ nestingFields fields ≤ maxDepth - depth by omega, below]
      exact forall₂_congr fun field _ => by omega
    rw [deep_iff]
    constructor
    · rintro ⟨_, ⟨_, distinct, parts, deep, rfl⟩, rfl⟩
      exact ⟨rfl, ⟨distinct, parts⟩, deep, rfl⟩
    · rintro ⟨_, ⟨distinct, parts⟩, deep, rfl⟩
      exact ⟨_, ⟨fun _ _ => List.not_mem_nil, distinct, parts, deep, rfl⟩, rfl⟩

/-- A shape maps where it is mappable and not too deep, and then to its type. -/
theorem mapField_ok_iff {shape : TypeShape} {field : Field} :
    mapField name shape path depth = .ok field ↔
      Mappable shape ∧ depth + nesting shape ≤ maxDepth ∧ field = arrowField name shape :=
  mapField_ok_iff_of (typeSpec shape)

end Spec

theorem schema_ok_iff {shape : TypeShape} {mapped : Schema} :
    schema shape = .ok mapped ↔ ∃ fields, shape = .struct fields ∧ Mappable shape ∧
      nesting shape ≤ maxDepth ∧ mapped = Schema.new (arrowFields fields) := by
  cases shape with
  | struct fields =>
    simp only [schema, Fallible.bind_ok_iff, Fallible.pure_ok_iff,
      structFields_ok_iff_of fun field _ => typeSpec field.shape, mappable_struct_iff, nesting,
      nestingFields_le_iff, Nat.zero_add, List.map_nil, List.not_mem_nil, not_false_eq_true, implies_true,
      true_and, TypeShape.struct.injEq]
    constructor
    · rintro ⟨_, ⟨distinct, parts, deep, rfl⟩, rfl⟩
      exact ⟨fields, rfl, ⟨distinct, parts⟩, deep, rfl⟩
    · rintro ⟨_, rfl, ⟨distinct, parts⟩, deep, rfl⟩
      exact ⟨_, ⟨distinct, parts, deep, rfl⟩, rfl⟩
  | _ => simp [schema]

theorem standard_arrowType (shape : TypeShape) : (arrowType shape).Standard := by
  induction shape using TypeShape.induction with
  | primitive primitive => exact .leaf _
  | optional inner ih => exact ih
  | sequence item ih => exact .list ih
  | map key value keyIh valueIh =>
    refine .map (.struct ?_)
    simp only [List.forall_mem_cons, List.not_mem_nil, false_imp_iff, implies_true, and_true]
    exact ⟨keyIh, valueIh⟩
  | struct fields ih =>
    rw [arrowType, arrowFields_eq_map]
    refine .struct ?_
    rw [List.forall_mem_map]
    exact ih

/-- Mapped types carry no metadata. -/
theorem plain_arrowType (shape : TypeShape) : (arrowType shape).plain = arrowType shape := by
  induction shape using TypeShape.induction with
  | primitive primitive => rfl
  | optional inner ih => exact ih
  | sequence item ih => rw [arrowType, DataType.plain, Field.plain_eq, Field.new, ih]
  | map key value keyIh valueIh =>
    simp only [arrowType, DataType.plain, Field.plain_eq, Field.new, plainFields, keyIh, valueIh]
  | struct fields ih =>
    rw [arrowType, DataType.plain, plainFields_eq_map, arrowFields_eq_map, List.map_map]
    refine congrArg _ (List.map_congr_left fun field member => ?_)
    rw [Function.comp_apply, Field.plain_eq, arrowField, Field.new, ih field member]

theorem plain_arrowFields (fields : List FieldShape) : (arrowFields fields).map Field.plain = arrowFields fields := by
  have whole := plain_arrowType (.struct fields)
  rwa [arrowType, DataType.plain, DataType.struct.injEq, plainFields_eq_map] at whole

end Datacrate.Arrow
