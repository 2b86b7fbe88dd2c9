import Datacrate.Arrow.Mapping
import Datacrate.Codegen.Names

namespace Datacrate.Codegen

open Arrow
open Contracts (TypeShape FieldShape isOptional)

mutual

/-- The type up to metadata, item names and offset width. -/
def essential : DataType → DataType
  | .leaf kind => .leaf kind
  | .list ⟨_, itemType, nullable, _⟩ | .largeList ⟨_, itemType, nullable, _⟩ =>
    .list (Field.new "item" (essential itemType) nullable)
  | .struct fields => .struct (essentialFields fields)
  | .map entries sorted => .map entries.plain sorted

def essentialFields : List Field → List Field
  | [] => []
  | ⟨name, dataType, nullable, _⟩ :: rest => Field.new name (essential dataType) nullable :: essentialFields rest

end

/-- The text of the file reads as a contract that maps back to the schema. -/
def RoundTrips (structName : String) (file : List RustStruct) (original : Schema) : Prop :=
  WellFormed file ∧ ∃ shape mapped, ReadsAs file structName shape ∧ Arrow.schema shape = .ok mapped ∧
    essentialFields mapped.fields = essentialFields original.fields

/-- No list holds nullable items, at any depth. -/
inductive ItemsRequired : DataType → Prop
  | leaf (kind : LeafType) : ItemsRequired (.leaf kind)
  | map (entries : Field) (sorted : Bool) : ItemsRequired (.map entries sorted)
  | list {item : Field} : item.nullable = false → ItemsRequired item.dataType → ItemsRequired (.list item)
  | largeList {item : Field} : item.nullable = false → ItemsRequired item.dataType → ItemsRequired (.largeList item)
  | struct {fields : List Field} : (∀ field ∈ fields, ItemsRequired field.dataType) → ItemsRequired (.struct fields)

mutual

/-- How many levels of lists and structs a type has. -/
def levels : DataType → Nat
  | .leaf _ | .map _ _ => 0
  | .list ⟨_, itemType, _, _⟩ | .largeList ⟨_, itemType, _, _⟩ => levels itemType + 1
  | .struct fields => levelsOfFields fields

def levelsOfFields : List Field → Nat
  | [] => 0
  | ⟨_, dataType, _, _⟩ :: rest => max (levels dataType + 1) (levelsOfFields rest)

end

/-- What a schema must be to survive the round trip. -/
structure Recoverable (original : Schema) : Prop where
  items : ItemsRequired (.struct original.fields)
  unique : FieldsUnique (.struct original.fields)
  shallow : levels (.struct original.fields) ≤ maxDepth
  apart : NamesApart (.struct original.fields)

/-- The names of the structs and fields name something, and no struct has a
standard name that the file takes. -/
structure Legible (structName : String) (fields : List Field) : Prop where
  structs : ∀ path ∈ structPaths (.struct fields), namesNothing (structName ++ path) = false
  names : ∀ name ∈ fieldNames (.struct fields), namesNothing name = false
  unshadowed : Unshadowed structName fields

mutual

/-- The shape that the rendered type reads as: the nullability of a list's
items is not rendered. -/
def renderedShape : DataType → TypeShape
  | .leaf kind => .primitive ((rustPrimitive kind).getD "")
  | .list ⟨_, itemType, _, _⟩ | .largeList ⟨_, itemType, _, _⟩ => .sequence (renderedShape itemType)
  | .struct fields => .struct (renderedFields fields)
  | .map _ _ => .primitive ""

def renderedFields : List Field → List FieldShape
  | [] => []
  | ⟨name, dataType, nullable, _⟩ :: rest =>
    ⟨name, if nullable then .optional (renderedShape dataType) else renderedShape dataType, false⟩ :: renderedFields rest

end

theorem essentialFields_eq_map (fields : List Field) :
    essentialFields fields = fields.map fun field => Field.new field.name (essential field.dataType) field.nullable := by
  induction fields with
  | nil => rfl
  | cons field rest ih =>
    cases field
    rw [essentialFields, ih, List.map_cons]

/-- The shape of a rendered field. -/
def renderedField (field : Field) : FieldShape :=
  ⟨field.name, if field.nullable then .optional (renderedShape field.dataType) else renderedShape field.dataType, false⟩

theorem renderedFields_eq_map (fields : List Field) : renderedFields fields = fields.map renderedField := by
  induction fields with
  | nil => rfl
  | cons field rest ih =>
    cases field
    rw [renderedFields, ih, List.map_cons, renderedField]

theorem isOptional_renderedShape (dataType : DataType) : isOptional (renderedShape dataType) = false := by
  cases dataType with
  | list item | largeList item =>
    cases item
    rfl
  | _ => rfl

theorem arrowField_renderedField (field : Field) :
    arrowField (renderedField field).name (renderedField field).shape =
      Field.new field.name (arrowType (renderedShape field.dataType)) field.nullable := by
  obtain ⟨name, dataType, nullable, metadata⟩ := field
  cases nullable with
  | false => simp [renderedField, arrowField, isOptional_renderedShape]
  | true => simp [renderedField, arrowField, arrowType, isOptional]

theorem primitiveType_rustPrimitive {kind : LeafType} {primitive : String}
    (known : rustPrimitive kind = some primitive) : primitiveType primitive = some kind := by
  cases kind <;> cases known <;> rfl

theorem itemsRequired_item_iff {name : String} {dataType : DataType} {nullable : Bool}
    {metadata : List (String × String)} :
    (ItemsRequired (.list ⟨name, dataType, nullable, metadata⟩) ↔ nullable = false ∧ ItemsRequired dataType) ∧
      (ItemsRequired (.largeList ⟨name, dataType, nullable, metadata⟩) ↔
        nullable = false ∧ ItemsRequired dataType) :=
  ⟨⟨fun required => by cases required; constructor <;> assumption, fun parts => .list parts.1 parts.2⟩,
    ⟨fun required => by cases required; constructor <;> assumption, fun parts => .largeList parts.1 parts.2⟩⟩

/-- What is rendered maps back to the type exactly when no list item was
nullable. -/
theorem essential_arrowType_iff {dataType : DataType} (renderable : Renderable dataType) :
    essential (arrowType (renderedShape dataType)) = essential dataType ↔ ItemsRequired dataType := by
  induction renderable with
  | @leaf kind known =>
    obtain ⟨primitive, here⟩ := Option.isSome_iff_exists.mp known
    refine iff_of_true ?_ (.leaf kind)
    rw [renderedShape, here, arrowType, Option.getD_some, primitiveType_rustPrimitive here]
    rfl
  | @list item _ ih | @largeList item _ ih =>
    obtain ⟨name, dataType, nullable, metadata⟩ := item
    simp only [itemsRequired_item_iff, ← ih, renderedShape, arrowType, isOptional_renderedShape, Field.new, essential,
      DataType.list.injEq, Field.mk.injEq, true_and, eq_comm (a := false), and_comm]
  | @struct fields _ ih =>
    have parts : ItemsRequired (.struct fields) ↔ ∀ field ∈ fields, ItemsRequired field.dataType :=
      ⟨fun required => by cases required; assumption, .struct⟩
    rw [parts, renderedShape, arrowType, essential, essential, DataType.struct.injEq, arrowFields_eq_map,
      renderedFields_eq_map, List.map_map, essentialFields_eq_map, essentialFields_eq_map, List.map_map,
      List.map_inj_left]
    refine forall₂_congr fun field member => ?_
    rw [← ih field member, Function.comp_apply, Function.comp_apply, arrowField_renderedField]
    simp [Field.new]

theorem nesting_renderedShape (dataType : DataType) : nesting (renderedShape dataType) = levels dataType := by
  induction dataType using DataType.induction with
  | leaf kind => rfl
  | map entries sorted _ => rfl
  | list item ih | largeList item ih =>
    cases item
    rw [renderedShape, nesting, levels, ih]
  | struct fields ih =>
    rw [renderedShape, nesting, levels]
    induction fields with
    | nil => rfl
    | cons field rest restIh =>
      rw [List.forall_mem_cons] at ih
      obtain ⟨name, inner, nullable, metadata⟩ := field
      rw [renderedFields, nestingFields, levelsOfFields, restIh ih.2]
      cases nullable <;> simp [nesting, ih.1]

theorem mappable_renderedShape_iff {dataType : DataType} (renderable : Renderable dataType) :
    Mappable (renderedShape dataType) ↔ FieldsUnique dataType := by
  induction renderable with
  | @leaf kind known =>
    obtain ⟨primitive, here⟩ := Option.isSome_iff_exists.mp known
    refine iff_of_true ?_ (.leaf kind)
    rw [renderedShape, here, Option.getD_some, mappable_primitive_iff, primitiveType_rustPrimitive here]
    rfl
  | @list item _ ih =>
    cases item
    rw [renderedShape, mappable_sequence_iff, ih]
    exact ⟨.list, fun unique => by cases unique; assumption⟩
  | @largeList item _ ih =>
    cases item
    rw [renderedShape, mappable_sequence_iff, ih]
    exact ⟨.largeList, fun unique => by cases unique; assumption⟩
  | @struct fields _ ih =>
    have parts : FieldsUnique (.struct fields) ↔
        (fields.map (·.name)).Nodup ∧ ∀ field ∈ fields, FieldsUnique field.dataType :=
      ⟨fun unique => by cases unique; constructor <;> assumption, fun parts => .struct parts.1 parts.2⟩
    rw [parts, renderedShape, mappable_struct_iff, renderedFields_eq_map, List.map_map, List.forall_mem_map]
    refine and_congr (iff_of_eq rfl) (forall₂_congr fun field member => ?_)
    rw [← ih field member]
    obtain ⟨name, inner, nullable, metadata⟩ := field
    cases nullable <;> simp [renderedField, mappable_optional_iff, isOptional_renderedShape]

theorem essential_arrowFields_iff {shapes : List FieldShape} {fields : List Field} :
    essentialFields (arrowFields shapes) = essentialFields fields ↔
      List.Forall₂ (fun made field => made.name = field.name ∧ essential (arrowType made.shape) = essential field.dataType ∧
        isOptional made.shape = field.nullable) shapes fields := by
  rw [arrowFields_eq_map, essentialFields_eq_map, essentialFields_eq_map, List.map_map, ← List.forall₂_eq_eq_eq,
    List.forall₂_map_left_iff, List.forall₂_map_right_iff]
  simp [Field.new, arrowField]

section

variable {tools : Toolchain} {file : List RustStruct}

/-- A field is read as this one. -/
def FieldReads (file : List RustStruct) (depth : Nat) (field : RustField) (made : FieldShape) : Prop :=
  made.name = field.ident ∧ made.hasDefault = false ∧ readText file depth field.type.text = some made.shape

/-- In a file with the structs that come with it, a type reads as its shape
where the standard names are free, and what reads as a contract of the type
takes them where they are. -/
structure TypeReads (file : List RustStruct) (dataType : DataType) (type : RustType) : Prop where
  reads : (∀ name ∈ standardNames dataType, definition file name = none) →
    ∃ depth, readText file depth type.text = some (renderedShape dataType)
  free : ∀ depth shape, readText file depth type.text = some shape →
    essential (arrowType shape) = essential dataType → ∀ name ∈ standardNames dataType, definition file name = none

structure FieldsRead (file : List RustStruct) (fields : List Field) (rendered : List RustField) : Prop where
  reads : (∀ name ∈ fieldStandardNames fields, definition file name = none) →
    ∃ depth, List.Forall₂ (FieldReads file depth) rendered (renderedFields fields)
  free : ∀ depth shapes, List.Forall₂ (FieldReads file depth) rendered shapes →
    essentialFields (arrowFields shapes) = essentialFields fields →
    ∀ name ∈ fieldStandardNames fields, definition file name = none

theorem FieldReads.le {depth more : Nat} {field : RustField} {made : FieldShape}
    (reads : FieldReads file depth field made) (within : depth ≤ more) : FieldReads file more field made :=
  ⟨reads.1, reads.2.1, readText_le reads.2.2 within⟩

theorem fieldsTokens_read {fields : List Field}
    (types : ∀ field ∈ fields, ∀ {errorName typeHint type structs},
      fieldTypeTokens tools errorName typeHint field.dataType = .ok (type, structs) → structs ⊆ file →
        TypeReads file field.dataType type)
    {errorPrefix typeHint : String} {rendered : List RustField} {structs : List RustStruct}
    (made : fieldsTokens tools errorPrefix typeHint fields = .ok (rendered, structs)) (inside : structs ⊆ file) :
    FieldsRead file fields rendered := by
  induction fields generalizing rendered structs with
  | nil =>
    cases made
    exact ⟨fun _ => ⟨0, .nil⟩, by simp [fieldStandardNames]⟩
  | cons field rest ih =>
    obtain ⟨name, dataType, nullable, metadata⟩ := field
    rw [List.forall_mem_cons] at types
    obtain ⟨type, own, others, nested, typed, later, rfl, rfl⟩ := fieldsTokens_cons_ok made
    obtain ⟨ownInside, nestedInside⟩ := List.append_subset.mp inside
    have first := types.1 typed ownInside
    have second := ih types.2 later nestedInside
    refine ⟨fun free => ?_, ?_⟩
    · rw [fieldStandardNames, List.forall_mem_append, List.forall_mem_append] at free
      obtain ⟨⟨option, ownFree⟩, restFree⟩ := free
      obtain ⟨depth, here⟩ := first.reads ownFree
      obtain ⟨below, there⟩ := second.reads restFree
      refine ⟨max (depth + 1) below, .cons ⟨rfl, rfl, ?_⟩ (there.imp fun _ _ reads => reads.le (Nat.le_max_right _ _))⟩
      cases nullable with
      | false => exact readText_le here (by omega)
      | true =>
        have whole := readText_option.mpr ⟨option _ (List.mem_singleton.mpr rfl), _, here, rfl⟩
        exact readText_le whole (Nat.le_max_left _ _)
    · intro depth shapes reads same
      cases reads with
      | cons here there =>
        rename_i shape shapes
        obtain ⟨⟨_, types, nullability⟩, restSame⟩ := List.forall₂_cons.mp (essential_arrowFields_iff.mp same)
        rw [fieldStandardNames, List.forall_mem_append, List.forall_mem_append]
        have restFree := second.free depth shapes there (essential_arrowFields_iff.mpr restSame)
        cases nullable with
        | false => exact ⟨⟨by simp, first.free depth shape.shape here.2.2 types⟩, restFree⟩
        | true =>
          cases depth with
          | zero => cases here.2.2
          | succ depth =>
            obtain ⟨free, inner, read, whole⟩ := readText_option.mp here.2.2
            rw [whole] at types
            exact ⟨⟨List.forall_mem_singleton.mpr free, first.free depth inner read types⟩, restFree⟩

theorem TypeReads.list {item : Field} {inner : RustType} (reads : TypeReads file item.dataType inner) :
    TypeReads file (.list item) (.vec inner) ∧ TypeReads file (.largeList item) (.vec inner) := by
  obtain ⟨name, itemType, nullable, metadata⟩ := item
  have forward : (∀ name ∈ "Vec" :: standardNames itemType, definition file name = none) →
      ∃ depth, readText file depth (RustType.vec inner).text = some (.sequence (renderedShape itemType)) := by
    intro free
    rw [List.forall_mem_cons] at free
    obtain ⟨depth, here⟩ := reads.reads free.2
    exact ⟨depth + 1, readText_vec.mpr ⟨free.1, _, here, rfl⟩⟩
  have backward : ∀ depth shape, readText file depth (RustType.vec inner).text = some shape →
      essential (arrowType shape) = .list (Field.new "item" (essential itemType) nullable) →
      ∀ name ∈ "Vec" :: standardNames itemType, definition file name = none := by
    intro depth shape read same
    cases depth with
    | zero => cases read
    | succ depth =>
      obtain ⟨free, item, below, rfl⟩ := readText_vec.mp read
      rw [arrowType, Field.new, essential, DataType.list.injEq, Field.new, Field.new, Field.mk.injEq] at same
      exact List.forall_mem_cons.mpr ⟨free, reads.free depth item below same.2.1⟩
  exact ⟨⟨forward, backward⟩, ⟨forward, backward⟩⟩

/-- A struct that is in the file reads by its definition. -/
theorem FieldsRead.struct {fields : List Field} {item : RustStruct} (distinct : (definedNames file).Nodup)
    (member : item ∈ file) (reads : FieldsRead file fields item.fields) :
    TypeReads file (.struct fields) (.named item.ident) := by
  have defined := definition_of_mem distinct member rfl
  refine ⟨fun free => ?_, fun depth shape read same => ?_⟩
  · obtain ⟨depth, pairs⟩ := reads.reads free
    exact ⟨depth + 1, (readText_struct defined).mpr ⟨_, rfl, pairs⟩⟩
  · cases depth with
    | zero => cases read
    | succ depth =>
      obtain ⟨shapes, rfl, pairs⟩ := (readText_struct defined).mp read
      rw [arrowType, essential, essential, DataType.struct.injEq] at same
      exact reads.free depth shapes pairs same

/-- Induction on the type; a struct is read by its definition. -/
theorem fieldTypeTokens_reads (distinct : (definedNames file).Nodup) (dataType : DataType) :
    ∀ {errorName typeHint type structs}, fieldTypeTokens tools errorName typeHint dataType = .ok (type, structs) →
      structs ⊆ file → TypeReads file dataType type := by
  induction dataType using DataType.induction with
  | leaf kind =>
    intro errorName typeHint type structs made _
    rw [fieldTypeTokens] at made
    split at made
    · rename_i primitive known
      cases made
      have taken : standardNames (.leaf kind) = [primitive] := by rw [standardNames, known]; rfl
      refine ⟨fun free => ⟨1, ?_⟩, fun depth shape read same => ?_⟩
      · rw [taken, List.forall_mem_singleton] at free
        refine (readText_standard free).mpr ⟨rustPrimitive_contractTypes known, ?_⟩
        rw [renderedShape, known, Option.getD_some]
      · rw [taken, List.forall_mem_singleton]
        cases depth with
        | zero => cases read
        | succ depth =>
          cases defined : definition file primitive with
          | none => rfl
          | some item =>
            -- a struct of the file is no leaf
            obtain ⟨fields, rfl, _⟩ := (readText_struct defined).mp read
            cases same
    · cases made
  | map entries sorted _ =>
    intro errorName typeHint type structs made
    cases made
  | list item ih =>
    intro errorName typeHint type structs made inside
    obtain ⟨inner, typed, rfl⟩ := fieldTypeTokens_item_ok (Or.inl made)
    exact (ih typed inside).list.1
  | largeList item ih =>
    intro errorName typeHint type structs made inside
    obtain ⟨inner, typed, rfl⟩ := fieldTypeTokens_item_ok (Or.inr made)
    exact (ih typed inside).list.2
  | struct fields ih =>
    intro errorName typeHint type structs made inside
    obtain ⟨rendered, nested, fieldsMade, rfl, rfl⟩ := fieldTypeTokens_struct_ok made
    obtain ⟨nestedInside, own⟩ := List.append_subset.mp inside
    have parts := fieldsTokens_read (fun field member => ih field member) fieldsMade nestedInside
    exact FieldsRead.struct distinct (own (List.mem_singleton.mpr rfl)) parts

/-- The structs of a schema read as its shape, in any file with them where the
standard names are free. -/
theorem structSource_reads {structName : String} {original : Schema} {structs : List RustStruct}
    (made : structSource tools structName original = .ok structs) (distinct : (definedNames file).Nodup)
    (inside : structs ⊆ file) : TypeReads file (.struct original.fields) (.named structName) := by
  obtain ⟨rendered, nested, fieldsMade, rfl⟩ := structSource_ok made
  obtain ⟨nestedInside, own⟩ := List.append_subset.mp inside
  have parts := fieldsTokens_read (fun field _ => fieldTypeTokens_reads distinct field.dataType) fieldsMade nestedInside
  exact FieldsRead.struct distinct (own (List.mem_singleton.mpr rfl)) parts

/-- A rendered file is well formed exactly when its structs and fields are
named by what can name them. -/
theorem wellFormed_structSource_iff {structName : String} {original : Schema} {structs : List RustStruct}
    (made : structSource tools structName original = .ok structs) (unique : FieldsUnique (.struct original.fields)) :
    WellFormed structs ↔ (∀ path ∈ structPaths (.struct original.fields), namesNothing (structName ++ path) = false) ∧
      ∀ name ∈ fieldNames (.struct original.fields), namesNothing name = false := by
  have renders := structSource_renders made
  have idents : (∀ item ∈ structs, namesNothing item.ident = false) ↔
      ∀ path ∈ structPaths (.struct original.fields), namesNothing (structName ++ path) = false := by
    have names := congrArg (fun idents => ∀ ident ∈ idents, namesNothing ident = false) renders.names
    simpa only [List.forall_mem_map] using iff_of_eq names
  have fields : (∀ item ∈ structs, ∀ field ∈ item.fields, namesNothing field.ident = false) ↔
      ∀ name ∈ fieldNames (.struct original.fields), namesNothing name = false := by
    constructor
    · intro all name member
      obtain ⟨item, itemMem, here⟩ := (renders.columns name).mpr member
      obtain ⟨field, fieldMem, rfl⟩ := List.mem_map.mp here
      exact all item itemMem field fieldMem
    · intro all item itemMem field fieldMem
      exact all _ ((renders.columns _).mp ⟨item, itemMem, List.mem_map_of_mem fieldMem⟩)
  rw [← idents, ← fields]
  exact ⟨fun formed => ⟨formed.structs, formed.fields⟩, fun named => ⟨named.1, named.2, renders.distinct unique⟩⟩

/-- The contract shapes that a rendered file reads as. -/
theorem readsAs_structSource {structName : String} {original : Schema}
    (made : structSource tools structName original = .ok file) (unshadowed : Unshadowed structName original.fields)
    (shape : TypeShape) :
    ReadsAs file structName shape ↔
      NamesApart (.struct original.fields) ∧ shape = renderedShape (.struct original.fields) := by
  have free := (standardNames_free_iff made).mpr unshadowed
  constructor
  · rintro ⟨distinct, depth, read⟩
    obtain ⟨below, whole⟩ := (structSource_reads made distinct (List.Subset.refl _)).reads free
    exact ⟨(definedNames_nodup_iff made).mp distinct, readText_unique read whole⟩
  · rintro ⟨apart, rfl⟩
    have distinct := (definedNames_nodup_iff made).mpr apart
    exact ⟨distinct, (structSource_reads made distinct (List.Subset.refl _)).reads free⟩

/-- The rendered shape of a schema maps back to it exactly where no item was
nullable, no struct repeats a field and the levels are within the limit. -/
theorem renderedShape_maps_iff {original : Schema} (renderable : Renderable (.struct original.fields)) :
    (∃ mapped, Arrow.schema (renderedShape (.struct original.fields)) = .ok mapped ∧
        essentialFields mapped.fields = essentialFields original.fields) ↔
      ItemsRequired (.struct original.fields) ∧ FieldsUnique (.struct original.fields) ∧
        levels (.struct original.fields) ≤ maxDepth := by
  have items := essential_arrowType_iff renderable
  rw [renderedShape, arrowType, essential, essential, DataType.struct.injEq] at items
  have unique := mappable_renderedShape_iff renderable
  have depth := nesting_renderedShape (.struct original.fields)
  constructor
  · rintro ⟨mapped, maps, same⟩
    obtain ⟨fields, equal, mappable, shallow, rfl⟩ := schema_ok_iff.mp maps
    cases equal
    exact ⟨items.mp same, unique.mp mappable, depth ▸ shallow⟩
  · rintro ⟨required, distinct, shallow⟩
    exact ⟨_, schema_ok_iff.mpr ⟨_, rfl, unique.mpr distinct, depth.symm ▸ shallow, rfl⟩, items.mpr required⟩

/-- The text of a rendered schema survives the round trip exactly when the
schema is recoverable and the text legible. -/
theorem roundTrips_iff {structName : String} {original : Schema}
    (made : structSource tools structName original = .ok file) :
    RoundTrips structName file original ↔ Recoverable original ∧ Legible structName original.fields := by
  have renderable := (structSource_renders made).renderable
  have maps := renderedShape_maps_iff renderable
  constructor
  · rintro ⟨formed, shape, mapped, ⟨distinct, depth, read⟩, mapsTo, same⟩
    obtain ⟨shapes, rfl, mappable, shallow, rfl⟩ := schema_ok_iff.mp mapsTo
    have types : essential (arrowType (.struct shapes)) = essential (.struct original.fields) := by
      rw [arrowType, essential, essential]
      exact congrArg _ same
    have free := (structSource_reads made distinct (List.Subset.refl _)).free depth _ read types
    have unshadowed := (standardNames_free_iff made).mp free
    obtain ⟨apart, rendered⟩ := (readsAs_structSource made unshadowed _).mp ⟨distinct, depth, read⟩
    rw [rendered] at mapsTo
    obtain ⟨items, unique, levels⟩ := maps.mp ⟨_, mapsTo, same⟩
    obtain ⟨structs, names⟩ := (wellFormed_structSource_iff made unique).mp formed
    exact ⟨⟨items, unique, levels, apart⟩, ⟨structs, names, unshadowed⟩⟩
  · rintro ⟨recoverable, legible⟩
    obtain ⟨mapped, mapsTo, same⟩ := maps.mpr ⟨recoverable.items, recoverable.unique, recoverable.shallow⟩
    exact ⟨(wellFormed_structSource_iff made recoverable.unique).mpr ⟨legible.structs, legible.names⟩, _, mapped,
      (readsAs_structSource made legible.unshadowed _).mpr ⟨recoverable.apart, rfl⟩, mapsTo, same⟩

/-- A rendered schema survives the round trip exactly when it is recoverable
and its text legible, and such schemas with one file agree in all that is
essential. -/
theorem struct_source_round_trips_iff {structName : String} {original : Schema}
    (made : structSource tools structName original = .ok file) :
    (RoundTrips structName file original ↔ Recoverable original ∧ Legible structName original.fields) ∧
      ∀ otherName other, structSource tools otherName other = .ok file → Recoverable original → Recoverable other →
        Legible structName original.fields → Legible otherName other.fields →
        essentialFields original.fields = essentialFields other.fields := by
  refine ⟨roundTrips_iff made, fun otherName other otherMade recoverable otherRecoverable legible otherLegible => ?_⟩
  obtain ⟨_, shape, mapped, read, maps, same⟩ := (roundTrips_iff made).mpr ⟨recoverable, legible⟩
  obtain ⟨_, otherShape, otherMapped, otherRead, otherMaps, otherSame⟩ :=
    (roundTrips_iff otherMade).mpr ⟨otherRecoverable, otherLegible⟩
  have names : structName = otherName := by
    obtain ⟨_, _, _, whole⟩ := structSource_ok made
    obtain ⟨_, _, _, otherWhole⟩ := structSource_ok otherMade
    have last := (List.append_inj' (whole.symm.trans otherWhole) rfl).2
    simpa using congrArg (List.map (·.ident)) last
  cases names
  cases read.unique otherRead
  cases Except.ok.inj (maps.symm.trans otherMaps)
  exact same.symm.trans otherSame

end

theorem shippedSchema_recoverable : Recoverable shippedSchema ∧ Legible "Order" shippedSchema.fields := by
  refine ⟨⟨.struct ?_, .struct (by decide) ?_, by decide, namesApart_iff.mpr (by decide)⟩, by decide, by decide,
    by unfold Unshadowed; decide⟩
  · simp only [shippedSchema, Schema.new, List.forall_mem_cons, List.not_mem_nil, false_imp_iff, implies_true, and_true]
    exact ⟨.leaf _, .struct (List.forall_mem_singleton.mpr (.leaf _))⟩
  · simp only [shippedSchema, Schema.new, List.forall_mem_cons, List.not_mem_nil, false_imp_iff, implies_true, and_true]
    exact ⟨.leaf _, .struct (by decide) (List.forall_mem_singleton.mpr (.leaf _))⟩

theorem shipped_round_trips :
    RoundTrips "Order" [⟨["Contract"], "OrderShipTo", [⟨"city", .option (.primitive "String")⟩]⟩,
      ⟨["Contract", "Connector"], "Order",
        [⟨"id", .primitive "i64"⟩, ⟨"ship_to", .option (.named "OrderShipTo")⟩]⟩] shippedSchema :=
  (@struct_source_round_trips_iff lenient _ "Order" shippedSchema rfl).1.mpr shippedSchema_recoverable

/-- An optional list of texts that may be null, or may not. -/
def taggedSchema (nullable : Bool) : Schema :=
  Schema.new [Field.new "tags" (.list (Field.new "item" (.leaf .utf8) nullable)) true]

/-- A list of nullable items does not survive, and renders like one of
required items. -/
theorem struct_source_drops_item_nullability :
    (¬ ∀ structName original file, structSource lenient structName original = .ok file →
      RoundTrips structName file original) ∧
    ∃ file, structSource lenient "Tagged" (taggedSchema true) = .ok file ∧
      structSource lenient "Tagged" (taggedSchema false) = .ok file := by
  have rendered : ∀ nullable, structSource lenient "Tagged" (taggedSchema nullable) = .ok
      [⟨["Contract", "Connector"], "Tagged", [⟨"tags", .option (.vec (.primitive "String"))⟩]⟩] := fun _ => rfl
  refine ⟨fun all => ?_, _, rendered true, rendered false⟩
  obtain ⟨⟨items, _, _, _⟩, _⟩ := (roundTrips_iff (rendered true)).mp (all _ _ _ (rendered true))
  cases items with
  | struct parts =>
    cases parts _ (List.mem_singleton.mpr rfl) with
    | list required _ => cases required

end Datacrate.Codegen
