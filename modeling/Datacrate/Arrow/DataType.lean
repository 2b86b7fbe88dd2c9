import Mathlib.Data.List.Basic

namespace Datacrate.Arrow

/-- Types without nested fields. The ones that no contract maps to are kept
by their text. -/
inductive LeafType where
  | boolean
  | int8
  | int16
  | int32
  | int64
  | uInt8
  | uInt16
  | uInt32
  | uInt64
  | float32
  | float64
  | utf8
  | other (text : String)
  deriving DecidableEq, Repr

mutual

inductive DataType where
  | leaf (kind : LeafType)
  | list (item : Field)
  | largeList (item : Field)
  | struct (fields : List Field)
  | map (entries : Field) (sorted : Bool)

/-- A named, typed column or nested position. The metadata is kept in the
order of its keys. -/
structure Field where
  name : String
  dataType : DataType
  nullable : Bool
  metadata : List (String × String)

end

deriving instance Repr for DataType, Field

structure Schema where
  fields : List Field
  metadata : List (String × String)
  deriving Repr

/-- A field without metadata. -/
def Field.new (name : String) (dataType : DataType) (nullable : Bool) : Field where
  name := name
  dataType := dataType
  nullable := nullable
  metadata := []

/-- A schema without metadata. -/
def Schema.new (fields : List Field) : Schema where
  fields := fields
  metadata := []

/-- Induction on types in which a struct assumes the claim for each field. -/
@[elab_as_elim]
theorem DataType.induction {P : DataType → Prop} (leaf : ∀ kind, P (.leaf kind))
    (list : ∀ item : Field, P item.dataType → P (.list item))
    (largeList : ∀ item : Field, P item.dataType → P (.largeList item))
    (struct : ∀ fields : List Field, (∀ field ∈ fields, P field.dataType) → P (.struct fields))
    (map : ∀ (entries : Field) (sorted : Bool), P entries.dataType → P (.map entries sorted))
    (dataType : DataType) : P dataType :=
  @DataType.rec P (fun field => P field.dataType) (fun fields => ∀ field ∈ fields, P field.dataType)
    leaf list largeList struct map (fun _ _ _ _ ih => ih) (fun _ member => absurd member List.not_mem_nil)
    (fun _ _ head tail => List.forall_mem_cons.mpr ⟨head, tail⟩) dataType

mutual

/-- The derived equality of types. -/
def DataType.eq : DataType → DataType → Bool
  | .leaf a, .leaf b => a == b
  | .list a, .list b => a.eq b
  | .largeList a, .largeList b => a.eq b
  | .struct as, .struct bs => fieldsEq as bs
  | .map a sa, .map b sb => a.eq b && sa == sb
  | _, _ => false

/-- The derived equality of fields, metadata included. -/
def Field.eq : Field → Field → Bool
  | ⟨name1, type1, nullable1, metadata1⟩, ⟨name2, type2, nullable2, metadata2⟩ =>
    name1 == name2 && type1.eq type2 && nullable1 == nullable2 && metadata1 == metadata2

def fieldsEq : List Field → List Field → Bool
  | [], [] => true
  | a :: as, b :: bs => a.eq b && fieldsEq as bs
  | _, _ => false

end

mutual

/-- Equality of fields that ignores the metadata of standard nested types. -/
def fieldMatches : Field → Field → Bool
  | ⟨name1, type1, nullable1, _⟩, ⟨name2, type2, nullable2, _⟩ =>
    name1 == name2 && nullable1 == nullable2 && typeMatches type1 type2

def typeMatches : DataType → DataType → Bool
  | .struct as, .struct bs => fieldsMatch as bs
  | .list a, .list b => fieldMatches a b
  | .map a sa, .map b sb => sa == sb && fieldMatches a b
  | a, b => a.eq b

def fieldsMatch : List Field → List Field → Bool
  | [], [] => true
  | a :: as, b :: bs => fieldMatches a b && fieldsMatch as bs
  | _, _ => false

end

mutual

/-- The type with all metadata forgotten. -/
def DataType.plain : DataType → DataType
  | .leaf kind => .leaf kind
  | .list item => .list item.plain
  | .largeList item => .largeList item.plain
  | .struct fields => .struct (plainFields fields)
  | .map entries sorted => .map entries.plain sorted

def Field.plain : Field → Field
  | ⟨name, dataType, nullable, _⟩ => ⟨name, dataType.plain, nullable, []⟩

def plainFields : List Field → List Field
  | [] => []
  | field :: rest => field.plain :: plainFields rest

end

/-- Types built from leaves, lists, structs and maps alone. -/
inductive DataType.Standard : DataType → Prop
  | leaf (kind : LeafType) : Standard (.leaf kind)
  | list {item : Field} : item.dataType.Standard → Standard (.list item)
  | struct {fields : List Field} : (∀ field ∈ fields, field.dataType.Standard) → Standard (.struct fields)
  | map {entries : Field} {sorted : Bool} : entries.dataType.Standard → Standard (.map entries sorted)

theorem Field.eq_iff_of {a b : Field} (types : a.dataType.eq b.dataType = true ↔ a.dataType = b.dataType) :
    a.eq b = true ↔ a = b := by
  obtain ⟨name1, type1, nullable1, metadata1⟩ := a
  obtain ⟨name2, type2, nullable2, metadata2⟩ := b
  simp only [Field.eq, Bool.and_eq_true, beq_iff_eq, types, Field.mk.injEq, and_assoc]

theorem DataType.eq_iff {a b : DataType} : a.eq b = true ↔ a = b := by
  induction a using DataType.induction generalizing b with
  | leaf kind => cases b <;> simp [DataType.eq]
  | list item ih => cases b <;> simp [DataType.eq, Field.eq_iff_of ih]
  | largeList item ih => cases b <;> simp [DataType.eq, Field.eq_iff_of ih]
  | map entries sorted ih => cases b <;> simp [DataType.eq, Field.eq_iff_of ih]
  | struct fields ih =>
    cases b with
    | struct others =>
      simp only [DataType.eq, DataType.struct.injEq]
      induction fields generalizing others with
      | nil => cases others <;> simp [fieldsEq]
      | cons field rest restIh =>
        rw [List.forall_mem_cons] at ih
        cases others <;> simp [fieldsEq, Field.eq_iff_of ih.1, restIh ih.2]
    | _ => simp [DataType.eq]

theorem plainFields_eq_map (fields : List Field) : plainFields fields = fields.map Field.plain := by
  induction fields with
  | nil => rfl
  | cons field rest ih => rw [plainFields, ih, List.map_cons]

theorem Field.plain_eq (field : Field) :
    field.plain = ⟨field.name, field.dataType.plain, field.nullable, []⟩ := by
  cases field
  rfl

theorem fieldMatches_iff_of {a b : Field}
    (types : typeMatches a.dataType b.dataType = true ↔ a.dataType.plain = b.dataType.plain) :
    fieldMatches a b = true ↔ a.plain = b.plain := by
  obtain ⟨name1, type1, nullable1, metadata1⟩ := a
  obtain ⟨name2, type2, nullable2, metadata2⟩ := b
  simp only [fieldMatches, Bool.and_eq_true, beq_iff_eq, types, Field.plain, Field.mk.injEq, and_assoc, and_true]
  exact and_congr_right fun _ => and_comm

/-- Against a standard type, the comparison is equality up to metadata. -/
theorem typeMatches_iff {a : DataType} (standard : a.Standard) {b : DataType} :
    typeMatches a b = true ↔ a.plain = b.plain := by
  induction standard generalizing b with
  | leaf kind => cases b <;> simp [typeMatches, DataType.plain, DataType.eq_iff]
  | list _ ih => cases b <;> simp [typeMatches, DataType.plain, DataType.eq_iff, fieldMatches_iff_of ih]
  | map _ ih =>
    cases b <;> simp [typeMatches, DataType.plain, DataType.eq_iff, fieldMatches_iff_of ih, and_comm]
  | @struct fields _ ih =>
    cases b with
    | struct others =>
      simp only [typeMatches, DataType.plain, DataType.struct.injEq]
      induction fields generalizing others with
      | nil => cases others <;> simp [fieldsMatch, plainFields]
      | cons field rest restIh =>
        rw [List.forall_mem_cons] at ih
        cases others with
        | nil => simp [fieldsMatch, plainFields]
        | cons other others =>
          rename_i parts
          have tail := restIh (List.forall_mem_cons.mp parts).2 ih.2 others
          simp [fieldsMatch, plainFields, fieldMatches_iff_of ih.1, tail]
    | _ => simp [typeMatches, DataType.plain, DataType.eq_iff]

theorem fieldsMatch_iff {as : List Field} (standard : (DataType.struct as).Standard) {bs : List Field} :
    fieldsMatch as bs = true ↔ as.map Field.plain = bs.map Field.plain := by
  have structs := @typeMatches_iff _ standard (.struct bs)
  rwa [typeMatches, DataType.plain, DataType.plain, DataType.struct.injEq, plainFields_eq_map,
    plainFields_eq_map] at structs

end Datacrate.Arrow
