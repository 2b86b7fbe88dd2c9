import Datacrate.Lib.KeyedList

namespace Datacrate.Contracts

mutual

/-- A structural representation of a type's shape. Optionality is kept at
every level at which it appears. -/
inductive TypeShape where
  | primitive (name : String)
  | optional (inner : TypeShape)
  | sequence (inner : TypeShape)
  | map (key value : TypeShape)
  | struct (fields : List FieldShape)

/-- A field's name and shape within a struct, and whether it was annotated
with a contract default. -/
structure FieldShape where
  name : String
  shape : TypeShape
  hasDefault : Bool

end

deriving instance Repr for TypeShape, FieldShape

/-- How strictly a producer's shape must match a contract's shape. -/
inductive SchemaPolicy where
  | exact
  | exactUnorderedCI
  | exactOrdered
  | exactOrderedCI
  | exactByPosition
  | backward
  | forward
  | full
  deriving DecidableEq, Repr

theorem FieldShape.sizeOf_shape_lt {fields : List FieldShape} {field : FieldShape}
    (member : field ∈ fields) : sizeOf field.shape < sizeOf fields := by
  have smaller := List.sizeOf_lt_of_mem member
  cases field
  simp only [FieldShape.mk.sizeOf_spec] at smaller ⊢
  omega

/-- Induction on shapes in which a struct assumes the claim for each field. -/
@[elab_as_elim]
theorem TypeShape.induction {P : TypeShape → Prop} (primitive : ∀ name, P (.primitive name))
    (optional : ∀ inner, P inner → P (.optional inner))
    (sequence : ∀ inner, P inner → P (.sequence inner))
    (map : ∀ key value, P key → P value → P (.map key value))
    (struct : ∀ fields : List FieldShape, (∀ field ∈ fields, P field.shape) → P (.struct fields))
    (shape : TypeShape) : P shape :=
  @TypeShape.rec P (fun field => P field.shape) (fun fields => ∀ field ∈ fields, P field.shape)
    primitive optional sequence map struct (fun _ _ _ ih => ih)
    (fun _ member => absurd member List.not_mem_nil)
    (fun _ _ head tail => List.forall_mem_cons.mpr ⟨head, tail⟩) shape

def asBytes (text : String) : List UInt8 :=
  text.toByteArray.data.toList

theorem asBytes_injective : Function.Injective asBytes := by
  intro a b same
  exact String.toByteArray_inj.mp (ByteArray.ext (Array.toList_inj.mp same))

/-- The loop shared by both name comparisons: equal lengths, then one byte
at a time. -/
def bytesAgree (same : UInt8 → UInt8 → Bool) (a b : List UInt8) : Bool :=
  a.length == b.length && (a.zip b).all (fun pair => same pair.1 pair.2)

def strEq (a b : String) : Bool :=
  bytesAgree (fun x y => x == y) (asBytes a) (asBytes b)

def toAsciiLower (byte : UInt8) : UInt8 :=
  if 65 ≤ byte ∧ byte ≤ 90 then byte + 32 else byte

def strEqCi (a b : String) : Bool :=
  bytesAgree (fun x y => toAsciiLower x == toAsciiLower y) (asBytes a) (asBytes b)

def namesMatch (ci : Bool) (a b : String) : Bool :=
  if ci then strEqCi a b else strEq a b

/-- The bytes a name is compared by. -/
def nameKey (ci : Bool) (name : String) : List UInt8 :=
  if ci then (asBytes name).map toAsciiLower else asBytes name

theorem bytesAgree_iff_map_eq (norm : UInt8 → UInt8) {a b : List UInt8} :
    bytesAgree (fun x y => norm x == norm y) a b = true ↔ a.map norm = b.map norm := by
  unfold bytesAgree
  induction a generalizing b with
  | nil => cases b <;> simp
  | cons x xs ih =>
    cases b with
    | nil => simp
    | cons y ys =>
      have tail := ih (b := ys)
      simp only [Bool.and_eq_true, beq_iff_eq] at tail
      simp only [List.length_cons, List.zip_cons_cons, List.all_cons, Bool.and_eq_true, beq_iff_eq,
        List.map_cons, List.cons.injEq, Nat.add_right_cancel_iff, ← tail]
      tauto

theorem strEq_iff {a b : String} : strEq a b = true ↔ a = b := by
  have bytes := bytesAgree_iff_map_eq id (a := asBytes a) (b := asBytes b)
  simp only [id_eq, List.map_id] at bytes
  exact bytes.trans asBytes_injective.eq_iff

theorem namesMatch_iff {ci : Bool} {a b : String} :
    namesMatch ci a b = true ↔ nameKey ci a = nameKey ci b := by
  cases ci with
  | true => exact bytesAgree_iff_map_eq toAsciiLower
  | false => exact strEq_iff.trans asBytes_injective.eq_iff.symm

theorem nameKey_false_inj {a b : String} : nameKey false a = nameKey false b ↔ a = b :=
  asBytes_injective.eq_iff

theorem nameKey_congr {ci : Bool} {a b : String} (same : nameKey false a = nameKey false b) :
    nameKey ci a = nameKey ci b := by
  rw [nameKey_false_inj.mp same]

/-- Name-based matching requires a one-to-one correspondence on each side. -/
def duplicateFieldName (fields : List FieldShape) (ci : Bool) : Option String :=
  (KeyedList.firstRepeat (fun a b => namesMatch ci a.name b.name) fields).map (·.name)

def findFieldMode (fields : List FieldShape) (name : String) (ci : Bool) : Option FieldShape :=
  fields.find? (fun field => namesMatch ci field.name name)

def isOptional : TypeShape → Bool
  | .optional _ => true
  | _ => false

mutual

def shapeEq : TypeShape → TypeShape → Bool
  | .primitive x, .primitive y => strEq x y
  | .optional x, .optional y => shapeEq x y
  | .sequence x, .sequence y => shapeEq x y
  | .map k1 v1, .map k2 v2 => shapeEq k1 k2 && shapeEq v1 v2
  | .struct f1, .struct f2 => fieldsEq f1 f2
  | _, _ => false

def fieldsEq : List FieldShape → List FieldShape → Bool
  | [], [] => true
  | ⟨name1, shape1, _⟩ :: rest1, ⟨name2, shape2, _⟩ :: rest2 =>
    strEq name1 name2 && shapeEq shape1 shape2 && fieldsEq rest1 rest2
  | _, _ => false

end

/-- The key of a field under a name comparison. -/
def FieldShape.key (ci : Bool) (field : FieldShape) : List UInt8 :=
  nameKey ci field.name

/-- Field names are distinct under a name comparison. -/
def UniqueNames (ci : Bool) (fields : List FieldShape) : Prop :=
  (fields.map (·.key ci)).Nodup

theorem duplicateFieldName_eq_none_iff {fields : List FieldShape} {ci : Bool} :
    duplicateFieldName fields ci = none ↔ UniqueNames ci fields := by
  have decides : ∀ a b : FieldShape, namesMatch ci a.name b.name = true ↔ a.key ci = b.key ci :=
    fun _ _ => namesMatch_iff
  rw [duplicateFieldName, Option.map_eq_none_iff]
  exact KeyedList.firstRepeat_eq_none_iff_nodup decides

theorem findFieldMode_eq_some_iff {fields : List FieldShape} {ci : Bool} (unique : UniqueNames ci fields)
    {name : String} {field : FieldShape} :
    findFieldMode fields name ci = some field ↔ field ∈ fields ∧ field.key ci = nameKey ci name :=
  KeyedList.find?_eq_some_iff unique (fun _ => namesMatch_iff)

theorem findFieldMode_eq_none_iff {fields : List FieldShape} {ci : Bool} {name : String} :
    findFieldMode fields name ci = none ↔ nameKey ci name ∉ fields.map (·.key ci) :=
  KeyedList.find?_eq_none_iff (fun _ => namesMatch_iff)

mutual

/-- The shape with every contract default forgotten. -/
def TypeShape.eraseDefaults : TypeShape → TypeShape
  | .primitive name => .primitive name
  | .optional inner => .optional inner.eraseDefaults
  | .sequence inner => .sequence inner.eraseDefaults
  | .map key value => .map key.eraseDefaults value.eraseDefaults
  | .struct fields => .struct (eraseFieldDefaults fields)

def eraseFieldDefaults : List FieldShape → List FieldShape
  | [] => []
  | ⟨name, shape, _⟩ :: rest => ⟨name, shape.eraseDefaults, false⟩ :: eraseFieldDefaults rest

end

/-- The comparison of bare shapes is equality up to contract defaults. -/
theorem shapeEq_iff {a b : TypeShape} : shapeEq a b = true ↔ a.eraseDefaults = b.eraseDefaults := by
  induction b using TypeShape.induction generalizing a with
  | primitive name => cases a <;> simp [shapeEq, TypeShape.eraseDefaults, strEq_iff]
  | optional inner ih => cases a <;> simp [shapeEq, TypeShape.eraseDefaults, ih]
  | sequence inner ih => cases a <;> simp [shapeEq, TypeShape.eraseDefaults, ih]
  | map key value keyIh valueIh =>
    cases a <;> simp [shapeEq, TypeShape.eraseDefaults, keyIh, valueIh]
  | struct fields ih =>
    cases a with
    | struct others =>
      simp only [shapeEq, TypeShape.eraseDefaults, TypeShape.struct.injEq]
      induction fields generalizing others with
      | nil => rcases others with _ | ⟨⟨⟩, _⟩ <;> simp [fieldsEq, eraseFieldDefaults]
      | cons field rest restIh =>
        obtain ⟨name, shape, hasDefault⟩ := field
        rw [List.forall_mem_cons] at ih
        rcases others with _ | ⟨⟨⟩, _⟩
        · simp [fieldsEq, eraseFieldDefaults]
        · simp [fieldsEq, eraseFieldDefaults, strEq_iff, ih.1, restIh ih.2]
    | _ => simp [shapeEq, TypeShape.eraseDefaults]

end Datacrate.Contracts
