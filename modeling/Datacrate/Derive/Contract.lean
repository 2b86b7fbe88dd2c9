import Datacrate.Contracts.Shape
import Datacrate.Derive.Attribute

namespace Datacrate.Derive

open Contracts (TypeShape FieldShape isOptional)

/-- The standard types that have a contract of their own. -/
inductive Primitive where
  | bool | char | str | string
  | i8 | i16 | i32 | i64 | i128
  | u8 | u16 | u32 | u64 | u128
  | isize | usize | f32 | f64
  deriving DecidableEq, Repr

def Primitive.name : Primitive → String
  | .bool => "bool"
  | .char => "char"
  | .str => "str"
  | .string => "String"
  | .i8 => "i8"
  | .i16 => "i16"
  | .i32 => "i32"
  | .i64 => "i64"
  | .i128 => "i128"
  | .u8 => "u8"
  | .u16 => "u16"
  | .u32 => "u32"
  | .u64 => "u64"
  | .u128 => "u128"
  | .isize => "isize"
  | .usize => "usize"
  | .f32 => "f32"
  | .f64 => "f64"

/-- The whitelist of map keys. -/
def Primitive.atomicKey : Primitive → Bool
  | .char | .str | .f32 | .f64 => false
  | _ => true

/-- A type as a field has it. A path names a struct or an alias. -/
inductive RustType where
  | primitive (type : Primitive)
  | reference (mutable : Bool) (referent : RustType)
  | option (inner : RustType)
  | vec (item : RustType)
  | hashMap (key value : RustType)
  | bTreeMap (key value : RustType)
  | path (name : String)
  deriving DecidableEq, Repr

structure Field where
  ident : String
  type : RustType
  attrs : List Attribute
  deriving DecidableEq, Repr

/-- What is declared. The compiler lets no struct have two fields of one
name. -/
inductive Data where
  | struct (fields : List Field) (distinct : (fields.map Field.ident).Nodup)
  | other

structure DeriveInput where
  ident : String
  generics : List String
  data : Data

/-- A field shape whose type is still to be resolved. -/
structure FieldEntry where
  name : String
  type : RustType
  hasDefault : Bool
  deriving DecidableEq, Repr

section Resolution

variable (syn : MetaParser)

def fieldEntry (field : Field) : Except DeriveError FieldEntry := do
  let hasDefault ← hasDefaultAttr syn field.attrs
  return { name := field.ident, type := field.type, hasDefault }

def deriveContract (input : DeriveInput) : Except DeriveError (List FieldEntry) :=
  if input.generics ≠ [] then
    .error (.message ("Contract derive supports only concrete structs; " ++
      "generic parameters and lifetimes are not supported"))
  else match input.data with
    | .other => .error (.message "Contract can only be derived for structs with named fields")
    | .struct fields _ => fields.mapM (fieldEntry syn)

/-- What a path names: an alias, or a struct that derives its contract. -/
inductive Declaration where
  | alias (type : RustType)
  | derived (input : DeriveInput)

abbrev Crate := String → Option Declaration

/-- Whether the compiler finds the key trait for a type, within some number
of aliases. -/
def isAtomicKey (crate : Crate) : Nat → RustType → Bool
  | _, .primitive type => type.atomicKey
  | depth + 1, .path name =>
    match crate name with
    | some (.alias type) => isAtomicKey crate depth type
    | _ => false
  | _, _ => false

/-- The contract shape of a type, found within some depth. A type without a
contract, or one that contains itself, has none at any depth. -/
def shapeOf (crate : Crate) : Nat → RustType → Option TypeShape
  | 0, _ => none
  | depth + 1, type =>
    match type with
    | .primitive type => some (.primitive type.name)
    | .reference _ referent => shapeOf crate depth referent
    | .option inner => (shapeOf crate depth inner).map .optional
    | .vec item => (shapeOf crate depth item).map .sequence
    | .hashMap key value | .bTreeMap key value =>
      if isAtomicKey crate depth key then do
        let key ← shapeOf crate depth key
        let value ← shapeOf crate depth value
        return .map key value
      else none
    | .path name =>
      match crate name with
      | none => none
      | some (.alias type) => shapeOf crate depth type
      | some (.derived input) =>
        match deriveContract syn input with
        | .error _ => none
        | .ok entries => do
          let fields ← entries.mapM fun entry => do
            let shape ← shapeOf crate depth entry.type
            return { name := entry.name, shape, hasDefault := entry.hasDefault : FieldShape }
          return .struct fields

end Resolution

section Derive

variable {syn : MetaParser} {crate : Crate} {depth : Nat} {name : String} {type : RustType}
  {shape : TypeShape} {input : DeriveInput} {entries : List FieldEntry}

theorem fieldEntry_ok_iff {field : Field} {entry : FieldEntry} : fieldEntry syn field = .ok entry ↔
    entry.name = field.ident ∧ entry.type = field.type ∧ Marks syn field.attrs entry.hasDefault := by
  obtain ⟨name, type, hasDefault⟩ := entry
  simp only [fieldEntry, Fallible.bind_ok_iff, Fallible.pure_ok_iff, hasDefaultAttr_ok_iff, FieldEntry.mk.injEq]
  constructor
  · rintro ⟨_, marks, rfl, rfl, rfl⟩
    exact ⟨rfl, rfl, marks⟩
  · rintro ⟨rfl, rfl, marks⟩
    exact ⟨_, marks, rfl, rfl, rfl⟩

theorem fieldEntry_error_iff {field : Field} {failure : DeriveError} : fieldEntry syn field = .error failure ↔
    (∀ marked, ¬ Marks syn field.attrs marked) ∧ hasDefaultAttr syn field.attrs = .error failure := by
  simp only [fieldEntry, Fallible.bind_error_iff, ← hasDefaultAttr_ok_iff]
  cases hasDefaultAttr syn field.attrs <;> simp [pure, Except.pure]

theorem exists_fieldEntry_iff {field : Field} :
    (∃ entry, fieldEntry syn field = .ok entry) ↔ ∃ marked, Marks syn field.attrs marked := by
  simp only [fieldEntry_ok_iff]
  constructor
  · rintro ⟨entry, _, _, marks⟩
    exact ⟨entry.hasDefault, marks⟩
  · rintro ⟨marked, marks⟩
    exact ⟨⟨field.ident, field.type, marked⟩, rfl, rfl, marks⟩

/-- The derive takes concrete structs with named fields whose attributes it
can read, and records of each field its name, its type and its mark. -/
theorem deriveContract_ok_iff : deriveContract syn input = .ok entries ↔
    input.generics = [] ∧ ∃ fields distinct, input.data = .struct fields distinct ∧
      List.Forall₂ (fun field entry => entry.name = field.ident ∧ entry.type = field.type ∧
        Marks syn field.attrs entry.hasDefault) fields entries := by
  unfold deriveContract
  by_cases concrete : input.generics = []
  · rw [if_neg (not_not.mpr concrete)]
    cases input.data with
    | other => simp
    | struct fields distinct =>
      simp only [Fallible.mapM_ok_iff, concrete, true_and, Data.struct.injEq, fieldEntry_ok_iff]
      constructor
      · intro each
        exact ⟨fields, distinct, rfl, each⟩
      · rintro ⟨_, _, rfl, each⟩
        exact each
  · simp [concrete]

/-- A shape of a field of a derived struct. -/
structure FieldShaped (syn : MetaParser) (crate : Crate) (depth : Nat) (field : Field) (made : FieldShape) : Prop where
  name : made.name = field.ident
  shape : shapeOf syn crate depth field.type = some made.shape
  marks : Marks syn field.attrs made.hasDefault

theorem fieldShaped_of {fields : List Field} {shapes : List FieldShape}
    (read : List.Forall₂ (fun (field : Field) entry => entry.name = field.ident ∧ entry.type = field.type ∧
      Marks syn field.attrs entry.hasDefault) fields entries)
    (made : List.Forall₂ (fun entry made => (do
      let shape ← shapeOf syn crate depth entry.type
      return { name := entry.name, shape, hasDefault := entry.hasDefault : FieldShape }) = some made) entries shapes) :
    List.Forall₂ (FieldShaped syn crate depth) fields shapes := by
  induction read generalizing shapes with
  | nil =>
    cases made
    exact .nil
  | @cons field entry fields entries here _ ih =>
    obtain ⟨shape, shapes, first, others, rfl⟩ := List.forall₂_cons_left_iff.mp made
    refine .cons ?_ (ih others)
    rw [Option.bind_eq_bind, Option.bind_eq_some_iff] at first
    obtain ⟨inner, resolved, same⟩ := first
    cases same
    obtain ⟨name, type, marks⟩ := here
    exact ⟨name, type ▸ resolved, marks⟩

/-- The shape of a derived struct has its fields in order. -/
theorem shapeOf_derived (declared : crate name = some (.derived input))
    (resolved : shapeOf syn crate (depth + 1) (.path name) = some shape) :
    ∃ fields distinct shapes, input.data = .struct fields distinct ∧ shape = .struct shapes ∧
      List.Forall₂ (FieldShaped syn crate depth) fields shapes := by
  rw [shapeOf] at resolved
  simp only [declared] at resolved
  cases derived : deriveContract syn input with
  | error failure => simp [derived] at resolved
  | ok entries =>
    simp only [derived, Option.bind_eq_bind, Option.bind_eq_some_iff] at resolved
    obtain ⟨shapes, made, same⟩ := resolved
    cases same
    obtain ⟨_, fields, distinct, data, read⟩ := deriveContract_ok_iff.mp derived
    exact ⟨fields, distinct, shapes, data, rfl, fieldShaped_of read (Fallible.mapM_eq_some_iff.mp made)⟩

/-- Both kinds of maps resolve alike. -/
theorem shapeOf_map {key value : RustType} (resolved : (if isAtomicKey crate depth key then do
      let key ← shapeOf syn crate depth key
      let value ← shapeOf syn crate depth value
      return TypeShape.map key value
    else none) = some shape) :
    ∃ keyShape valueShape, isAtomicKey crate depth key = true ∧ shapeOf syn crate depth key = some keyShape ∧
      shapeOf syn crate depth value = some valueShape ∧ shape = .map keyShape valueShape := by
  by_cases atomic : isAtomicKey crate depth key = true
  · rw [if_pos atomic] at resolved
    simp only [Option.bind_eq_bind, Option.bind_eq_some_iff] at resolved
    obtain ⟨keyShape, foundKey, valueShape, foundValue, same⟩ := resolved
    cases same
    exact ⟨keyShape, valueShape, atomic, foundKey, foundValue, rfl⟩
  · rw [if_neg atomic] at resolved
    cases resolved

/-- A map key is a standard type of the whitelist, by name or by alias. -/
theorem atomic_shape {key : RustType} {aliases : Nat} (atomic : isAtomicKey crate aliases key = true)
    (resolved : shapeOf syn crate depth key = some shape) :
    ∃ type : Primitive, type.atomicKey = true ∧ shape = .primitive type.name := by
  induction aliases generalizing depth key with
  | zero =>
    cases key with
    | primitive type =>
      cases depth with
      | zero => cases resolved
      | succ depth =>
        cases resolved
        exact ⟨type, atomic, rfl⟩
    | _ => simp [isAtomicKey] at atomic
  | succ aliases ih =>
    cases key with
    | primitive type =>
      cases depth with
      | zero => cases resolved
      | succ depth =>
        cases resolved
        exact ⟨type, atomic, rfl⟩
    | path name =>
      cases depth with
      | zero => cases resolved
      | succ depth =>
        rw [isAtomicKey] at atomic
        rw [shapeOf] at resolved
        split at atomic
        · rename_i type named
          simp only [named] at resolved
          exact ih atomic resolved
        · simp at atomic
    | _ => simp [isAtomicKey] at atomic

/-- The derive takes exactly the concrete structs with named fields whose
contract attributes are absent or a single `default`, and records that; in
parentheses that is the word alone, perhaps with a comma. It fails at the
generics, at the form, or at the first field that has others. -/
theorem derive_contract_exact (syn : MetaParser) (input : DeriveInput) :
    (∀ entries, deriveContract syn input = .ok entries ↔ input.generics = [] ∧ ∃ fields distinct,
      input.data = .struct fields distinct ∧ List.Forall₂ (fun field entry => entry.name = field.ident ∧
        entry.type = field.type ∧ Marks syn field.attrs entry.hasDefault) fields entries) ∧
    (∀ failure, deriveContract syn input = .error failure ↔
      (input.generics ≠ [] ∧ failure = .message ("Contract derive supports only concrete structs; " ++
        "generic parameters and lifetimes are not supported")) ∨
      (input.generics = [] ∧ input.data = .other ∧
        failure = .message "Contract can only be derived for structs with named fields") ∨
      (input.generics = [] ∧ ∃ fields distinct before field after, input.data = .struct fields distinct ∧
        fields = before ++ field :: after ∧ (∀ earlier ∈ before, ∃ marked, Marks syn earlier.attrs marked) ∧
        (∀ marked, ¬ Marks syn field.attrs marked) ∧ hasDefaultAttr syn field.attrs = .error failure)) ∧
    (∀ tokens, syn.ReadsDefault (.list .parenthesis tokens) ↔
      tokens = [.ident "default"] ∨ tokens = [.ident "default", .comma]) ∧
    ¬ syn.ReadsDefault .path ∧ ¬ syn.ReadsDefault .nameValue := by
  refine ⟨fun entries => deriveContract_ok_iff, fun failure => ?_, readsDefault_iff syn⟩
  unfold deriveContract
  by_cases concrete : input.generics = []
  · rw [if_neg (not_not.mpr concrete)]
    cases input.data with
    | other => simp [concrete, eq_comm]
    | struct fields distinct =>
      simp only [Fallible.mapM_error_iff, exists_fieldEntry_iff, fieldEntry_error_iff, concrete, ne_eq, not_true_eq_false,
        false_and, false_or, true_and, reduceCtorEq, Data.struct.injEq]
      constructor
      · rintro ⟨before, field, after, split, passed, stops⟩
        exact ⟨fields, distinct, before, field, after, rfl, split, passed, stops⟩
      · rintro ⟨_, _, before, field, after, rfl, split, passed, stops⟩
        exact ⟨before, field, after, split, passed, stops⟩
  · rw [if_pos concrete]
    simp [concrete, eq_comm]

end Derive

section Depth

variable {syn : MetaParser} {crate : Crate} {depth more : Nat} {type : RustType} {shape other : TypeShape}

theorem isAtomicKey_succ (atomic : isAtomicKey crate depth type = true) : isAtomicKey crate (depth + 1) type = true := by
  induction depth generalizing type with
  | zero =>
    cases type with
    | primitive type => exact atomic
    | _ => simp [isAtomicKey] at atomic
  | succ depth ih =>
    cases type with
    | primitive type => exact atomic
    | path name =>
      rw [isAtomicKey] at atomic ⊢
      split at atomic
      · exact ih atomic
      · simp at atomic
    | _ => simp [isAtomicKey] at atomic

/-- A shape found within some depth is found within a greater one. -/
theorem shapeOf_succ (resolved : shapeOf syn crate depth type = some shape) :
    shapeOf syn crate (depth + 1) type = some shape := by
  induction depth generalizing type shape with
  | zero => cases resolved
  | succ depth ih =>
    cases type with
    | primitive type => exact resolved
    | reference mutable referent => exact ih resolved
    | option inner | vec inner =>
      obtain ⟨below, found, rfl⟩ := Option.map_eq_some_iff.mp resolved
      exact Option.map_eq_some_iff.mpr ⟨below, ih found, rfl⟩
    | hashMap key value | bTreeMap key value =>
      obtain ⟨keyShape, valueShape, atomic, foundKey, foundValue, rfl⟩ := shapeOf_map resolved
      rw [shapeOf, if_pos (isAtomicKey_succ atomic), ih foundKey, ih foundValue]
      rfl
    | path name =>
      cases declared : crate name with
      | none => simp [shapeOf, declared] at resolved
      | some declaration =>
        cases declaration with
        | «alias» type =>
          rw [shapeOf] at resolved ⊢
          simp only [declared] at resolved ⊢
          exact ih resolved
        | derived input =>
          rw [shapeOf] at resolved ⊢
          simp only [declared] at resolved ⊢
          cases derived : deriveContract syn input with
          | error failure => simp [derived] at resolved
          | ok entries =>
            simp only [derived, Option.bind_eq_bind, Option.bind_eq_some_iff] at resolved ⊢
            obtain ⟨shapes, made, same⟩ := resolved
            refine ⟨shapes, Fallible.mapM_eq_some_iff.mpr ((Fallible.mapM_eq_some_iff.mp made).imp ?_), same⟩
            intro entry field here
            obtain ⟨inner, found, whole⟩ := Option.bind_eq_some_iff.mp here
            exact Option.bind_eq_some_iff.mpr ⟨inner, ih found, whole⟩

theorem shapeOf_le (resolved : shapeOf syn crate depth type = some shape) (within : depth ≤ more) :
    shapeOf syn crate more type = some shape := by
  induction within with
  | refl => exact resolved
  | step _ ih => exact shapeOf_succ ih

/-- A type has one shape. -/
theorem shapeOf_unique (first : shapeOf syn crate depth type = some shape)
    (second : shapeOf syn crate more type = some other) : shape = other := by
  have left := shapeOf_le first (Nat.le_max_left depth more)
  have right := shapeOf_le second (Nat.le_max_right depth more)
  exact Option.some.inj (left.symm.trans right)

end Depth

end Datacrate.Derive
