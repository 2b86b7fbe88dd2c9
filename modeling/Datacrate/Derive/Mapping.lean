import Datacrate.Arrow.Mapping
import Datacrate.Derive.Contract
import Mathlib.Logic.Relation

namespace Datacrate.Derive

open Contracts (TypeShape FieldShape isOptional)
open Arrow (MappingError Mappable mapField mapType structFields peelOptional primitiveType isMapKey nesting maxDepth)

/-- A type has another in it, through an alias or a derived struct too. -/
inductive Mentions (crate : Crate) : RustType → RustType → Prop
  | reference {mutable type} : Mentions crate (.reference mutable type) type
  | option {type} : Mentions crate (.option type) type
  | vec {type} : Mentions crate (.vec type) type
  | hashKey {key value} : Mentions crate (.hashMap key value) key
  | hashValue {key value} : Mentions crate (.hashMap key value) value
  | bTreeKey {key value} : Mentions crate (.bTreeMap key value) key
  | bTreeValue {key value} : Mentions crate (.bTreeMap key value) value
  | alias {name type} : crate name = some (.alias type) → Mentions crate (.path name) type
  | field {name input fields distinct field} : crate name = some (.derived input) →
      input.data = .struct fields distinct → field ∈ fields → Mentions crate (.path name) field.type

/-- A type is an option behind references and aliases. -/
inductive IsOption (crate : Crate) : RustType → Prop
  | option {inner} : IsOption crate (.option inner)
  | reference {mutable type} : IsOption crate type → IsOption crate (.reference mutable type)
  | alias {name type} : crate name = some (.alias type) → IsOption crate type → IsOption crate (.path name)

/-- Arrow has a representation for the type, as far as the type itself can
tell: a standard type has one of its own, and an option is no option inside. -/
def Physical (crate : Crate) : RustType → Prop
  | .primitive type => (primitiveType type.name).isSome = true
  | .option inner => ¬ IsOption crate inner
  | _ => True

/-- What may be wrong with a derived contract. -/
def Excusable : MappingError → Prop
  | .unsupportedPrimitive _ primitive => primitive ∈ ["char", "i128", "u128", "isize", "usize"]
  | .nestedOptional _ | .depthLimit _ => True
  | .rootNotStruct | .invalidMapKey _ | .duplicateField _ => False

/-- The shapes that contracts derive. -/
inductive Derived : TypeShape → Prop
  | primitive (type : Primitive) : Derived (.primitive type.name)
  | optional {inner} : Derived inner → Derived (.optional inner)
  | sequence {item} : Derived item → Derived (.sequence item)
  | map {key : Primitive} {value} : key.atomicKey = true → Derived value → Derived (.map (.primitive key.name) value)
  | struct {fields : List FieldShape} : (fields.map (·.name)).Nodup → (∀ field ∈ fields, Derived field.shape) →
      Derived (.struct fields)

theorem Primitive.isMapKey_name {type : Primitive} (atomic : type.atomicKey = true) :
    isMapKey (.primitive type.name) = true := by
  cases type <;> first | rfl | cases atomic

theorem Primitive.unsupported {type : Primitive} (missing : primitiveType type.name = none) :
    type.name ∈ ["char", "i128", "u128", "isize", "usize"] := by
  cases type <;> simp [Primitive.name, primitiveType] at missing ⊢

section Resolution

variable {syn : MetaParser} {crate : Crate} {depth : Nat} {name : String} {type : RustType}
  {shape : TypeShape} {input : DeriveInput}

theorem names_of_fieldShaped {fields : List Field} {shapes : List FieldShape}
    (pairs : List.Forall₂ (FieldShaped syn crate depth) fields shapes) :
    shapes.map (·.name) = fields.map Field.ident := by
  induction pairs with
  | nil => rfl
  | cons here _ ih => rw [List.map_cons, List.map_cons, ih, here.name]

/-- What resolves is of the form that contracts derive. -/
theorem derived_of_resolved (resolved : shapeOf syn crate depth type = some shape) : Derived shape := by
  induction depth generalizing type shape with
  | zero => cases resolved
  | succ depth ih =>
    cases type with
    | primitive type =>
      cases resolved
      exact .primitive type
    | reference mutable referent => exact ih resolved
    | option inner =>
      obtain ⟨below, found, rfl⟩ := Option.map_eq_some_iff.mp resolved
      exact .optional (ih found)
    | vec item =>
      obtain ⟨below, found, rfl⟩ := Option.map_eq_some_iff.mp resolved
      exact .sequence (ih found)
    | hashMap key value | bTreeMap key value =>
      obtain ⟨keyShape, valueShape, atomic, foundKey, foundValue, rfl⟩ := shapeOf_map resolved
      obtain ⟨known, allowed, rfl⟩ := atomic_shape atomic foundKey
      exact .map allowed (ih foundValue)
    | path name =>
      cases declared : crate name with
      | none => simp [shapeOf, declared] at resolved
      | some declaration =>
        cases declaration with
        | «alias» type =>
          simp only [shapeOf, declared] at resolved
          exact ih resolved
        | derived input =>
          obtain ⟨fields, distinct, shapes, _, rfl, pairs⟩ := shapeOf_derived declared resolved
          refine .struct (names_of_fieldShaped pairs ▸ distinct) fun made member => ?_
          obtain ⟨field, _, shaped⟩ := Fallible.exists_of_forall₂ pairs member
          exact ih shaped.shape

/-- A shape is optional where its type is an option. -/
theorem isOptional_iff (resolved : shapeOf syn crate depth type = some shape) :
    isOptional shape = true ↔ IsOption crate type := by
  induction depth generalizing type shape with
  | zero => cases resolved
  | succ depth ih =>
    cases type with
    | primitive type =>
      cases resolved
      exact iff_of_false (by simp [isOptional]) (fun option => by cases option)
    | reference mutable referent =>
      rw [ih resolved]
      exact ⟨.reference, fun option => by cases option; assumption⟩
    | option inner =>
      obtain ⟨below, found, rfl⟩ := Option.map_eq_some_iff.mp resolved
      exact iff_of_true rfl .option
    | vec item =>
      obtain ⟨below, found, rfl⟩ := Option.map_eq_some_iff.mp resolved
      exact iff_of_false (by simp [isOptional]) (fun option => by cases option)
    | hashMap key value | bTreeMap key value =>
      obtain ⟨keyShape, valueShape, _, _, _, rfl⟩ := shapeOf_map resolved
      exact iff_of_false (by simp [isOptional]) (fun option => by cases option)
    | path name =>
      cases declared : crate name with
      | none => simp [shapeOf, declared] at resolved
      | some declaration =>
        cases declaration with
        | «alias» type =>
          simp only [shapeOf, declared] at resolved
          rw [ih resolved]
          refine ⟨.alias declared, fun option => ?_⟩
          cases option with
          | «alias» named inner =>
            cases declared.symm.trans named
            exact inner
        | derived input =>
          obtain ⟨fields, distinct, shapes, _, rfl, _⟩ := shapeOf_derived declared resolved
          refine iff_of_false (by simp [isOptional]) fun option => ?_
          cases option with
          | «alias» named _ => cases declared.symm.trans named

/-- Everything that a type reaches has a representation. -/
def Representable (crate : Crate) (type : RustType) : Prop :=
  ∀ inner, Relation.ReflTransGen (Mentions crate) type inner → Physical crate inner

theorem representable_iff :
    Representable crate type ↔ Physical crate type ∧ ∀ inner, Mentions crate type inner → Representable crate inner := by
  constructor
  · intro all
    exact ⟨all type .refl, fun inner mentioned deep reached => all deep (.head mentioned reached)⟩
  · rintro ⟨here, below⟩ inner reached
    rcases reached.cases_head with rfl | ⟨next, mentioned, rest⟩
    · exact here
    · exact below next mentioned inner rest

theorem representable_of_single {inner : RustType} (only : ∀ {other}, Mentions crate type other → other = inner)
    (mentioned : Mentions crate type inner) :
    Representable crate type ↔ Physical crate type ∧ Representable crate inner := by
  rw [representable_iff]
  refine and_congr_right fun _ => ⟨fun all => all inner mentioned, fun below other there => ?_⟩
  rw [only there]
  exact below

theorem representable_map_iff {key value : RustType} (map : type = .hashMap key value ∨ type = .bTreeMap key value) :
    Representable crate type ↔ Representable crate key ∧ Representable crate value := by
  have parts : ∀ inner, Mentions crate type inner ↔ inner = key ∨ inner = value := by
    intro inner
    rcases map with rfl | rfl
    · exact ⟨fun there => by cases there <;> simp, by rintro (rfl | rfl) <;> constructor⟩
    · exact ⟨fun there => by cases there <;> simp, by rintro (rfl | rfl) <;> constructor⟩
  have here : Physical crate type := by rcases map with rfl | rfl <;> trivial
  rw [representable_iff]
  simp only [here, parts, forall_eq_or_imp, forall_eq, true_and]

theorem representable_derived_iff {fields : List Field} {distinct : (fields.map Field.ident).Nodup}
    (declared : crate name = some (.derived input)) (data : input.data = .struct fields distinct) :
    Representable crate (.path name) ↔ ∀ field ∈ fields, Representable crate field.type := by
  rw [representable_iff]
  constructor
  · rintro ⟨_, all⟩ field member
    exact all field.type (.field declared data member)
  · intro all
    refine ⟨trivial, fun other there => ?_⟩
    cases there with
    | «alias» named => cases declared.symm.trans named
    | field named form member =>
      cases declared.symm.trans named
      cases data.symm.trans form
      exact all _ member

/-- The shape of a type maps, but for its depth, where everything that the
type reaches has a representation. -/
theorem mappable_iff_representable (resolved : shapeOf syn crate depth type = some shape) :
    Mappable shape ↔ Representable crate type := by
  induction depth generalizing type shape with
  | zero => cases resolved
  | succ depth ih =>
    cases type with
    | primitive type =>
      cases resolved
      rw [Arrow.mappable_primitive_iff, representable_iff]
      exact ⟨fun known => ⟨known, fun _ mentioned => by cases mentioned⟩, And.left⟩
    | reference mutable referent =>
      rw [ih resolved, representable_of_single (fun there => by cases there; rfl) .reference]
      exact (and_iff_right trivial).symm
    | option inner =>
      obtain ⟨below, found, rfl⟩ := Option.map_eq_some_iff.mp resolved
      rw [Arrow.mappable_optional_iff, ih found, representable_of_single (fun there => by cases there; rfl) .option,
        Physical, ← isOptional_iff found, Bool.not_eq_true]
    | vec item =>
      obtain ⟨below, found, rfl⟩ := Option.map_eq_some_iff.mp resolved
      rw [Arrow.mappable_sequence_iff, ih found, representable_of_single (fun there => by cases there; rfl) .vec]
      exact (and_iff_right trivial).symm
    | hashMap key value | bTreeMap key value =>
      obtain ⟨keyShape, valueShape, atomic, foundKey, foundValue, rfl⟩ := shapeOf_map resolved
      obtain ⟨known, allowed, rfl⟩ := atomic_shape atomic foundKey
      rw [Arrow.mappable_map_iff, and_iff_right (Primitive.isMapKey_name allowed), ih foundKey, ih foundValue]
      exact (representable_map_iff (by simp)).symm
    | path name =>
      cases declared : crate name with
      | none => simp [shapeOf, declared] at resolved
      | some declaration =>
        cases declaration with
        | «alias» type =>
          simp only [shapeOf, declared] at resolved
          have only : ∀ {other}, Mentions crate (.path name) other → other = type := by
            intro other there
            cases there with
            | «alias» named =>
              cases declared.symm.trans named
              rfl
            | field named => cases declared.symm.trans named
          rw [ih resolved, representable_of_single only (.alias declared)]
          exact (and_iff_right trivial).symm
        | derived input =>
          obtain ⟨fields, distinct, shapes, data, rfl, pairs⟩ := shapeOf_derived declared resolved
          rw [Arrow.mappable_struct_iff, representable_derived_iff declared data]
          refine (and_iff_right (names_of_fieldShaped pairs ▸ distinct)).trans ?_
          exact Fallible.forall_transfer pairs fun field made shaped => ih shaped.shape

end Resolution

section Errors

variable {name path : String} {depth : Nat} {shape : TypeShape} {error : MappingError}

/-- What goes wrong with a shape below its optional layer. -/
def Excuses (shape : TypeShape) : Prop :=
  ∀ {path depth error}, mapType shape path depth = .error error → Excusable error

theorem mapField_error (types : Excuses (peelOptional shape).1) (failed : mapField name shape path depth = .error error) :
    Excusable error := by
  rw [mapField] at failed
  split at failed
  · cases failed
    trivial
  · rcases Fallible.bind_error_iff.mp failed with stopped | ⟨_, _, returned⟩
    · exact types stopped
    · cases returned

theorem structFields_error {prior fields : List FieldShape}
    (types : ∀ field ∈ fields, Excuses (peelOptional field.shape).1) (distinct : (fields.map (·.name)).Nodup)
    (fresh : ∀ field ∈ fields, field.name ∉ prior.map (·.name))
    (failed : structFields prior fields path depth = .error error) : Excusable error := by
  induction fields generalizing prior with
  | nil =>
    rw [structFields] at failed
    cases failed
  | cons field rest ih =>
    rw [List.forall_mem_cons] at types fresh
    rw [List.map_cons, List.nodup_cons] at distinct
    rw [structFields] at failed
    rw [if_neg (by rw [Arrow.any_name_iff]; exact fresh.1)] at failed
    rcases Fallible.bind_error_iff.mp failed with stopped | ⟨_, _, later⟩
    · exact mapField_error types.1 stopped
    rcases Fallible.bind_error_iff.mp later with stopped | ⟨_, _, returned⟩
    · refine ih types.2 distinct.2 (fun other member => ?_) stopped
      rw [List.map_append, List.mem_append, not_or]
      refine ⟨fresh.2 other member, fun same => distinct.1 ?_⟩
      rw [List.map_singleton, List.mem_singleton] at same
      exact same ▸ List.mem_map_of_mem member
    · cases returned

theorem excuses_primitive (type : Primitive) : Excuses (peelOptional (.primitive type.name)).1 := by
  intro path depth error failed
  rw [Arrow.peelOptional_of_plain rfl, mapType] at failed
  cases known : primitiveType type.name with
  | none =>
    rw [known] at failed
    cases failed
    exact Primitive.unsupported known
  | some kind =>
    rw [known] at failed
    cases failed

/-- Nothing but an unsupported standard type, an option in an option or the
depth is ever wrong with a derived shape. -/
theorem Derived.excuses (derived : Derived shape) : Excuses (peelOptional shape).1 := by
  induction derived with
  | primitive type => exact excuses_primitive type
  | @optional inner _ ih =>
    cases inner with
    | optional layer =>
      intro path depth error failed
      rw [peelOptional, mapType] at failed
      cases failed
      trivial
    | _ => exact ih
  | sequence _ ih =>
    intro path depth error failed
    rw [Arrow.peelOptional_of_plain rfl, mapType] at failed
    rcases Fallible.bind_error_iff.mp failed with stopped | ⟨_, _, returned⟩
    · exact mapField_error ih stopped
    · cases returned
  | @map key value allowed _ ih =>
    intro path depth error failed
    rw [Arrow.peelOptional_of_plain rfl, mapType, Primitive.isMapKey_name allowed] at failed
    have keys : Excuses (peelOptional (.primitive key.name)).1 := excuses_primitive key
    rcases Fallible.bind_error_iff.mp failed with stopped | ⟨_, _, later⟩
    · exact mapField_error keys stopped
    rcases Fallible.bind_error_iff.mp later with stopped | ⟨_, _, returned⟩
    · exact mapField_error ih stopped
    · cases returned
  | struct distinct _ ih =>
    intro path depth error failed
    rw [Arrow.peelOptional_of_plain rfl, mapType] at failed
    rcases Fallible.bind_error_iff.mp failed with stopped | ⟨_, _, returned⟩
    · exact structFields_error ih distinct (fun _ _ => List.not_mem_nil) stopped
    · cases returned

end Errors

section Contract

variable {syn : MetaParser} {crate : Crate} {depth : Nat} {type inner : RustType} {shape : TypeShape}

/-- What a type with a shape mentions has a shape too, found one level
below. -/
theorem shapeOf_mentioned (mentioned : Mentions crate type inner) (resolved : shapeOf syn crate (depth + 1) type = some shape) :
    ∃ below, shapeOf syn crate depth inner = some below := by
  cases mentioned with
  | reference => exact ⟨shape, resolved⟩
  | option | vec =>
    obtain ⟨below, found, _⟩ := Option.map_eq_some_iff.mp resolved
    exact ⟨below, found⟩
  | hashKey | bTreeKey =>
    obtain ⟨keyShape, _, _, found, _⟩ := shapeOf_map resolved
    exact ⟨keyShape, found⟩
  | hashValue | bTreeValue =>
    obtain ⟨_, valueShape, _, _, found, _⟩ := shapeOf_map resolved
    exact ⟨valueShape, found⟩
  | «alias» named =>
    simp only [shapeOf, named] at resolved
    exact ⟨shape, resolved⟩
  | field declared data member =>
    obtain ⟨fields, distinct, shapes, form, rfl, pairs⟩ := shapeOf_derived declared resolved
    cases data.symm.trans form
    obtain ⟨made, _, shaped⟩ := Fallible.exists_of_forall₂ pairs.flip member
    exact ⟨made.shape, shaped.shape⟩

theorem shapeOf_reached (reached : Relation.TransGen (Mentions crate) type inner)
    (resolved : shapeOf syn crate depth type = some shape) :
    ∃ less < depth, ∃ below, shapeOf syn crate less inner = some below := by
  cases depth with
  | zero => cases resolved
  | succ depth =>
    induction reached with
    | single mentioned =>
      obtain ⟨below, found⟩ := shapeOf_mentioned mentioned resolved
      exact ⟨depth, Nat.lt_succ_self depth, below, found⟩
    | tail _ mentioned ih =>
      obtain ⟨less, lower, below, found⟩ := ih
      cases less with
      | zero => cases found
      | succ less =>
        obtain ⟨further, there⟩ := shapeOf_mentioned mentioned found
        exact ⟨less, by omega, further, there⟩

/-- A type that contains itself has no contract. -/
theorem shapeOf_acyclic (resolved : shapeOf syn crate depth type = some shape) :
    ¬ Relation.TransGen (Mentions crate) type type := by
  intro cycle
  induction depth using Nat.strongRecOn generalizing shape with
  | _ depth ih =>
    obtain ⟨less, lower, below, found⟩ := shapeOf_reached cycle resolved
    exact ih less lower found

theorem arrowFields_of_fieldShaped {fields : List Field} {shapes : List FieldShape}
    (pairs : List.Forall₂ (FieldShaped syn crate depth) fields shapes) :
    List.Forall₂ (fun (field : Field) (arrow : Arrow.Field) => arrow.name = field.ident ∧
      (arrow.nullable = true ↔ IsOption crate field.type)) fields (Arrow.arrowFields shapes) := by
  rw [Arrow.arrowFields_eq_map, List.forall₂_map_right_iff]
  exact pairs.imp fun field made shaped => ⟨shaped.name, isOptional_iff shaped.shape⟩

/-- A derived contract has the struct's fields, each optional or defaulted as
it is declared, and never contains itself. It maps to Arrow, field by field,
exactly where all that it reaches has a representation and it is not too deep;
its keys and its names are never at fault. -/
theorem derived_contract_maps (syn : MetaParser) (crate : Crate) (name : String) (input : DeriveInput) (depth : Nat)
    (shape : TypeShape) (declared : crate name = some (.derived input))
    (resolved : shapeOf syn crate (depth + 1) (.path name) = some shape) :
    (∃ fields distinct shapes, input.data = .struct fields distinct ∧ shape = .struct shapes ∧
      List.Forall₂ (FieldShaped syn crate depth) fields shapes ∧
      ∀ mapped, Arrow.schema shape = .ok mapped →
        List.Forall₂ (fun (field : Field) (arrow : Arrow.Field) => arrow.name = field.ident ∧
          (arrow.nullable = true ↔ IsOption crate field.type)) fields mapped.fields) ∧
    ¬ Relation.TransGen (Mentions crate) (.path name) (.path name) ∧
    ((∃ mapped, Arrow.schema shape = .ok mapped) ↔ Representable crate (.path name) ∧ nesting shape ≤ maxDepth) ∧
    ∀ error, Arrow.schema shape = .error error → Excusable error := by
  obtain ⟨fields, distinct, shapes, data, rfl, pairs⟩ := shapeOf_derived declared resolved
  refine ⟨⟨fields, distinct, shapes, data, rfl, pairs, fun mapped maps => ?_⟩, shapeOf_acyclic resolved, ?_,
    fun error failed => ?_⟩
  · obtain ⟨_, same, _, _, rfl⟩ := Arrow.schema_ok_iff.mp maps
    cases same
    exact arrowFields_of_fieldShaped pairs
  · rw [← mappable_iff_representable resolved]
    constructor
    · rintro ⟨mapped, maps⟩
      obtain ⟨_, _, mappable, within, _⟩ := Arrow.schema_ok_iff.mp maps
      exact ⟨mappable, within⟩
    · rintro ⟨mappable, within⟩
      exact ⟨_, Arrow.schema_ok_iff.mpr ⟨shapes, rfl, mappable, within, rfl⟩⟩
  · have form := derived_of_resolved resolved
    cases form with
    | struct names parts =>
      rw [Arrow.schema] at failed
      rcases Fallible.bind_error_iff.mp failed with stopped | ⟨_, _, returned⟩
      · exact structFields_error (fun field member => (parts field member).excuses) names (fun _ _ => List.not_mem_nil) stopped
      · cases returned

end Contract

/-- An order with a note, and with prices by a named kind of key; its total
has a default. -/
def orderInput : DeriveInput where
  ident := "Order"
  generics := []
  data := .struct [⟨"id", .primitive .u64, []⟩, ⟨"note", .option (.reference false (.primitive .str)), []⟩,
    ⟨"prices", .bTreeMap (.path "Key") (.vec (.primitive .f64)), []⟩,
    ⟨"total", .primitive .f64, [⟨.ofIdent "contract", .list .parenthesis [.ident "default"]⟩]⟩] (by decide)

def orderCrate : Crate
  | "Order" => some (.derived orderInput)
  | "Key" => some (.alias (.primitive .string))
  | _ => none

def orderShape : TypeShape :=
  .struct [⟨"id", .primitive "u64", false⟩, ⟨"note", .optional (.primitive "str"), false⟩,
    ⟨"prices", .map (.primitive "String") (.sequence (.primitive "f64")), false⟩, ⟨"total", .primitive "f64", true⟩]

theorem orderCrate_resolves : shapeOf descent orderCrate 4 (.path "Order") = some orderShape := by
  have marked : hasDefaultAttr descent [⟨.ofIdent "contract", .list .parenthesis [.ident "default"]⟩] = .ok true :=
    hasDefaultAttr_ok_iff.mpr ⟨_, rfl, ((readsDefault_iff descent).1 _).mpr (Or.inl rfl)⟩
  have plain : hasDefaultAttr descent [] = .ok false := rfl
  have derived : deriveContract descent orderInput = .ok [⟨"id", .primitive .u64, false⟩,
      ⟨"note", .option (.reference false (.primitive .str)), false⟩,
      ⟨"prices", .bTreeMap (.path "Key") (.vec (.primitive .f64)), false⟩, ⟨"total", .primitive .f64, true⟩] := by
    simp [deriveContract, fieldEntry, orderInput, marked, plain, bind, Except.bind, pure, Except.pure]
  simp [shapeOf, orderCrate, derived, isAtomicKey, Primitive.atomicKey, Primitive.name, orderShape]

/-- The contract of the order maps, so all that it reaches has a
representation. -/
theorem orderCrate_maps : (∃ mapped, Arrow.schema orderShape = .ok mapped) ∧ Representable orderCrate (.path "Order") := by
  have maps : ∃ mapped, Arrow.schema orderShape = .ok mapped := by
    refine ⟨_, Arrow.schema_ok_iff.mpr ⟨_, rfl, ?_, by decide, rfl⟩⟩
    simp [orderShape, Arrow.mappable_struct_iff, Arrow.mappable_map_iff, Arrow.mappable_optional_iff,
      Arrow.mappable_sequence_iff, Arrow.mappable_primitive_iff, primitiveType, isMapKey, Arrow.mapKeys, isOptional]
  obtain ⟨_, _, exact', _⟩ := derived_contract_maps descent orderCrate "Order" orderInput 3 orderShape rfl orderCrate_resolves
  exact ⟨maps, (exact'.mp maps).1⟩

end Datacrate.Derive
