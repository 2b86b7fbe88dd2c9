import Datacrate.Codegen.RoundTrip
import Datacrate.Derive.Mapping

namespace Datacrate.Derive

open Contracts (TypeShape FieldShape)
open Codegen (RustStruct RustField TypeText WellFormed Toolchain structSource contractTypes definition definedNames readText
  renderedShape FieldsUnique Recoverable Legible NamesApart essentialFields)

def standardTypes : List Primitive :=
  [.bool, .char, .str, .string, .i8, .i16, .i32, .i64, .i128, .u8, .u16, .u32, .u64, .u128, .isize, .usize, .f32, .f64]

def Primitive.ofName (name : String) : Option Primitive :=
  standardTypes.find? fun type => type.name == name

section Generated

variable (file : List RustStruct)

/-- A type of a rendered file, as the compiler reads it: a name is that of a
struct of the file where there is one, and no such struct takes an
argument. -/
def generatedType : TypeText → Option RustType
  | .name ident =>
    if (definition file ident).isSome then some (.path ident) else (Primitive.ofName ident).map .primitive
  | .apply ident argument =>
    if (definition file ident).isSome then none
    else if ident = "Option" then (generatedType argument).map .option
    else if ident = "Vec" then (generatedType argument).map .vec
    else none

def generatedField (field : RustField) : Option Field :=
  (generatedType file field.type.text).map fun type => ⟨field.ident, type, []⟩

/-- A struct of a rendered file. The compiler refuses one that repeats a
field, or has one without a type. -/
def generatedInput (item : RustStruct) : DeriveInput where
  ident := item.ident
  generics := []
  data :=
    match item.fields.mapM (generatedField file) with
    | none => .other
    | some fields => if distinct : (fields.map Field.ident).Nodup then .struct fields distinct else .other

/-- The crate that a rendered file is. The compiler refuses a file that is
not well formed or defines a name twice. -/
def generatedCrate : Crate := fun name =>
  if WellFormed file ∧ (definedNames file).Nodup then
    match definition file name with
    | some item => if "Contract" ∈ item.derives then some (.derived (generatedInput file item)) else none
    | none => none
  else none

end Generated

theorem ofName_contractTypes {name : String} (standard : name ∈ contractTypes) :
    ∃ type, Primitive.ofName name = some type ∧ type.name = name := by
  simp only [contractTypes, List.mem_cons, List.not_mem_nil, or_false] at standard
  rcases standard with rfl | rfl | rfl | rfl | rfl | rfl | rfl | rfl | rfl | rfl | rfl | rfl | rfl | rfl | rfl | rfl | rfl | rfl <;>
    exact ⟨_, rfl, rfl⟩

section Reading

variable {file : List RustStruct} {syn : MetaParser}

theorem generatedCrate_of_definition (formed : WellFormed file) (apart : (definedNames file).Nodup)
    {ident : String} {item : RustStruct} (defined : definition file ident = some item) (derives : "Contract" ∈ item.derives) :
    generatedCrate file ident = some (.derived (generatedInput file item)) := by
  rw [generatedCrate, if_pos ⟨formed, apart⟩, defined]
  exact if_pos derives

/-- The fields of a struct resolve where their types do. -/
theorem generatedFields_resolve {depth : Nat} {fields : List RustField} {shapes : List FieldShape}
    (types : ∀ {text : TypeText} {shape : TypeShape}, readText file depth text = some shape →
      ∃ type, generatedType file text = some type ∧ shapeOf syn (generatedCrate file) depth type = some shape)
    (read : List.Forall₂ (fun field made => made.name = field.ident ∧ made.hasDefault = false ∧
      readText file depth field.type.text = some made.shape) fields shapes) :
    ∃ made : List Field, fields.mapM (generatedField file) = some made ∧ made.map Field.ident = fields.map (·.ident) ∧
      (∀ field ∈ made, field.attrs = []) ∧
      List.Forall₂ (fun (field : Field) shaped => shaped.name = field.ident ∧ shaped.hasDefault = false ∧
        shapeOf syn (generatedCrate file) depth field.type = some shaped.shape) made shapes := by
  induction read with
  | nil => exact ⟨[], rfl, rfl, fun _ member => absurd member List.not_mem_nil, .nil⟩
  | @cons field shaped rest others here _ ih =>
    obtain ⟨name, plain, read⟩ := here
    obtain ⟨type, typed, resolved⟩ := types read
    obtain ⟨made, rendered, idents, bare, pairs⟩ := ih
    refine ⟨⟨field.ident, type, []⟩ :: made, ?_, by rw [List.map_cons, List.map_cons, idents],
      List.forall_mem_cons.mpr ⟨rfl, bare⟩, .cons ⟨name, plain, resolved⟩ pairs⟩
    rw [Fallible.mapM_eq_some_iff] at rendered ⊢
    exact .cons (by rw [generatedField, typed, Option.map_some]) rendered

/-- The derive of a rendered struct records its fields without defaults. -/
theorem deriveContract_generated {item : RustStruct} {fields : List Field}
    (made : item.fields.mapM (generatedField file) = some fields) (distinct : (fields.map Field.ident).Nodup)
    (plain : ∀ field ∈ fields, field.attrs = []) :
    deriveContract syn (generatedInput file item) =
      .ok (fields.map fun field => ⟨field.ident, field.type, false⟩) := by
  have data : (generatedInput file item).data = .struct fields distinct := by
    simp only [generatedInput, made, dif_pos distinct]
  refine deriveContract_ok_iff.mpr ⟨rfl, fields, distinct, data, ?_⟩
  rw [List.forall₂_map_right_iff, List.forall₂_same]
  intro field member
  refine ⟨rfl, rfl, ?_⟩
  rw [Marks, plain field member]
  rfl

/-- What the text of a file reads as is what its derives resolve to. The
induction is on the depth; a struct is resolved by its fields. -/
theorem shapeOf_of_readText (formed : WellFormed file) (apart : (definedNames file).Nodup)
    (derive : ∀ item ∈ file, "Contract" ∈ item.derives) {depth : Nat} {text : TypeText} {shape : TypeShape}
    (read : readText file depth text = some shape) :
    ∃ type, generatedType file text = some type ∧ shapeOf syn (generatedCrate file) depth type = some shape := by
  induction depth generalizing text shape with
  | zero => cases read
  | succ depth ih =>
    cases text with
    | name ident =>
      cases defined : definition file ident with
      | none =>
        obtain ⟨standard, rfl⟩ := (Codegen.readText_standard defined).mp read
        obtain ⟨type, named, rfl⟩ := ofName_contractTypes standard
        exact ⟨.primitive type, by simp [generatedType, defined, named], rfl⟩
      | some item =>
        obtain ⟨shapes, rfl, pairs⟩ := (Codegen.readText_struct defined).mp read
        have member := List.mem_of_find?_eq_some defined
        refine ⟨.path ident, by simp [generatedType, defined], ?_⟩
        obtain ⟨fields, made, idents, bare, resolved⟩ := generatedFields_resolve ih pairs
        have derived := @deriveContract_generated file syn item fields made (idents ▸ formed.distinct item member) bare
        rw [shapeOf]
        simp only [generatedCrate_of_definition formed apart defined (derive item member), derived]
        refine Option.bind_eq_some_iff.mpr ⟨shapes, ?_, rfl⟩
        rw [Fallible.mapM_eq_some_iff, List.forall₂_map_left_iff]
        refine resolved.imp ?_
        rintro field ⟨name, shape, hasDefault⟩ ⟨named, plain, found⟩
        dsimp only at named plain found
        subst named plain
        exact Option.bind_eq_some_iff.mpr ⟨shape, found, rfl⟩
    | apply ident argument =>
      rw [readText] at read
      rw [generatedType]
      split at read
      · cases read
      rename_i free
      rw [if_neg free]
      split at read
      · rename_i option
        obtain ⟨inner, found, rfl⟩ := Option.map_eq_some_iff.mp read
        obtain ⟨type, typed, resolved⟩ := ih found
        exact ⟨.option type, by rw [if_pos option, typed, Option.map_some], by rw [shapeOf, resolved, Option.map_some]⟩
      split at read
      · rename_i other vec
        obtain ⟨inner, found, rfl⟩ := Option.map_eq_some_iff.mp read
        obtain ⟨type, typed, resolved⟩ := ih found
        exact ⟨.vec type, by rw [if_neg other, if_pos vec, typed, Option.map_some], by rw [shapeOf, resolved, Option.map_some]⟩
      · cases read

end Reading

/-- The contract that the derive makes of a rendered file, once it compiles,
is that of the schema; and it maps back to the schema exactly where the schema
is recoverable. -/
theorem generated_contract_derives (syn : MetaParser) {tools : Toolchain} {structName : String} {original : Arrow.Schema}
    {file : List RustStruct} (made : structSource tools structName original = .ok file)
    (apart : (file.map (·.ident)).Nodup) (unique : FieldsUnique (.struct original.fields))
    (legible : Legible structName original.fields) :
    (∃ depth, shapeOf syn (generatedCrate file) depth (.path structName) =
      some (renderedShape (.struct original.fields))) ∧
    ∀ depth shape, shapeOf syn (generatedCrate file) depth (.path structName) = some shape →
      ((∃ mapped, Arrow.schema shape = .ok mapped ∧ essentialFields mapped.fields = essentialFields original.fields) ↔
        Recoverable original) := by
  have renders := Codegen.structSource_renders made
  have paths : NamesApart (.struct original.fields) := by
    rw [Codegen.structSource_idents made] at apart
    exact Codegen.namesApart_iff.mpr (List.Nodup.of_map _ apart)
  obtain ⟨distinct, depth, read⟩ := (Codegen.readsAs_structSource made legible.unshadowed _).mpr ⟨paths, rfl⟩
  have formed := (Codegen.wellFormed_structSource_iff made unique).mpr ⟨legible.structs, legible.names⟩
  obtain ⟨type, typed, resolved⟩ := @shapeOf_of_readText file syn formed distinct renders.derives depth _ _ read
  have named : generatedType file (.name structName) = some (.path structName) := by
    obtain ⟨rendered, structs, _, whole⟩ := Codegen.structSource_ok made
    have member : (⟨["Contract", "Connector"], structName, rendered⟩ : RustStruct) ∈ file := by simp [whole]
    rw [generatedType, Codegen.definition_of_mem distinct member rfl]
    rfl
  cases named.symm.trans typed
  refine ⟨⟨depth, resolved⟩, fun other shape found => ?_⟩
  obtain rfl := shapeOf_unique resolved found
  rw [Codegen.renderedShape_maps_iff renders.renderable]
  constructor
  · rintro ⟨items, _, shallow⟩
    exact ⟨items, unique, shallow, paths⟩
  · intro recoverable
    exact ⟨recoverable.items, recoverable.unique, recoverable.shallow⟩

def shippedFile : List RustStruct :=
  [⟨["Contract"], "OrderShipTo", [⟨"city", .option (.primitive "String")⟩]⟩,
    ⟨["Contract", "Connector"], "Order", [⟨"id", .primitive "i64"⟩, ⟨"ship_to", .option (.named "OrderShipTo")⟩]⟩]

/-- The derived contract of the two structs has both. -/
theorem shipped_derives :
    ∃ depth, shapeOf descent (generatedCrate shippedFile) depth (.path "Order") = some (.struct [⟨"id", .primitive "i64", false⟩,
      ⟨"ship_to", .optional (.struct [⟨"city", .optional (.primitive "String"), false⟩]), false⟩]) := by
  obtain ⟨recoverable, legible⟩ := Codegen.shippedSchema_recoverable
  have made : structSource Codegen.lenient "Order" Codegen.shippedSchema = .ok shippedFile := rfl
  exact (generated_contract_derives descent made (by decide) recoverable.unique legible).1

end Datacrate.Derive
