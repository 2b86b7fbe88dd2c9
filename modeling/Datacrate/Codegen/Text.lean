import Datacrate.Codegen.Render
import Datacrate.Contracts.Shape
import Datacrate.Lib.Fallible
import Datacrate.Lib.KeyedList

namespace Datacrate.Codegen

open Contracts (TypeShape FieldShape)

/-- The words that name nothing in Rust 2024. -/
def reservedWords : List String :=
  ["abstract", "as", "async", "await", "become", "box", "break", "const", "continue", "crate", "do", "dyn", "else",
    "enum", "extern", "false", "final", "fn", "for", "gen", "if", "impl", "in", "let", "loop", "macro", "match", "mod",
    "move", "mut", "override", "priv", "pub", "ref", "return", "Self", "self", "static", "struct", "super", "trait",
    "true", "try", "type", "typeof", "unsafe", "unsized", "use", "virtual", "where", "while", "yield"]

/-- A reserved word or a lone underscore. -/
def namesNothing (name : String) : Bool :=
  reservedWords.contains name || name == "_"

/-- The standard types with a contract of their own. -/
def contractTypes : List String :=
  ["bool", "char", "str", "String", "i8", "i16", "i32", "i64", "i128", "u8", "u16", "u32", "u64", "u128", "isize", "usize",
    "f32", "f64"]

/-- A type as it stands in the text of a file. Nothing tells a standard name
from that of a generated struct. -/
inductive TypeText where
  | name (ident : String)
  | apply (ident : String) (argument : TypeText)
  deriving DecidableEq, Repr

def RustType.text : RustType → TypeText
  | .primitive name => .name name
  | .named ident => .name ident
  | .option inner => .apply "Option" inner.text
  | .vec inner => .apply "Vec" inner.text

/-- The name of an identifier, which may be a raw one. -/
def bareName (ident : String) : String :=
  match ident.toList with
  | 'r' :: '#' :: rest => String.ofList rest
  | _ => ident

section

variable (file : List RustStruct)

/-- The names that a file defines. -/
def definedNames : List String :=
  file.map fun item => bareName item.ident

/-- The struct that a name stands for in the file, if there is one. -/
def definition (ident : String) : Option RustStruct :=
  file.find? fun item => bareName item.ident == bareName ident

/-- The contract shape that a type of the file is read as, found within some
depth. A struct of the file goes before the standard name that it repeats. -/
def readText : Nat → TypeText → Option TypeShape
  | 0, _ => none
  | depth + 1, .name ident =>
    match definition file ident with
    | some item => (item.fields.mapM fun field =>
        (readText depth field.type.text).map fun shape => ⟨field.ident, shape, false⟩).map .struct
    | none => if ident ∈ contractTypes then some (.primitive ident) else none
  | depth + 1, .apply ident argument =>
    if (definition file ident).isSome then none
    else if ident = "Option" then (readText depth argument).map .optional
    else if ident = "Vec" then (readText depth argument).map .sequence
    else none

/-- The struct of this name reads as this shape, in a file that defines no
name twice. -/
def ReadsAs (ident : String) (shape : TypeShape) : Prop :=
  (definedNames file).Nodup ∧ ∃ depth, readText file depth (.name ident) = some shape

/-- The structs and fields of the file are named by what can name them, and no
struct repeats a field. -/
structure WellFormed : Prop where
  structs : ∀ item ∈ file, namesNothing item.ident = false
  fields : ∀ item ∈ file, ∀ field ∈ item.fields, namesNothing field.ident = false
  distinct : ∀ item ∈ file, (item.fields.map (·.ident)).Nodup

instance : Decidable (WellFormed file) :=
  decidable_of_iff ((∀ item ∈ file, namesNothing item.ident = false) ∧
      (∀ item ∈ file, ∀ field ∈ item.fields, namesNothing field.ident = false) ∧
      ∀ item ∈ file, (item.fields.map (·.ident)).Nodup)
    ⟨fun formed => ⟨formed.1, formed.2.1, formed.2.2⟩, fun formed => ⟨formed.structs, formed.fields, formed.distinct⟩⟩

end

section Reading

variable {file : List RustStruct} {depth more : Nat} {text : TypeText} {shape other : TypeShape} {ident : String}

theorem definition_of_mem (distinct : (definedNames file).Nodup) {item : RustStruct} (member : item ∈ file)
    (named : bareName item.ident = bareName ident) : definition file ident = some item :=
  (KeyedList.find?_eq_some_iff distinct fun _ => beq_iff_eq).mpr ⟨member, named⟩

theorem definition_eq_none_iff : definition file ident = none ↔ bareName ident ∉ definedNames file :=
  KeyedList.find?_eq_none_iff fun _ => beq_iff_eq

theorem readText_struct {item : RustStruct} (defined : definition file ident = some item) :
    readText file (depth + 1) (.name ident) = some shape ↔ ∃ fields, shape = .struct fields ∧
      List.Forall₂ (fun field made => made.name = field.ident ∧ made.hasDefault = false ∧
        readText file depth field.type.text = some made.shape) item.fields fields := by
  rw [readText, defined]
  simp only [Option.map_eq_some_iff, Fallible.mapM_eq_some_iff]
  have same : ∀ (field : RustField) (made : FieldShape),
      (∃ shape, readText file depth field.type.text = some shape ∧ ⟨field.ident, shape, false⟩ = made) ↔
        made.name = field.ident ∧ made.hasDefault = false ∧ readText file depth field.type.text = some made.shape := by
    rintro field ⟨name, shape, hasDefault⟩
    constructor
    · rintro ⟨_, read, made⟩
      cases made
      exact ⟨rfl, rfl, read⟩
    · rintro ⟨rfl, rfl, read⟩
      exact ⟨shape, read, rfl⟩
  simp only [same]
  exact exists_congr fun fields => by rw [and_comm, eq_comm]

theorem readText_standard (free : definition file ident = none) :
    readText file (depth + 1) (.name ident) = some shape ↔ ident ∈ contractTypes ∧ shape = .primitive ident := by
  rw [readText, free]
  simp [eq_comm]

theorem readText_option {argument : TypeText} :
    readText file (depth + 1) (.apply "Option" argument) = some shape ↔ definition file "Option" = none ∧
      ∃ inner, readText file depth argument = some inner ∧ shape = .optional inner := by
  rw [readText]
  cases definition file "Option" with
  | none =>
    rw [if_neg (by simp), if_pos rfl, Option.map_eq_some_iff]
    simp only [true_and, eq_comm (b := shape)]
  | some item => simp

theorem readText_vec {argument : TypeText} :
    readText file (depth + 1) (.apply "Vec" argument) = some shape ↔ definition file "Vec" = none ∧
      ∃ item, readText file depth argument = some item ∧ shape = .sequence item := by
  rw [readText]
  cases definition file "Vec" with
  | none =>
    rw [if_neg (by simp), if_neg (by decide), if_pos rfl, Option.map_eq_some_iff]
    simp only [true_and, eq_comm (b := shape)]
  | some item => simp

/-- What is read within some depth is read within a greater one. -/
theorem readText_succ (read : readText file depth text = some shape) : readText file (depth + 1) text = some shape := by
  induction depth generalizing text shape with
  | zero => cases read
  | succ depth ih =>
    cases text with
    | name ident =>
      cases defined : definition file ident with
      | none => exact (readText_standard defined).mpr ((readText_standard defined).mp read)
      | some item =>
        obtain ⟨fields, rfl, pairs⟩ := (readText_struct defined).mp read
        exact (readText_struct defined).mpr ⟨fields, rfl, pairs.imp fun _ _ pair => ⟨pair.1, pair.2.1, ih pair.2.2⟩⟩
    | apply ident argument =>
      rw [readText] at read ⊢
      split at read
      · cases read
      rename_i free
      rw [if_neg free]
      split at read
      · rename_i option
        obtain ⟨inner, found, rfl⟩ := Option.map_eq_some_iff.mp read
        rw [if_pos option, ih found, Option.map_some]
      split at read
      · rename_i other vec
        obtain ⟨inner, found, rfl⟩ := Option.map_eq_some_iff.mp read
        rw [if_neg other, if_pos vec, ih found, Option.map_some]
      · cases read

theorem readText_le (read : readText file depth text = some shape) (within : depth ≤ more) :
    readText file more text = some shape := by
  induction within with
  | refl => exact read
  | step _ ih => exact readText_succ ih

theorem readText_unique (first : readText file depth text = some shape) (second : readText file more text = some other) :
    shape = other := by
  have left := readText_le first (Nat.le_max_left depth more)
  have right := readText_le second (Nat.le_max_right depth more)
  exact Option.some.inj (left.symm.trans right)

theorem ReadsAs.unique (first : ReadsAs file ident shape) (second : ReadsAs file ident other) : shape = other :=
  have ⟨_, _, left⟩ := first
  have ⟨_, _, right⟩ := second
  readText_unique left right

end Reading

end Datacrate.Codegen
