import Datacrate.Arrow.Validation
import Mathlib.Logic.Relation

namespace Datacrate.Arrow

open Contracts (TypeShape FieldShape isOptional)

/-- What a row of an array stands for. -/
inductive Value (α : Type) where
  | null
  | scalar (cell : α)
  | struct (members : List (Value α))
  | list (items : List (Value α))
  | map (entries : List (Value α × Value α))

section

variable {α : Type}

mutual

/-- The value of a shape that a row of an array denotes, if any. Rows that
are null or out of reach contribute nothing. -/
def valueAt : TypeShape → ArrayData α → Nat → Option (Value α)
  | .primitive _, array, row =>
    match array with
    | .leaf _ cells => cells[row]?.join.map .scalar
    | _ => none
  | .optional inner, array, row => if array.isNull row then some .null else valueAt inner array row
  | .sequence item, array, row =>
    match array with
    | .list validity offsets values =>
      if validity[row]?.any not then none
      else ((offsetRange offsets row).mapM fun index => valueAt item values index).map .list
    | _ => none
  | .map key value, array, row =>
    match array with
    | .map validity offsets (.struct entryValidity [keys, values]) =>
      if validity[row]?.any not then none
      else ((offsetRange offsets row).mapM fun index =>
        if entryValidity[index]?.any not then none
        else (valueAt key keys index).bind fun k => (valueAt value values index).map fun v => (k, v)).map .map
    | _ => none
  | .struct fields, array, row =>
    match array with
    | .struct validity columns =>
      if validity[row]?.any not then none else (membersAt fields columns row).map .struct
    | _ => none

def membersAt : List FieldShape → List (ArrayData α) → Nat → Option (List (Value α))
  | ⟨_, shape, _⟩ :: fields, column :: columns, row =>
    (valueAt shape column row).bind fun member => (membersAt fields columns row).map fun others => member :: others
  | _, _, _ => some []

end

/-- A row of an array read as a shape. -/
structure Position (α : Type) where
  shape : TypeShape
  array : ArrayData α
  row : Nat

/-- The struct that an entry of a map is stored as. -/
def entryShape (key value : TypeShape) : TypeShape :=
  .struct [⟨"key", key, false⟩, ⟨"value", value, false⟩]

/-- The positions right below one that holds no null: the fields of a struct
at the same row, the items of a list and the entries of a map between the
row's offsets. -/
inductive Child : Position α → Position α → Prop
  | member {shape fields validity columns row} {pair : FieldShape × ArrayData α} :
      (peelOptional shape).1 = .struct fields → (ArrayData.struct validity columns).isNull row = false →
      pair ∈ fields.zip columns →
      Child ⟨shape, .struct validity columns, row⟩ ⟨pair.1.shape, pair.2, row⟩
  | item {shape item validity offsets values row index} :
      (peelOptional shape).1 = .sequence item → (ArrayData.list validity offsets values).isNull row = false →
      index ∈ offsetRange offsets row →
      Child ⟨shape, .list validity offsets values, row⟩ ⟨item, values, index⟩
  | entry {shape key value validity offsets entries row index} :
      (peelOptional shape).1 = .map key value → (ArrayData.map validity offsets entries).isNull row = false →
      index ∈ offsetRange offsets row →
      Child ⟨shape, .map validity offsets entries, row⟩ ⟨entryShape key value, entries, index⟩

/-- All the positions above are non-null and reach this one. -/
def Active : Position α → Position α → Prop :=
  Relation.ReflTransGen Child

/-- A null where the shape is not optional. -/
def Position.Violated (position : Position α) : Prop :=
  isOptional position.shape = false ∧ position.array.isNull position.row = true

/-- No active position below this one holds a null it must not hold. -/
def Position.Clean (position : Position α) : Prop :=
  ∀ reached, Active position reached → ¬ reached.Violated

theorem Child.not_null {position child : Position α} (below : Child position child) :
    position.array.isNull position.row = false := by
  cases below <;> assumption

theorem clean_iff {position : Position α} :
    position.Clean ↔ ¬ position.Violated ∧ ∀ child, Child position child → child.Clean := by
  constructor
  · intro clean
    exact ⟨clean position .refl, fun child below reached active => clean reached (.head below active)⟩
  · rintro ⟨here, below⟩ reached active
    rcases Relation.ReflTransGen.cases_head active with rfl | ⟨child, first, rest⟩
    · exact here
    · exact below child first reached rest

/-- Below a required position that holds no null, its children decide. -/
theorem clean_required_iff {position : Position α} (required : isOptional position.shape = false) :
    position.Clean ↔ position.array.isNull position.row = false ∧ ∀ child, Child position child → child.Clean := by
  rw [clean_iff]
  refine and_congr_left fun _ => ?_
  simp [Position.Violated, required]

theorem clean_primitive_iff {primitive : String} {array : ArrayData α} {row : Nat} :
    Position.Clean ⟨.primitive primitive, array, row⟩ ↔ array.isNull row = false := by
  rw [clean_required_iff rfl, and_iff_left]
  intro child below
  cases below <;> simp_all [peelOptional]

theorem clean_optional_iff {inner : TypeShape} (plain : isOptional inner = false) {array : ArrayData α} {row : Nat} :
    Position.Clean ⟨.optional inner, array, row⟩ ↔
      array.isNull row = true ∨ Position.Clean ⟨inner, array, row⟩ := by
  have same : (peelOptional (.optional inner)).1 = (peelOptional inner).1 := by
    rw [peelOptional_of_plain plain, peelOptional]
  have children : ∀ child, Child ⟨.optional inner, array, row⟩ child ↔ Child ⟨inner, array, row⟩ child := by
    intro child
    constructor <;> intro below
    · cases below with
      | member shape present inside => exact .member (same.symm.trans shape) present inside
      | item shape present inside => exact .item (same.symm.trans shape) present inside
      | entry shape present inside => exact .entry (same.symm.trans shape) present inside
    · cases below with
      | member shape present inside => exact .member (same.trans shape) present inside
      | item shape present inside => exact .item (same.trans shape) present inside
      | entry shape present inside => exact .entry (same.trans shape) present inside
  have required : Position.Clean ⟨inner, array, row⟩ ↔ array.isNull row = false ∧
      ∀ child, Child ⟨inner, array, row⟩ child → child.Clean := clean_required_iff plain
  rw [required, clean_iff]
  simp only [children, Position.Violated, isOptional, Bool.true_eq_false, false_and, not_false_eq_true, true_and]
  cases null : array.isNull row with
  | false => simp
  | true =>
    simp only [true_or, iff_true]
    intro child below
    exact absurd (below.not_null.symm.trans null) Bool.noConfusion

section Nested

variable {validity : List Bool} {row : Nat}

theorem clean_struct_iff {fields : List FieldShape} {columns : List (ArrayData α)} :
    Position.Clean ⟨.struct fields, .struct validity columns, row⟩ ↔
      (ArrayData.struct validity columns).isNull row = false ∧
        ∀ pair ∈ fields.zip columns, Position.Clean ⟨pair.1.shape, pair.2, row⟩ := by
  rw [clean_required_iff rfl]
  refine and_congr_right fun present => ⟨fun below pair member => ?_, fun parts child below => ?_⟩
  · exact below _ (.member rfl present member)
  · cases below with
    | member shape _ member =>
      cases shape
      exact parts _ member

theorem clean_sequence_iff {item : TypeShape} {offsets : List Nat} {values : ArrayData α} :
    Position.Clean ⟨.sequence item, .list validity offsets values, row⟩ ↔
      (ArrayData.list validity offsets values).isNull row = false ∧
        ∀ index ∈ offsetRange offsets row, Position.Clean ⟨item, values, index⟩ := by
  rw [clean_required_iff rfl]
  refine and_congr_right fun present => ⟨fun below index member => ?_, fun parts child below => ?_⟩
  · exact below _ (.item rfl present member)
  · cases below with
    | item shape _ member =>
      cases shape
      exact parts _ member

theorem clean_map_iff {key value : TypeShape} {offsets : List Nat} {entries : ArrayData α} :
    Position.Clean ⟨.map key value, .map validity offsets entries, row⟩ ↔
      (ArrayData.map validity offsets entries).isNull row = false ∧
        ∀ index ∈ offsetRange offsets row, Position.Clean ⟨entryShape key value, entries, index⟩ := by
  rw [clean_required_iff rfl]
  refine and_congr_right fun present => ⟨fun below index member => ?_, fun parts child below => ?_⟩
  · exact below _ (.entry rfl present member)
  · cases below with
    | entry shape _ member =>
      cases shape
      exact parts _ member

end Nested

end

end Datacrate.Arrow
