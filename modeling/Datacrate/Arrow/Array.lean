import Datacrate.Arrow.DataType
import Mathlib.Data.List.GetD
import Mathlib.Data.List.Range

namespace Datacrate.Arrow

/-- An array over cells of any kind. A validity bit that is `false` marks a
null; a nested array keeps whatever its null rows hide. -/
inductive ArrayData (α : Type) where
  | leaf (dataType : DataType) (cells : List (Option α))
  | struct (validity : List Bool) (columns : List (ArrayData α))
  | list (validity : List Bool) (offsets : List Nat) (values : ArrayData α)
  | map (validity : List Bool) (offsets : List Nat) (entries : ArrayData α)

section

variable {α : Type}

def ArrayData.length : ArrayData α → Nat
  | .leaf _ cells => cells.length
  | .struct validity _ | .list validity _ _ | .map validity _ _ => validity.length

def ArrayData.isNull : ArrayData α → Nat → Bool
  | .leaf _ cells, row => cells[row]?.any Option.isNone
  | .struct validity _, row | .list validity _ _, row | .map validity _ _, row => validity[row]?.any not

/-- The child rows between a row's offset and the next. -/
def offsetRange (offsets : List Nat) (row : Nat) : List Nat :=
  let start := offsets.getD row 0
  List.range' start (offsets.getD (row + 1) 0 - start)

theorem mem_offsetRange {offsets : List Nat} {row index : Nat} :
    index ∈ offsetRange offsets row ↔ offsets.getD row 0 ≤ index ∧ index < offsets.getD (row + 1) 0 := by
  unfold offsetRange
  rw [List.mem_range'_1]
  omega

/-- Offsets of a number of rows into a child array of some length. -/
structure Offsets (rows values : Nat) (offsets : List Nat) : Prop where
  count : offsets.length = rows + 1
  monotone : offsets.Pairwise (· ≤ ·)
  bounded : ∀ offset ∈ offsets, offset ≤ values

/-- An array of a type: children of the right types and lengths, and offsets
in bounds. Nothing is said of nulls. -/
inductive WellFormed : DataType → ArrayData α → Prop
  | leaf (kind : LeafType) (cells : List (Option α)) : WellFormed (.leaf kind) (.leaf (.leaf kind) cells)
  | largeList (item : Field) (cells : List (Option α)) :
      WellFormed (.largeList item) (.leaf (.largeList item) cells)
  | struct {fields : List Field} {validity : List Bool} {columns : List (ArrayData α)} :
      columns.length = fields.length →
      (∀ pair ∈ fields.zip columns, WellFormed pair.1.dataType pair.2) →
      (∀ column ∈ columns, column.length = validity.length) →
      WellFormed (.struct fields) (.struct validity columns)
  | list {item : Field} {validity : List Bool} {offsets : List Nat} {values : ArrayData α} :
      Offsets validity.length values.length offsets → WellFormed item.dataType values →
      WellFormed (.list item) (.list validity offsets values)
  | map {entries : Field} {sorted : Bool} {validity : List Bool} {offsets : List Nat} {items : ArrayData α} :
      Offsets validity.length items.length offsets → WellFormed entries.dataType items →
      WellFormed (.map entries sorted) (.map validity offsets items)

/-- Columns of one length, each an array of its field's type. -/
structure RecordBatch (α : Type) where
  schema : Schema
  columns : List (ArrayData α)
  numRows : Nat
  columnCount : columns.length = schema.fields.length
  typed : ∀ pair ∈ schema.fields.zip columns, WellFormed pair.1.dataType pair.2
  rows : ∀ column ∈ columns, column.length = numRows

theorem Offsets.lt_of_mem {rows values : Nat} {offsets : List Nat} (fit : Offsets rows values offsets)
    {row : Nat} (within : row < rows) {index : Nat} (member : index ∈ offsetRange offsets row) : index < values := by
  have upper := (mem_offsetRange.mp member).2
  have present : row + 1 < offsets.length := by
    have count := fit.count
    omega
  have last := fit.bounded _ (List.getElem_mem present)
  rw [List.getD_eq_getElem _ _ present] at upper
  omega

end

end Datacrate.Arrow
