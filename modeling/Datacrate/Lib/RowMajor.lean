import Mathlib.Data.List.GetD
import Mathlib.Algebra.Order.Ring.Nat

namespace RowMajor

variable {α : Type} {rows cols : Nat}

/-- The entries of a matrix, one row after the other. -/
def flatten (rows cols : Nat) (entry : Nat → Nat → α) : List α :=
  (List.range rows).flatMap fun r => (List.range cols).map (entry r)

theorem flatten_succ (rows cols : Nat) (entry : Nat → Nat → α) :
    flatten (rows + 1) cols entry = flatten rows cols entry ++ (List.range cols).map (entry rows) := by
  rw [flatten, List.range_succ, List.flatMap_append, List.flatMap_singleton]
  rfl

theorem length_flatten (rows cols : Nat) (entry : Nat → Nat → α) : (flatten rows cols entry).length = rows * cols := by
  induction rows with
  | zero => simp [flatten]
  | succ rows ih => rw [flatten_succ, List.length_append, ih, List.length_map, List.length_range, Nat.succ_mul]

theorem flatten_congr {entry other : Nat → Nat → α} (agree : ∀ r < rows, ∀ c < cols, entry r c = other r c) :
    flatten rows cols entry = flatten rows cols other := by
  rw [flatten, flatten, List.flatMap_def, List.flatMap_def]
  refine congrArg List.flatten (List.map_congr_left fun r row => List.map_congr_left fun c col => ?_)
  exact agree r (List.mem_range.mp row) c (List.mem_range.mp col)

theorem index_lt {r c : Nat} (row : r < rows) (col : c < cols) : r * cols + c < rows * cols := by
  have whole : (r + 1) * cols ≤ rows * cols := Nat.mul_le_mul_right cols row
  rw [Nat.succ_mul] at whole
  omega

theorem exists_index {i : Nat} (inside : i < rows * cols) : ∃ r < rows, ∃ c < cols, i = r * cols + c := by
  have positive : 0 < cols := Nat.pos_of_ne_zero fun none => by simp [none] at inside
  refine ⟨i / cols, (Nat.div_lt_iff_lt_mul positive).mpr inside, i % cols, Nat.mod_lt i positive, ?_⟩
  rw [Nat.mul_comm, Nat.div_add_mod]

theorem getElem?_flatten (entry : Nat → Nat → α) {r c : Nat} (row : r < rows) (col : c < cols) :
    (flatten rows cols entry)[r * cols + c]? = some (entry r c) := by
  induction rows with
  | zero => cases row
  | succ rows ih =>
    rw [flatten_succ]
    rcases Nat.lt_or_ge r rows with earlier | last
    · rw [List.getElem?_append_left (by rw [length_flatten]; exact index_lt earlier col), ih earlier]
    · have same : r = rows := by omega
      rw [same, List.getElem?_append_right (by rw [length_flatten]; omega), length_flatten,
        Nat.add_sub_cancel_left, List.getElem?_map, List.getElem?_range col, Option.map_some]

/-- A list of the right length is the matrix of its own entries. -/
theorem flatten_getD {xs : List α} (length : xs.length = rows * cols) (filler : α) :
    flatten rows cols (fun r c => xs.getD (r * cols + c) filler) = xs := by
  refine List.ext_getElem? fun i => ?_
  rcases Nat.lt_or_ge i (rows * cols) with inside | outside
  · obtain ⟨r, row, c, col, rfl⟩ := exists_index inside
    have present : r * cols + c < xs.length := length ▸ inside
    rw [getElem?_flatten _ row col, List.getD_eq_getElem _ _ present, List.getElem?_eq_getElem present]
  · rw [List.getElem?_eq_none (by rw [length_flatten]; exact outside), List.getElem?_eq_none (by omega)]

/-- The entries come in the order of their places. -/
theorem flatten_zipIdx (entry : Nat → Nat → α) :
    flatten rows cols (fun r c => (entry r c, r * cols + c)) = (flatten rows cols entry).zipIdx := by
  refine List.ext_getElem? fun i => ?_
  rw [List.getElem?_zipIdx]
  rcases Nat.lt_or_ge i (rows * cols) with inside | outside
  · obtain ⟨r, row, c, col, rfl⟩ := exists_index inside
    rw [getElem?_flatten _ row col, getElem?_flatten _ row col, Option.map_some, Nat.zero_add]
  · rw [List.getElem?_eq_none (by rw [length_flatten]; exact outside),
      List.getElem?_eq_none (by rw [length_flatten]; exact outside), Option.map_none]

end RowMajor
