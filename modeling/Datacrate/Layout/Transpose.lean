import Datacrate.Layout.Batch
import Datacrate.Lib.RowMajor

namespace Datacrate.Layout

open Arrow (PrimitiveArray)
open Buffer (Vec Fits isizeMax)

section

variable {header : Nat}

theorem position_eq_mod (cols : UInt64) (r c : Nat) : position cols r c = (r * cols.toNat + c) % Usize.range := by
  rw [position, UInt64.toNat_add, UInt64.toNat_mul, UInt64.toNat_ofNat', UInt64.toNat_ofNat', Nat.mod_mul_mod,
    ← Nat.add_mod]
  rfl

/-- Without overflow a place is where its row and column say. -/
theorem position_eq {cols : UInt64} {rows r c : Nat} (room : rows * cols.toNat < Usize.range) (row : r < rows)
    (col : c < cols.toNat) : position cols r c = r * cols.toNat + c := by
  rw [position_eq_mod, Nat.mod_eq_of_lt ((RowMajor.index_lt row col).trans room)]

namespace ColumnarBatch

/-- The value of a row in a column, null or not. -/
def entry (batch : ColumnarBatch header) (r c : Nat) : F64 :=
  ((batch.columns.items[c]?).bind fun column => column.value r).getD 0

theorem toNat_cols (batch : ColumnarBatch header) : batch.cols.toNat = batch.columns.items.length :=
  batch.columns.toNat_len

theorem exists_column {batch : ColumnarBatch header} {c : Nat} (col : c < batch.cols.toNat) :
    ∃ column, batch.columns.items[c]? = some column := by
  rw [toNat_cols] at col
  exact ⟨_, List.getElem?_eq_getElem col⟩

theorem length_column {batch : ColumnarBatch header} {c : Nat} {column : Float64Array}
    (place : batch.columns.items[c]? = some column) : column.values.items.length = batch.rows.toNat :=
  len_eq_iff.mp (batch.lengths column (List.mem_of_getElem? place))

theorem value_eq_entry {batch : ColumnarBatch header} {r c : Nat} {column : Float64Array} (row : r < batch.rows.toNat)
    (place : batch.columns.items[c]? = some column) : column.value r = some (batch.entry r c) := by
  rw [entry, place, Option.bind_some, PrimitiveArray.value_eq_some (length_column place ▸ row), Option.getD_some]

/-- The writes of the transposition, in their order. -/
def writes (batch : ColumnarBatch header) : List (F64 × Nat) :=
  RowMajor.flatten batch.rows.toNat batch.cols.toNat fun r c => (batch.entry r c, position batch.cols r c)

theorem toRowMajor_eq_some_iff {batch : ColumnarBatch header} {result : RowBatch} :
    batch.toRowMajor = some result ↔ ∃ zeros, Vec.filled 8 0 (batch.rows * batch.cols).toNat = some zeros ∧
      zeros.write batch.writes = some result.buffer ∧ result.rows = batch.rows ∧ result.cols = batch.cols := by
  have loops : ∀ buffer : Vec 8 F64, (List.range batch.rows.toNat).foldlM
      (fun buffer r => batch.columns.items.zipIdx.foldlM
        (fun buffer entry => (entry.1.value r).bind fun value => buffer.set (position batch.cols r entry.2) value)
        buffer)
      buffer = buffer.write batch.writes := by
    intro buffer
    rw [Vec.write, writes, RowMajor.flatten, Fallible.foldlM_flatMap]
    refine Fallible.foldlM_congr fun r row start => ?_
    rw [List.foldlM_map, toNat_cols, List.range_eq_range', ← List.zipIdx_map_snd 0, List.foldlM_map]
    refine Fallible.foldlM_congr fun place member start => ?_
    rw [value_eq_entry (List.mem_range.mp row) (List.mem_zipIdx_iff_getElem?.mp member), Option.bind_some]
  unfold toRowMajor
  simp only [loops, Option.bind_eq_bind, Option.bind_eq_some_iff, Option.some_inj]
  constructor
  · rintro ⟨zeros, made, filled, written, rfl⟩
    exact ⟨zeros, made, written, rfl, rfl⟩
  · rintro ⟨zeros, made, written, rows, cols⟩
    exact ⟨zeros, made, result.buffer, written, RowBatch.ext rfl rows.symm cols.symm⟩

/-- A product of the counts that overflows leads a write outside. -/
theorem no_overflow_of_write {batch : ColumnarBatch header} {zeros filled : Vec 8 F64}
    (made : Vec.filled 8 0 (batch.rows * batch.cols).toNat = some zeros) (written : zeros.write batch.writes = some filled) :
    batch.rows.toNat * batch.cols.toNat < Usize.range := by
  by_contra overflow
  have length : zeros.items.length = batch.rows.toNat * batch.cols.toNat % Usize.range := by
    rw [Vec.filled_eq_some_iff.mp made, List.length_replicate, UInt64.toNat_mul]
    rfl
  have short : zeros.items.length < Usize.range := length ▸ Nat.mod_lt _ (by decide)
  obtain ⟨r, row, c, col, first⟩ := RowMajor.exists_index (short.trans_le (Nat.le_of_not_lt overflow))
  have member : (batch.entry r c, position batch.cols r c) ∈ batch.writes :=
    List.mem_flatMap.mpr ⟨r, List.mem_range.mpr row, List.mem_map.mpr ⟨c, List.mem_range.mpr col, rfl⟩⟩
  have inside : position batch.cols r c < zeros.items.length := Vec.inside_of_write written _ member
  rw [position_eq_mod, ← first, Nat.mod_eq_of_lt short] at inside
  exact Nat.lt_irrefl _ inside

/-- The rows of a batch, one after the other. -/
def cells (batch : ColumnarBatch header) : List F64 :=
  RowMajor.flatten batch.rows.toNat batch.cols.toNat batch.entry

theorem length_cells (batch : ColumnarBatch header) : batch.cells.length = batch.rows.toNat * batch.cols.toNat :=
  RowMajor.length_flatten _ _ _

theorem writes_eq_zipIdx {batch : ColumnarBatch header} (room : batch.rows.toNat * batch.cols.toNat < Usize.range) :
    batch.writes = batch.cells.zipIdx := by
  rw [cells, ← RowMajor.flatten_zipIdx]
  refine RowMajor.flatten_congr fun r row c col => ?_
  rw [position_eq room row col]

/-- The transposition succeeds exactly when the values are one allocation,
and lays the rows end to end. -/
theorem toRowMajor_spec {batch : ColumnarBatch header} {result : RowBatch} :
    batch.toRowMajor = some result ↔ Fits 8 (batch.rows.toNat * batch.cols.toNat) ∧ result.rows = batch.rows ∧
      result.cols = batch.cols ∧ result.buffer.items = batch.cells := by
  rw [toRowMajor_eq_some_iff]
  constructor
  · rintro ⟨zeros, made, written, rows, cols⟩
    have room := no_overflow_of_write made written
    have size : zeros.items.length = batch.cells.length := by
      rw [Vec.filled_eq_some_iff.mp made, List.length_replicate, UInt64.toNat_mul, length_cells]
      exact Nat.mod_eq_of_lt room
    obtain ⟨filled, same, items⟩ := Vec.write_all size.symm
    rw [← writes_eq_zipIdx room, written] at same
    cases same
    exact ⟨by rw [← length_cells, ← size]; exact zeros.fits, rows, cols, items⟩
  · rintro ⟨fits, rows, cols, items⟩
    have product : (batch.rows * batch.cols).toNat = batch.rows.toNat * batch.cols.toNat := by
      rw [UInt64.toNat_mul]
      exact Nat.mod_eq_of_lt fits.1
    obtain ⟨zeros, made⟩ := Vec.exists_filled (product ▸ fits) (0 : F64)
    have size : batch.cells.length = zeros.items.length := by
      rw [Vec.filled_eq_some_iff.mp made, List.length_replicate, product, length_cells]
    obtain ⟨filled, written, filledItems⟩ := Vec.write_all size
    have same : filled = result.buffer := Vec.ext (filledItems.trans items.symm)
    rw [← writes_eq_zipIdx fits.1, same] at written
    exact ⟨zeros, made, written, rows, cols⟩

theorem exists_toRowMajor {batch : ColumnarBatch header} (fits : Fits 8 (batch.rows.toNat * batch.cols.toNat)) :
    ∃ result, batch.toRowMajor = some result := by
  rw [← length_cells] at fits
  exact ⟨⟨⟨batch.cells, fits⟩, batch.rows, batch.cols⟩, toRowMajor_spec.mpr ⟨length_cells batch ▸ fits, rfl, rfl, rfl⟩⟩

end ColumnarBatch

namespace RowBatch

/-- A buffer of as many values as its counts say. -/
def Sound (batch : RowBatch) : Prop :=
  batch.buffer.items.length = batch.rows.toNat * batch.cols.toNat

variable {batch : RowBatch} {result : ColumnarBatch header}

theorem Sound.room (sound : batch.Sound) : batch.rows.toNat * batch.cols.toNat < Usize.range :=
  sound ▸ batch.buffer.fits.1

/-- Every index of the transposition back is inside the buffer. -/
theorem Sound.inside (sound : batch.Sound) {r c : Nat} (row : r < batch.rows.toNat) (col : c < batch.cols.toNat) :
    position batch.cols r c < batch.buffer.items.length := by
  rw [position_eq sound.room row col, sound]
  exact RowMajor.index_lt row col

theorem Sound.exists_gather (sound : batch.Sound) {c : Nat} (col : c < batch.cols.toNat) :
    ∃ array, batch.gather c = some array := by
  have read : ((List.range batch.rows.toNat).mapM fun r => batch.buffer.items[position batch.cols r c]?).isSome = true :=
    Fallible.mapM_isSome_iff.mpr fun r member => by
      rw [List.getElem?_eq_getElem (sound.inside (List.mem_range.mp member) col)]
      rfl
  obtain ⟨values, given⟩ := Option.isSome_iff_exists.mp read
  have length := (Fallible.mapM_range_eq_some_iff.mp given).1
  have fits : Fits 8 values.length := by
    refine batch.buffer.fits.mono ?_
    rw [length, sound]
    exact Nat.le_mul_of_pos_right _ (by omega)
  refine ⟨.ofVec ⟨values, fits⟩, ?_⟩
  rw [gather, given, Option.bind_eq_bind, Option.bind_some]
  exact fromIterValues_eq_some_iff.mpr ⟨rfl, rfl⟩

theorem Sound.exists_toColumnar (sound : batch.Sound) (fits : Fits header batch.cols.toNat) :
    ∃ result, batch.toColumnar header = some result := by
  have each : ((List.range batch.cols.toNat).mapM batch.gather).isSome = true :=
    Fallible.mapM_isSome_iff.mpr fun c member =>
      Option.isSome_iff_exists.mpr (sound.exists_gather (List.mem_range.mp member))
  obtain ⟨columns, gathered⟩ := Option.isSome_iff_exists.mp each
  have length := (Fallible.mapM_range_eq_some_iff.mp gathered).1
  exact ⟨⟨⟨columns, length ▸ fits⟩, batch.rows, lengths_gathered gathered⟩,
    toColumnar_eq_some_iff.mpr ⟨rfl, Fallible.mapM_range_eq_some_iff.mp gathered⟩⟩

theorem cols_toColumnar (made : batch.toColumnar header = some result) : result.cols = batch.cols := by
  rw [← UInt64.toNat_inj, result.toNat_cols, (toColumnar_eq_some_iff.mp made).2.1]

/-- A column of the transposition holds the values of its places, and no null. -/
theorem column_toColumnar (made : batch.toColumnar header = some result) {c : Nat} {column : Float64Array}
    (place : result.columns.items[c]? = some column) : column.nulls = none ∧
      ∀ r < batch.rows.toNat, batch.buffer.items[position batch.cols r c]? = column.value r := by
  obtain ⟨_, length, given⟩ := toColumnar_eq_some_iff.mp made
  have col : c < batch.cols.toNat := length ▸ (List.getElem?_eq_some_iff.mp place).1
  have gathered := gather_eq_some_iff.mp ((given c col).trans place)
  exact ⟨gathered.1, gathered.2.2⟩

theorem Sound.entry_toColumnar (sound : batch.Sound) (made : batch.toColumnar header = some result) {r c : Nat}
    (row : r < batch.rows.toNat) (col : c < batch.cols.toNat) :
    result.entry r c = batch.buffer.items.getD (r * batch.cols.toNat + c) 0 := by
  obtain ⟨column, place⟩ := ColumnarBatch.exists_column (cols_toColumnar made ▸ col)
  rw [ColumnarBatch.entry, place, Option.bind_some, ← (column_toColumnar made place).2 r row,
    position_eq sound.room row col, List.getD_eq_getElem?_getD]

/-- Transposing back and forth gives the batch again. -/
theorem Sound.round_trip (sound : batch.Sound) (made : batch.toColumnar header = some result) :
    result.toRowMajor = some batch := by
  have rows := (toColumnar_eq_some_iff.mp made).1
  have cols := cols_toColumnar made
  refine ColumnarBatch.toRowMajor_spec.mpr ⟨?_, rows.symm, cols.symm, ?_⟩
  · rw [rows, cols, ← sound]
    exact batch.buffer.fits
  · rw [ColumnarBatch.cells, rows, cols,
      RowMajor.flatten_congr fun r row c col => sound.entry_toColumnar made row col, RowMajor.flatten_getD sound]

theorem tryNew_ok_iff {buffer : Vec 8 F64} {rows cols : UInt64} :
    tryNew buffer rows cols = .ok batch ↔
      buffer.items.length = rows.toNat * cols.toNat % Usize.range ∧ batch = ⟨buffer, rows, cols⟩ := by
  have wraps : buffer.len = rows * cols ↔ buffer.items.length = rows.toNat * cols.toNat % Usize.range := by
    rw [← UInt64.toNat_inj, Vec.toNat_len, UInt64.toNat_mul]
    rfl
  rw [tryNew, ite_not, ← wraps]
  split
  · rename_i equal
    rw [Except.ok.injEq]
    exact ⟨fun same => ⟨equal, same.symm⟩, fun both => both.2.symm⟩
  · rename_i unequal
    exact ⟨fun impossible => (nomatch impossible), fun both => absurd both.1 unequal⟩

end RowBatch

end

end Datacrate.Layout
