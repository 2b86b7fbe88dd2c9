import Datacrate.Layout.Transpose

namespace Datacrate.Layout

open Arrow (PrimitiveArray)
open Buffer (Vec Fits isizeMax)

section

variable {header : Nat}

namespace ColumnarBatch

/-- The value at a position, null or not. -/
def valueAt (batch : ColumnarBatch header) (c r : Nat) : Option F64 :=
  (batch.columns.items[c]?).bind fun column => column.value r

def isValidAt (batch : ColumnarBatch header) (c r : Nat) : Bool :=
  (batch.columns.items[c]?).any fun column => column.isValid r

/-- The same counts, and at every position the same value and validity. -/
structure Same (batch other : ColumnarBatch header) : Prop where
  rows : other.rows = batch.rows
  cols : other.cols = batch.cols
  value : ∀ c < batch.cols.toNat, ∀ r < batch.rows.toNat, other.valueAt c r = batch.valueAt c r
  valid : ∀ c < batch.cols.toNat, ∀ r < batch.rows.toNat, other.isValidAt c r = batch.isValidAt c r

/-- To row-major layout and back is the same batch. -/
def RoundTrips (batch : ColumnarBatch header) : Prop :=
  ∃ other, (batch.toRowMajor.bind fun rowMajor => rowMajor.toColumnar header) = some other ∧ batch.Same other

variable {batch : ColumnarBatch header}

theorem tryNew_ok {columns : Vec header Float64Array} {rows : UInt64} (accepted : tryNew columns rows = .ok batch) :
    batch.columns = columns ∧ batch.rows = rows := by
  unfold tryNew at accepted
  split at accepted
  · cases accepted
  · cases accepted
    exact ⟨rfl, rfl⟩

theorem valueAt_eq_entry {c r : Nat} (col : c < batch.cols.toNat) (row : r < batch.rows.toNat) :
    batch.valueAt c r = some (batch.entry r c) := by
  obtain ⟨column, place⟩ := exists_column col
  rw [valueAt, place, Option.bind_some, value_eq_entry row place]

theorem sound_of_toRowMajor {rowMajor : RowBatch} (made : batch.toRowMajor = some rowMajor) : rowMajor.Sound := by
  obtain ⟨_, rows, cols, items⟩ := toRowMajor_spec.mp made
  rw [RowBatch.Sound, rows, cols, items]
  exact batch.length_cells

/-- The round trip brings every value back to its position. -/
theorem entry_round_trip {rowMajor : RowBatch} {other : ColumnarBatch header} (made : batch.toRowMajor = some rowMajor)
    (back : rowMajor.toColumnar header = some other) {r c : Nat} (row : r < batch.rows.toNat)
    (col : c < batch.cols.toNat) : other.entry r c = batch.entry r c := by
  obtain ⟨_, rows, cols, items⟩ := toRowMajor_spec.mp made
  rw [(sound_of_toRowMajor made).entry_toColumnar back (rows ▸ row) (cols ▸ col), items, cols,
    List.getD_eq_getElem?_getD, cells, RowMajor.getElem?_flatten _ row col, Option.getD_some]

/-- The way back knows of no null. -/
theorem valid_of_toColumnar {rowMajor : RowBatch} {other : ColumnarBatch header}
    (back : rowMajor.toColumnar header = some other) {c : Nat} (col : c < other.cols.toNat) (r : Nat) :
    other.isValidAt c r = true := by
  obtain ⟨column, place⟩ := exists_column col
  rw [isValidAt, place, Option.any_some, PrimitiveArray.isValid, (RowBatch.column_toColumnar back place).1]
  rfl

theorem nullCount_eq_zero_iff_valid : (∀ column ∈ batch.columns.items, column.nullCount = 0) ↔
    ∀ c < batch.cols.toNat, ∀ r < batch.rows.toNat, batch.isValidAt c r = true := by
  simp only [PrimitiveArray.nullCount_eq_zero_iff]
  constructor
  · intro valid c col r row
    obtain ⟨column, place⟩ := exists_column col
    rw [isValidAt, place, Option.any_some]
    exact valid column (List.mem_of_getElem? place) r (length_column place ▸ row)
  · intro valid column member r inside
    obtain ⟨c, place⟩ := List.getElem?_of_mem member
    have col : c < batch.cols.toNat := batch.toNat_cols ▸ (List.getElem?_eq_some_iff.mp place).1
    have shown := valid c col r (length_column place ▸ inside)
    rwa [isValidAt, place, Option.any_some] at shown

/-- A batch with a null comes back without it. -/
theorem RoundTrips.noNull (trip : batch.RoundTrips) : ∀ column ∈ batch.columns.items, column.nullCount = 0 := by
  obtain ⟨other, there, same⟩ := trip
  obtain ⟨rowMajor, _, back⟩ := Option.bind_eq_some_iff.mp there
  refine nullCount_eq_zero_iff_valid.mpr fun c col r row => ?_
  rw [← same.valid c col r row]
  exact valid_of_toColumnar back (same.cols ▸ col) r

theorem RoundTrips.fits (trip : batch.RoundTrips) : Fits 8 (batch.rows.toNat * batch.cols.toNat) := by
  obtain ⟨_, there, _⟩ := trip
  obtain ⟨_, made, _⟩ := Option.bind_eq_some_iff.mp there
  exact (toRowMajor_spec.mp made).1

theorem roundTrips_of_noNull (noNull : ∀ column ∈ batch.columns.items, column.nullCount = 0)
    (fits : Fits 8 (batch.rows.toNat * batch.cols.toNat)) : batch.RoundTrips := by
  obtain ⟨rowMajor, made⟩ := exists_toRowMajor fits
  obtain ⟨_, rows, cols, _⟩ := toRowMajor_spec.mp made
  have columns : Fits header rowMajor.cols.toNat := by
    rw [cols, toNat_cols]
    exact batch.columns.fits
  obtain ⟨other, back⟩ := (sound_of_toRowMajor made).exists_toColumnar columns
  have sameRows : other.rows = batch.rows := (RowBatch.toColumnar_eq_some_iff.mp back).1.trans rows
  have sameCols : other.cols = batch.cols := (RowBatch.cols_toColumnar back).trans cols
  refine ⟨other, Option.bind_eq_some_iff.mpr ⟨rowMajor, made, back⟩, sameRows, sameCols, fun c col r row => ?_,
    fun c col r row => ?_⟩
  · rw [valueAt_eq_entry (sameCols ▸ col) (sameRows ▸ row), valueAt_eq_entry col row, entry_round_trip made back row col]
  · rw [valid_of_toColumnar back (sameCols ▸ col) r, nullCount_eq_zero_iff_valid.mp noNull c col r row]

end ColumnarBatch

/-- An accepted batch comes back from row-major layout as it was exactly
when it has no null and its values are one allocation. -/
theorem column_layout_iff {columns : Vec header Float64Array} {rows : UInt64} {batch : ColumnarBatch header}
    (accepted : ColumnarBatch.tryNew columns rows = .ok batch) :
    batch.RoundTrips ↔
      (∀ column ∈ columns.items, column.nullCount = 0) ∧ 8 * (rows.toNat * columns.items.length) ≤ isizeMax := by
  obtain ⟨rfl, rfl⟩ := ColumnarBatch.tryNew_ok accepted
  rw [← batch.toNat_cols]
  refine ⟨fun trip => ⟨trip.noNull, trip.fits.2⟩, fun both => ColumnarBatch.roundTrips_of_noNull both.1 ⟨?_, both.2⟩⟩
  have bytes := both.2
  unfold isizeMax at bytes
  unfold Usize.range
  omega

/-- Two columns of two values, with array headers of 96 bytes. -/
theorem two_columns_round_trip : ∃ batch : ColumnarBatch 96,
    ColumnarBatch.tryNew ⟨[.ofVec ⟨[10, 11], by decide⟩, .ofVec ⟨[20, 21], by decide⟩], by decide⟩ 2 = .ok batch ∧
      batch.RoundTrips := by
  refine ⟨⟨⟨[.ofVec ⟨[10, 11], by decide⟩, .ofVec ⟨[20, 21], by decide⟩], by decide⟩, 2, by decide⟩, ?_⟩
  have accepted : ColumnarBatch.tryNew ⟨[.ofVec ⟨[10, 11], by decide⟩, .ofVec ⟨[20, 21], by decide⟩], by decide⟩ 2 =
    .ok (⟨⟨[.ofVec ⟨[10, 11], by decide⟩, .ofVec ⟨[20, 21], by decide⟩], by decide⟩, 2, by decide⟩ : ColumnarBatch 96) :=
    rfl
  exact ⟨accepted, (column_layout_iff accepted).mpr (by decide)⟩

/-- A null comes back as the value under it. -/
theorem null_not_restored : ∃ batch : ColumnarBatch 96,
    ColumnarBatch.tryNew ⟨[⟨⟨[10], by decide⟩, some [false], by decide⟩], by decide⟩ 1 = .ok batch ∧
      ¬ batch.RoundTrips :=
  ⟨_, rfl, fun trip => absurd trip.noNull (by decide)⟩

/-- An accepted buffer is as long as its counts say, is never read outside,
and is restored by the round trip, exactly when the product of the counts
does not overflow and so many columns are one allocation. -/
theorem row_layout_iff {buffer : Vec 8 F64} {rows cols : UInt64} {batch : RowBatch}
    (accepted : RowBatch.tryNew buffer rows cols = .ok batch) :
    (buffer.items.length = rows.toNat * cols.toNat ∧
      (∀ r < rows.toNat, ∀ c < cols.toNat, position cols r c < buffer.items.length) ∧
      (batch.toColumnar header).bind ColumnarBatch.toRowMajor = some ⟨buffer, rows, cols⟩) ↔
    rows.toNat * cols.toNat < 2 ^ 64 ∧ header * cols.toNat ≤ isizeMax := by
  obtain ⟨length, rfl⟩ := RowBatch.tryNew_ok_iff.mp accepted
  constructor
  · rintro ⟨whole, _, restored⟩
    obtain ⟨result, made, _⟩ := Option.bind_eq_some_iff.mp restored
    have columns := result.columns.fits.2
    rw [(RowBatch.toColumnar_eq_some_iff.mp made).2.1] at columns
    exact ⟨whole ▸ buffer.fits.1, columns⟩
  · rintro ⟨room, columns⟩
    have sound : (RowBatch.mk buffer rows cols).Sound := length.trans (Nat.mod_eq_of_lt room)
    have fits : Fits header cols.toNat := ⟨cols.toNat_lt, columns⟩
    obtain ⟨result, made⟩ := sound.exists_toColumnar fits
    refine ⟨sound, fun r row c col => sound.inside row col, ?_⟩
    rw [made]
    exact sound.round_trip made

/-- Two rows of three values, with array headers of 96 bytes. -/
theorem two_rows_restored :
    ((RowBatch.mk ⟨[1, 2, 3, 4, 5, 6], by decide⟩ 2 3).toColumnar 96).bind ColumnarBatch.toRowMajor =
      some ⟨⟨[1, 2, 3, 4, 5, 6], by decide⟩, 2, 3⟩ := by
  have accepted : RowBatch.tryNew ⟨[1, 2, 3, 4, 5, 6], by decide⟩ 2 3 = .ok ⟨⟨[1, 2, 3, 4, 5, 6], by decide⟩, 2, 3⟩ :=
    rfl
  exact ((row_layout_iff accepted).mpr (by decide)).2.2

/-- An empty buffer passes for one of 2 ^ 64 values. -/
theorem empty_buffer_accepted :
    RowBatch.tryNew ⟨[], by decide⟩ 4294967296 4294967296 = .ok ⟨⟨[], by decide⟩, 4294967296, 4294967296⟩ ∧
      ([] : List F64).length ≠ (4294967296 : UInt64).toNat * (4294967296 : UInt64).toNat :=
  ⟨rfl, by decide⟩

end

end Datacrate.Layout
