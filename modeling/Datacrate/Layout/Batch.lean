import Datacrate.Arrow.Primitive
import Datacrate.Lib.Fallible

namespace Datacrate.Layout

open Arrow (PrimitiveArray)
open Buffer (Vec Fits)

/-- An `f64` as its bits, which copies keep. -/
abbrev F64 :=
  BitVec 64

abbrev Float64Array :=
  PrimitiveArray 8 F64

/-- An array of values collected one after the other, all valid. -/
def fromIterValues (values : List F64) : Option Float64Array :=
  (Vec.collect 8 values).map PrimitiveArray.ofVec

theorem fromIterValues_eq_some_iff {values : List F64} {array : Float64Array} :
    fromIterValues values = some array ↔ array.nulls = none ∧ array.values.items = values := by
  unfold fromIterValues
  rw [Option.map_eq_some_iff]
  constructor
  · rintro ⟨vec, collected, rfl⟩
    exact ⟨rfl, Vec.collect_eq_some_iff.mp collected⟩
  · rintro ⟨valid, items⟩
    exact ⟨array.values, Vec.collect_eq_some_iff.mpr items, PrimitiveArray.ext rfl valid.symm⟩

theorem len_eq_iff {array : Float64Array} {rows : UInt64} : array.len = rows ↔ array.values.items.length = rows.toNat := by
  rw [← UInt64.toNat_inj, PrimitiveArray.len, Vec.toNat_len]

inductive LayoutError where
  | columnLengthMismatch (column : Nat) (expected found : UInt64)
  | bufferLengthMismatch (expected found : UInt64)
  deriving DecidableEq, Repr

/-- Columns of one length. An array header has some bytes of its own. -/
structure ColumnarBatch (header : Nat) where
  columns : Vec header Float64Array
  rows : UInt64
  lengths : ∀ column ∈ columns.items, column.len = rows

/-- A flat buffer with a number of rows and columns. Nothing ties them. -/
@[ext] structure RowBatch where
  buffer : Vec 8 F64
  rows : UInt64
  cols : UInt64
  deriving DecidableEq

/-- Where a row and column stand in a row-major buffer. The arithmetic wraps. -/
def position (cols : UInt64) (r c : Nat) : Nat :=
  (UInt64.ofNat r * cols + UInt64.ofNat c).toNat

section

variable {header : Nat}

namespace ColumnarBatch

def tryNew (columns : Vec header Float64Array) (rows : UInt64) : Except LayoutError (ColumnarBatch header) :=
  match unequal : columns.items.zipIdx.find? (fun entry => entry.1.len != rows) with
  | some (array, column) => .error (.columnLengthMismatch column rows array.len)
  | none => .ok ⟨columns, rows, by
      intro column member
      obtain ⟨i, place⟩ := List.getElem?_of_mem member
      simpa using List.find?_eq_none.mp unequal (column, i) (List.mem_zipIdx_iff_getElem?.mpr place)⟩

def cols (batch : ColumnarBatch header) : UInt64 :=
  batch.columns.len

/-- The transposition into a buffer of zeros. The product of the counts
wraps, and an index outside the buffer panics. -/
def toRowMajor (batch : ColumnarBatch header) : Option RowBatch := do
  let buffer ← Vec.filled 8 0 (batch.rows * batch.cols).toNat
  let buffer ← (List.range batch.rows.toNat).foldlM
    (fun buffer r => batch.columns.items.zipIdx.foldlM
      (fun buffer entry => (entry.1.value r).bind fun value => buffer.set (position batch.cols r entry.2) value)
      buffer)
    buffer
  some ⟨buffer, batch.rows, batch.cols⟩

end ColumnarBatch

namespace RowBatch

/-- The product of the counts wraps: overflow checks are off in a release. -/
def tryNew (buffer : Vec 8 F64) (rows cols : UInt64) : Except LayoutError RowBatch :=
  if buffer.len ≠ rows * cols then .error (.bufferLengthMismatch (rows * cols) buffer.len)
  else .ok ⟨buffer, rows, cols⟩

/-- The values of a column. An index outside the buffer panics. -/
def gather (batch : RowBatch) (c : Nat) : Option Float64Array := do
  let values ← (List.range batch.rows.toNat).mapM fun r => batch.buffer.items[position batch.cols r c]?
  fromIterValues values

theorem gather_eq_some_iff {batch : RowBatch} {c : Nat} {array : Float64Array} :
    batch.gather c = some array ↔ array.nulls = none ∧ array.values.items.length = batch.rows.toNat ∧
      ∀ r < batch.rows.toNat, batch.buffer.items[position batch.cols r c]? = array.value r := by
  unfold gather
  rw [Option.bind_eq_bind, Option.bind_eq_some_iff]
  constructor
  · rintro ⟨values, read, made⟩
    obtain ⟨valid, rfl⟩ := fromIterValues_eq_some_iff.mp made
    exact ⟨valid, Fallible.mapM_range_eq_some_iff.mp read⟩
  · rintro ⟨valid, read⟩
    exact ⟨_, Fallible.mapM_range_eq_some_iff.mpr read, fromIterValues_eq_some_iff.mpr ⟨valid, rfl⟩⟩

theorem lengths_gathered {batch : RowBatch} {columns : List Float64Array}
    (gathered : (List.range batch.cols.toNat).mapM batch.gather = some columns) :
    ∀ column ∈ columns, column.len = batch.rows := by
  intro column member
  obtain ⟨c, place⟩ := List.getElem?_of_mem member
  obtain ⟨length, given⟩ := Fallible.mapM_range_eq_some_iff.mp gathered
  have inside : c < batch.cols.toNat := length ▸ (List.getElem?_eq_some_iff.mp place).1
  exact len_eq_iff.mpr (gather_eq_some_iff.mp ((given c inside).trans place)).2.1

/-- The transposition back, with no null. -/
def toColumnar (batch : RowBatch) (header : Nat) : Option (ColumnarBatch header) :=
  match gathered : (List.range batch.cols.toNat).mapM batch.gather with
  | none => none
  | some columns =>
    if fits : Fits header columns.length then some ⟨⟨columns, fits⟩, batch.rows, lengths_gathered gathered⟩ else none

theorem toColumnar_eq_some_iff {batch : RowBatch} {result : ColumnarBatch header} :
    batch.toColumnar header = some result ↔ result.rows = batch.rows ∧
      result.columns.items.length = batch.cols.toNat ∧
      ∀ c < batch.cols.toNat, batch.gather c = result.columns.items[c]? := by
  rw [← Fallible.mapM_range_eq_some_iff]
  unfold toColumnar
  split
  · rename_i failed
    rw [failed]
    exact ⟨fun impossible => (nomatch impossible), fun both => (nomatch both.2)⟩
  · rename_i columns gathered
    have same : (List.range batch.cols.toNat).mapM batch.gather = some result.columns.items ↔
        columns = result.columns.items := ⟨fun other => Option.some.inj (gathered.symm.trans other), (· ▸ gathered)⟩
    rw [same]
    split
    · rcases result with ⟨kept, rows, lengths⟩
      rw [Option.some_inj, ColumnarBatch.mk.injEq, Vec.ext_iff, and_comm]
      exact and_congr_left' eq_comm
    · rename_i large
      refine ⟨fun impossible => (nomatch impossible), fun both => absurd result.columns.fits ?_⟩
      rwa [← both.2]

end RowBatch

end

end Datacrate.Layout
