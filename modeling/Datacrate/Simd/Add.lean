import Datacrate.Arrow.Primitive
import Datacrate.Lib.Fallible

namespace Datacrate.Simd

open Arrow (PrimitiveArray)
open Buffer (Vec)

abbrev Int32Array :=
  PrimitiveArray 4 Int32

inductive SimdAddError where
  | nullable
  deriving DecidableEq, Repr

def rejectNulls (array : Int32Array) : Except SimdAddError Unit :=
  if array.nullCount > 0 then .error .nullable else .ok ()

def wrappingAddReference (array : Int32Array) (k : Int32) : Except SimdAddError Int32Array := do
  rejectNulls array
  .ok (.ofVec (array.values.map (· + k)))

theorem foldl_push {xs : List Int32} {k : Int32} (out : List Int32) :
    xs.foldl (fun out x => out ++ [x + k]) out = out ++ xs.map (· + k) := by
  induction xs generalizing out with
  | nil => exact (List.append_nil out).symm
  | cons x rest ih => rw [List.foldl_cons, ih, List.map_cons, List.append_assoc, List.singleton_append]

/-- The sums pushed one by one onto a vector of enough capacity. -/
def wrappingAddScalar (array : Int32Array) (k : Int32) : Except SimdAddError Int32Array := do
  rejectNulls array
  .ok (.ofVec ⟨array.values.items.foldl (fun out x => out ++ [x + k]) [], by
    rw [foldl_push, List.nil_append, List.length_map]
    exact array.values.fits⟩)

/-- A vector register of 32-bit lanes. -/
abbrev Register (lanes : Nat) :=
  Fin lanes → Int32

/-- The destination slice, with the indices of the source read and those of
the destination written so far. -/
structure Memory where
  dst : Vec 4 Int32
  loads : List Nat
  stores : List Nat

/-- An unaligned load of consecutive elements. One outside the slice is
undefined behaviour. -/
def loadu (lanes : Nat) (src : Vec 4 Int32) (offset : Nat) (memory : Memory) : Option (Register lanes × Memory) :=
  if inside : offset + lanes ≤ src.items.length then
    some (fun lane => src.items[offset + lane], { memory with loads := memory.loads ++ List.range' offset lanes })
  else none

def storeu {lanes : Nat} (offset : Nat) (v : Register lanes) (memory : Memory) : Option Memory := do
  let dst ← memory.dst.write ((List.ofFn v).zipIdx offset)
  some { memory with dst := dst, stores := memory.stores ++ List.range' offset lanes }

def set1 (lanes : Nat) (k : Int32) : Register lanes :=
  fun _ => k

def addEpi32 {lanes : Nat} (v w : Register lanes) : Register lanes :=
  fun lane => v lane + w lane

/-- One turn of the chunk loop. The offset is within the slice, so that the
product does not wrap. -/
def addChunk (lanes : Nat) (src : Vec 4 Int32) (k : Int32) (memory : Memory) (i : Nat) : Option Memory := do
  let offset := i * lanes
  let (v, memory) ← loadu lanes src offset memory
  storeu offset (addEpi32 v (set1 lanes k)) memory

/-- One turn of a scalar loop: an element of the source is read, and its sum
written to the same place. -/
def addElement (src : Vec 4 Int32) (k : Int32) (memory : Memory) (i : Nat) : Option Memory := do
  let s ← src.items[i]?
  let dst ← memory.dst.set i (s + k)
  some ⟨dst, memory.loads ++ [i], memory.stores ++ [i]⟩

/-- The slices side by side, without the first so many elements. -/
def addZipped (src : Vec 4 Int32) (k : Int32) (skip : Nat) (memory : Memory) : Option Memory :=
  ((List.range (min memory.dst.items.length src.items.length)).drop skip).foldlM (addElement src k) memory

/-- Chunks of some lanes, and the tail that fills none. -/
def addLanes (lanes : Nat) (src dst : Vec 4 Int32) (k : Int32) : Option Memory := do
  let chunks := src.items.length / lanes
  let memory ← (List.range chunks).foldlM (addChunk lanes src k) ⟨dst, [], []⟩
  addZipped src k (chunks * lanes) memory

def addSse2 (src dst : Vec 4 Int32) (k : Int32) : Option Memory :=
  addLanes 4 src dst k

def addAvx2 (src dst : Vec 4 Int32) (k : Int32) : Option Memory :=
  addLanes 8 src dst k

/-- What the program runs on: `x86_64` with the extension or without it, or
any other target. -/
inductive Cpu where
  | avx2
  | sse2
  | other
  deriving DecidableEq, Repr

def addOn (cpu : Cpu) (src dst : Vec 4 Int32) (k : Int32) : Option Memory :=
  match cpu with
  | .avx2 => addAvx2 src dst k
  | .sse2 => addSse2 src dst k
  | .other => addZipped src k 0 ⟨dst, [], []⟩

def wrappingAddSimd (cpu : Cpu) (array : Int32Array) (k : Int32) : Option (Except SimdAddError Int32Array) :=
  match rejectNulls array with
  | .error refused => some (.error refused)
  | .ok () => (addOn cpu array.values (array.values.map fun _ => 0) k).map fun memory => .ok (.ofVec memory.dst)

section

variable {src initial : Vec 4 Int32} {k : Int32} {n lanes : Nat} {memory : Memory}

/-- The first so many sums are written, each once and in order, with as many
elements read, and the rest is as it was. -/
structure Written (src initial : Vec 4 Int32) (k : Int32) (n : Nat) (memory : Memory) : Prop where
  dst : memory.dst.items = (src.items.take n).map (· + k) ++ initial.items.drop n
  loads : memory.loads = List.range n
  stores : memory.stores = List.range n

theorem Written.start : Written src initial k 0 ⟨initial, [], []⟩ where
  dst := by rw [List.take_zero, List.drop_zero, List.map_nil, List.nil_append]
  loads := rfl
  stores := rfl

theorem range_append_range' (n lanes : Nat) : List.range n ++ List.range' n lanes = List.range (n + lanes) := by
  rw [List.range_eq_range', List.range_eq_range', ← List.range'_append_1, Nat.zero_add]

/-- The next sums written behind the first ones lengthen them. -/
theorem Written.write (written : Written src initial k n memory) (same : src.items.length = initial.items.length)
    (inside : n + lanes ≤ src.items.length) :
    ∃ dst, memory.dst.write ((((src.items.drop n).take lanes).map (· + k)).zipIdx n) = some dst ∧
      Written src initial k (n + lanes)
        ⟨dst, memory.loads ++ List.range' n lanes, memory.stores ++ List.range' n lanes⟩ := by
  have place : ((src.items.take n).map (· + k)).length = n := by
    rw [List.length_map, List.length_take]
    omega
  have block : memory.dst.items = (src.items.take n).map (· + k) ++ (initial.items.drop n).take lanes ++
      initial.items.drop (n + lanes) := by
    rw [written.dst, List.append_assoc, ← List.drop_drop, List.take_append_drop]
  have count : (((src.items.drop n).take lanes).map (· + k)).length = ((initial.items.drop n).take lanes).length := by
    simp only [List.length_map, List.length_take, List.length_drop, same]
  obtain ⟨dst, stored, items⟩ := Vec.write_zipIdx block count
  rw [place] at stored
  refine ⟨dst, stored, ?_, ?_, ?_⟩
  · rw [items, ← List.map_append, List.take_add]
  · rw [written.loads, range_append_range']
  · rw [written.stores, range_append_range']

theorem ofFn_addEpi32 (inside : n + lanes ≤ src.items.length) :
    List.ofFn (addEpi32 (fun lane : Fin lanes => src.items[n + lane]) (set1 lanes k)) =
      ((src.items.drop n).take lanes).map (· + k) := by
  refine List.ext_getElem (by simp; omega) fun i _ _ => ?_
  simp [addEpi32, set1]

/-- A turn of the chunk loop writes the sums of one register. -/
theorem Written.addChunk {i : Nat} (written : Written src initial k (i * lanes) memory)
    (same : src.items.length = initial.items.length) (inside : i * lanes + lanes ≤ src.items.length) :
    ∃ next, addChunk lanes src k memory i = some next ∧ Written src initial k ((i + 1) * lanes) next := by
  obtain ⟨dst, stored, next⟩ := written.write same inside
  rw [Nat.succ_mul]
  refine ⟨_, ?_, next⟩
  simp only [Simd.addChunk, loadu, dif_pos inside, Option.bind_eq_bind, Option.bind_some, storeu, ofFn_addEpi32 inside,
    stored]

/-- A turn of a scalar loop writes the next sum. -/
theorem Written.addElement (written : Written src initial k n memory) (same : src.items.length = initial.items.length)
    (inside : n < src.items.length) :
    ∃ next, addElement src k memory n = some next ∧ Written src initial k (n + 1) next := by
  have single : n + 1 ≤ src.items.length := inside
  obtain ⟨dst, stored, next⟩ := written.write same single
  have one : ((src.items.drop n).take 1).map (· + k) = [src.items[n] + k] := by
    rw [List.drop_eq_getElem_cons inside]
    rfl
  rw [one, List.zipIdx_singleton, Vec.write_singleton] at stored
  refine ⟨_, ?_, next⟩
  simp only [Simd.addElement, List.getElem?_eq_getElem inside, Option.bind_eq_bind, Option.bind_some, stored]
  rfl

theorem Written.addZipped (written : Written src initial k n memory) (same : src.items.length = initial.items.length)
    (within : n ≤ src.items.length) :
    ∃ final, addZipped src k n memory = some final ∧ Written src initial k src.items.length final := by
  have length : memory.dst.items.length = src.items.length := by
    rw [written.dst, List.length_append, List.length_map, List.length_take, List.length_drop]
    omega
  have indices : (List.range (min memory.dst.items.length src.items.length)).drop n =
      List.range' n (src.items.length - n) := by
    rw [length, Nat.min_self, List.range_eq_range', List.drop_range', Nat.zero_add, Nat.mul_one]
  have loop : ∃ final, (List.range' n (src.items.length - n)).foldlM (Simd.addElement src k) memory = some final ∧
      Written src initial k (n + (src.items.length - n)) final :=
    Fallible.foldlM_range' (Written src initial k) written fun _ inside current => current.addElement same (by omega)
  rwa [Nat.add_sub_cancel' within, ← indices] at loop

/-- Whatever the number of lanes, every sum is written, once and in order. -/
theorem addLanes_written {dst : Vec 4 Int32} (same : src.items.length = dst.items.length) :
    ∃ final, addLanes lanes src dst k = some final ∧ Written src dst k src.items.length final := by
  have whole : src.items.length / lanes * lanes ≤ src.items.length := Nat.div_mul_le_self _ _
  have loop : ∃ chunked, (List.range' 0 (src.items.length / lanes)).foldlM (addChunk lanes src k) ⟨dst, [], []⟩ =
      some chunked ∧ Written src dst k ((0 + src.items.length / lanes) * lanes) chunked :=
    Fallible.foldlM_range' (fun i => Written src dst k (i * lanes)) (by rw [Nat.zero_mul]; exact .start)
      fun {i _} _ inside current => current.addChunk same (by
        have fits : (i + 1) * lanes ≤ src.items.length / lanes * lanes := Nat.mul_le_mul_right lanes (by omega)
        rw [Nat.succ_mul] at fits
        omega)
  obtain ⟨chunked, looped, chunks⟩ := loop
  rw [Nat.zero_add] at chunks
  obtain ⟨final, zipped, all⟩ := chunks.addZipped same whole
  refine ⟨final, ?_, all⟩
  rw [addLanes, List.range_eq_range', looped]
  exact zipped

theorem addOn_written (cpu : Cpu) {dst : Vec 4 Int32} (same : src.items.length = dst.items.length) :
    ∃ final, addOn cpu src dst k = some final ∧ Written src dst k src.items.length final := by
  cases cpu with
  | avx2 => exact addLanes_written same
  | sse2 => exact addLanes_written same
  | other => exact Written.start.addZipped same (Nat.zero_le _)

/-- All sums are written, each once, with each element read once. -/
structure Summed (src : Vec 4 Int32) (k : Int32) (memory : Memory) : Prop where
  dst : memory.dst = src.map (· + k)
  loads : memory.loads = List.range src.items.length
  stores : memory.stores = List.range src.items.length

theorem Written.summed (written : Written src initial k src.items.length memory)
    (same : src.items.length = initial.items.length) : Summed src k memory where
  dst := by
    refine Vec.ext ?_
    rw [written.dst, List.take_length, same, List.drop_length, List.append_nil]
    rfl
  loads := written.loads
  stores := written.stores

theorem wrappingAddSimd_eq_reference (cpu : Cpu) (array : Int32Array) (k : Int32) :
    wrappingAddSimd cpu array k = some (wrappingAddReference array k) := by
  unfold wrappingAddSimd wrappingAddReference
  cases rejectNulls array with
  | error refused => rfl
  | ok _ =>
    have same : array.values.items.length = (array.values.map fun _ => (0 : Int32)).items.length :=
      (List.length_map _).symm
    obtain ⟨final, added, written⟩ := addOn_written cpu (k := k) same
    simp only [added, Option.map_some, (written.summed same).dst]
    rfl

theorem wrappingAddScalar_eq_reference (array : Int32Array) (k : Int32) :
    wrappingAddScalar array k = wrappingAddReference array k := by
  unfold wrappingAddScalar wrappingAddReference
  simp only [foldl_push, List.nil_append]
  rfl

/-- The vector loops write all wrapping sums of slices of one length, each
once, and touch nothing outside them. So the three implementations agree on
every path. -/
theorem simd_add_agrees :
    (∀ (src dst : Vec 4 Int32) (k : Int32), src.items.length = dst.items.length →
      (∃ memory, addSse2 src dst k = some memory ∧ Summed src k memory) ∧
      ∃ memory, addAvx2 src dst k = some memory ∧ Summed src k memory) ∧
    ∀ (cpu : Cpu) (array : Int32Array) (k : Int32),
      wrappingAddSimd cpu array k = some (wrappingAddReference array k) ∧
      wrappingAddScalar array k = wrappingAddReference array k := by
  refine ⟨fun src dst k same => ⟨?_, ?_⟩, fun cpu array k =>
    ⟨wrappingAddSimd_eq_reference cpu array k, wrappingAddScalar_eq_reference array k⟩⟩
  · obtain ⟨memory, added, written⟩ := addOn_written .sse2 (k := k) same
    exact ⟨memory, added, written.summed same⟩
  · obtain ⟨memory, added, written⟩ := addOn_written .avx2 (k := k) same
    exact ⟨memory, added, written.summed same⟩

/-- One chunk of four lanes and a tail of one element that wraps. -/
theorem five_elements_added :
    ∃ memory, addSse2 ⟨[1, 2, 3, 4, 2147483647], by decide⟩ ⟨[0, 0, 0, 0, 0], by decide⟩ 7 = some memory ∧
      Summed ⟨[1, 2, 3, 4, 2147483647], by decide⟩ 7 memory :=
  (simd_add_agrees.1 ⟨[1, 2, 3, 4, 2147483647], by decide⟩ ⟨[0, 0, 0, 0, 0], by decide⟩ 7 rfl).1

end

end Datacrate.Simd
