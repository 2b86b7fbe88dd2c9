import Datacrate.Lib.Usize
import Mathlib.Data.List.Basic

namespace Buffer

variable {α : Type} {size : Nat}

/-- The most bytes that one allocation may have. -/
def isizeMax : Nat :=
  2 ^ 63 - 1

/-- Whether so many items of some bytes each are one allocation. -/
def Fits (size count : Nat) : Prop :=
  count < Usize.range ∧ size * count ≤ isizeMax

instance (size count : Nat) : Decidable (Fits size count) :=
  inferInstanceAs (Decidable (_ ∧ _))

theorem Fits.mono {count fewer : Nat} (fits : Fits size count) (le : fewer ≤ count) : Fits size fewer := by
  have bytes := Nat.mul_le_mul_left size le
  unfold Fits at fits ⊢
  omega

/-- A vector of items of some bytes each. -/
@[ext] structure Vec (size : Nat) (α : Type) where
  items : List α
  fits : Fits size items.length
  deriving DecidableEq

namespace Vec

/-- Too many items are no vector: the capacity overflows. -/
def collect (size : Nat) (items : List α) : Option (Vec size α) :=
  if fits : Fits size items.length then some ⟨items, fits⟩ else none

/-- One value so many times. -/
def filled (size : Nat) (value : α) (count : Nat) : Option (Vec size α) :=
  if fits : Fits size count then some ⟨List.replicate count value, by rwa [List.length_replicate]⟩ else none

def len (vec : Vec size α) : UInt64 :=
  UInt64.ofNat vec.items.length

def map {β : Type} (f : α → β) (vec : Vec size α) : Vec size β :=
  ⟨vec.items.map f, by rw [List.length_map]; exact vec.fits⟩

/-- An index outside panics. -/
def set (vec : Vec size α) (index : Nat) (value : α) : Option (Vec size α) :=
  if index < vec.items.length then some ⟨vec.items.set index value, by rw [List.length_set]; exact vec.fits⟩ else none

/-- Values written to places, one after the other. -/
def write (vec : Vec size α) (entries : List (α × Nat)) : Option (Vec size α) :=
  entries.foldlM (fun vec entry => vec.set entry.2 entry.1) vec

theorem collect_eq_some_iff {items : List α} {vec : Vec size α} : collect size items = some vec ↔ vec.items = items := by
  unfold collect
  split
  · rw [Option.some.injEq, Vec.ext_iff]
    exact eq_comm
  · rename_i large
    refine ⟨fun impossible => (nomatch impossible), fun same => absurd (same ▸ vec.fits) large⟩

theorem filled_eq_some_iff {value : α} {count : Nat} {vec : Vec size α} :
    filled size value count = some vec ↔ vec.items = List.replicate count value := by
  unfold filled
  split
  · rw [Option.some.injEq, Vec.ext_iff]
    exact eq_comm
  · rename_i large
    refine ⟨fun impossible => (nomatch impossible), fun same => absurd vec.fits ?_⟩
    rwa [same, List.length_replicate]

theorem exists_filled {count : Nat} (fits : Fits size count) (value : α) : ∃ vec, filled size value count = some vec :=
  ⟨_, dif_pos fits⟩

theorem toNat_len (vec : Vec size α) : vec.len.toNat = vec.items.length :=
  UInt64.toNat_ofNat_of_lt vec.fits.1

theorem set_eq_some_iff {vec result : Vec size α} {index : Nat} {value : α} :
    vec.set index value = some result ↔ index < vec.items.length ∧ result.items = vec.items.set index value := by
  unfold set
  split
  · rename_i inside
    rw [Option.some.injEq, Vec.ext_iff]
    exact ⟨fun same => ⟨inside, same.symm⟩, fun both => both.2.symm⟩
  · rename_i outside
    exact ⟨fun impossible => (nomatch impossible), fun both => absurd both.1 outside⟩

theorem write_cons {vec result : Vec size α} {entry : α × Nat} {rest : List (α × Nat)} :
    vec.write (entry :: rest) = some result ↔
      ∃ middle, vec.set entry.2 entry.1 = some middle ∧ middle.write rest = some result := by
  rw [write, List.foldlM_cons]
  exact Option.bind_eq_some_iff

theorem write_singleton (vec : Vec size α) (entry : α × Nat) : vec.write [entry] = vec.set entry.2 entry.1 := by
  rw [write, List.foldlM_cons]
  cases vec.set entry.2 entry.1 <;> rfl

/-- What is written lies inside. -/
theorem inside_of_write {vec result : Vec size α} {entries : List (α × Nat)} (written : vec.write entries = some result) :
    ∀ entry ∈ entries, entry.2 < vec.items.length := by
  induction entries generalizing vec with
  | nil => exact fun _ member => nomatch member
  | cons entry rest ih =>
    obtain ⟨middle, first, others⟩ := write_cons.mp written
    obtain ⟨inside, items⟩ := set_eq_some_iff.mp first
    rw [List.forall_mem_cons]
    refine ⟨inside, fun other member => ?_⟩
    have bound := ih others other member
    rwa [items, List.length_set] at bound

/-- Values written from a place on, one next to the other, stand there in
the place of as many. -/
theorem write_zipIdx {vec : Vec size α} {before old after values : List α} (items : vec.items = before ++ old ++ after)
    (same : values.length = old.length) :
    ∃ result, vec.write (values.zipIdx before.length) = some result ∧ result.items = before ++ values ++ after := by
  induction values generalizing vec before old with
  | nil =>
    rw [List.length_nil, eq_comm, List.length_eq_zero_iff] at same
    exact ⟨vec, rfl, by rw [items, same]⟩
  | cons value rest ih =>
    cases old with
    | nil => cases same
    | cons first old =>
      rw [List.length_cons, List.length_cons, Nat.add_right_cancel_iff] at same
      have inside : before.length < vec.items.length := by simp [items]
      obtain ⟨middle, placed⟩ : ∃ middle, vec.set before.length value = some middle := ⟨_, dif_pos inside⟩
      have middleItems : middle.items = (before ++ [value]) ++ old ++ after := by
        rw [(set_eq_some_iff.mp placed).2, items]
        simp
      obtain ⟨result, written, resultItems⟩ := ih middleItems same
      rw [List.length_append, List.length_singleton] at written
      exact ⟨result, write_cons.mpr ⟨middle, placed, written⟩, by rw [resultItems]; simp⟩

/-- Values written in order to a vector of as many replace it. -/
theorem write_all {vec : Vec size α} {values : List α} (same : values.length = vec.items.length) :
    ∃ result, vec.write values.zipIdx = some result ∧ result.items = values := by
  have whole : vec.items = [] ++ vec.items ++ [] := by rw [List.nil_append, List.append_nil]
  obtain ⟨result, written, items⟩ := write_zipIdx whole same
  exact ⟨result, written, by simpa using items⟩

end Vec

end Buffer
