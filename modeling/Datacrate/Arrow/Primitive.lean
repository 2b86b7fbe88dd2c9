import Datacrate.Lib.Buffer

namespace Datacrate.Arrow

open Buffer (Vec)

/-- An array of plain values of some bytes each. A validity bit that is
`false` marks a null, under which a value still stands. -/
@[ext] structure PrimitiveArray (size : Nat) (T : Type) where
  values : Vec size T
  nulls : Option (List Bool)
  masked : ∀ mask ∈ nulls, mask.length = values.items.length
  deriving DecidableEq

namespace PrimitiveArray

variable {size : Nat} {T : Type}

/-- The array of some values without a null. -/
def ofVec (values : Vec size T) : PrimitiveArray size T where
  values := values
  nulls := none
  masked _ impossible := nomatch impossible

def len (array : PrimitiveArray size T) : UInt64 :=
  array.values.len

/-- The value at a position, null or not. A position outside panics. -/
def value (array : PrimitiveArray size T) (i : Nat) : Option T :=
  array.values.items[i]?

def isValid (array : PrimitiveArray size T) (i : Nat) : Bool :=
  array.nulls.all fun mask => mask.getD i true

def nullCount (array : PrimitiveArray size T) : Nat :=
  array.nulls.elim 0 (List.count false)

theorem value_eq_some {array : PrimitiveArray size T} {i : Nat} (inside : i < array.values.items.length) :
    array.value i = some array.values.items[i] :=
  List.getElem?_eq_getElem inside

/-- There is no null when every position is valid. -/
theorem nullCount_eq_zero_iff {array : PrimitiveArray size T} :
    array.nullCount = 0 ↔ ∀ i < array.values.items.length, array.isValid i = true := by
  unfold nullCount isValid
  cases given : array.nulls with
  | none => simp
  | some mask =>
    have length := array.masked mask given
    rw [Option.elim_some, List.count_eq_zero]
    simp only [Option.all_some]
    constructor
    · intro noNull i inside
      have present : i < mask.length := length ▸ inside
      rw [List.getD_eq_getElem?_getD, List.getElem?_eq_getElem present, Option.getD_some]
      exact Bool.eq_true_of_not_eq_false fun null => noNull (null ▸ List.getElem_mem present)
    · intro valid member
      obtain ⟨i, present, null⟩ := List.getElem_of_mem member
      have shown := valid i (length ▸ present)
      rw [List.getD_eq_getElem?_getD, List.getElem?_eq_getElem present, Option.getD_some, null] at shown
      cases shown

end PrimitiveArray

end Datacrate.Arrow
