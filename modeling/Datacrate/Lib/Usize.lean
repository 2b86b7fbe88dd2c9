import Mathlib.Algebra.Order.BigOperators.Group.List
import Mathlib.Algebra.Order.Ring.Nat

namespace Usize

/-- How many values a 64-bit `usize` has. -/
def range : Nat := 2 ^ 64

def checkedAdd (a b : Nat) : Option Nat :=
  if a + b < range then some (a + b) else none

def checkedSub (a b : Nat) : Option Nat :=
  if b ≤ a then some (a - b) else none

theorem checkedAdd_eq_some_iff {a b c : Nat} : checkedAdd a b = some c ↔ c = a + b ∧ a + b < range := by
  unfold checkedAdd
  split <;> simp only [Option.some.injEq, reduceCtorEq, false_iff] <;> omega

theorem checkedSub_eq_some_iff {a b c : Nat} : checkedSub a b = some c ↔ a = c + b := by
  unfold checkedSub
  split <;> simp only [Option.some.injEq, reduceCtorEq, false_iff] <;> omega

theorem checkedAdd_of_lt {a b : Nat} (fits : a + b < range) : checkedAdd a b = some (a + b) :=
  checkedAdd_eq_some_iff.mpr ⟨rfl, fits⟩

theorem checkedSub_of_le {a b : Nat} (covers : b ≤ a) : checkedSub a b = some (a - b) :=
  checkedSub_eq_some_iff.mpr (by omega)

/-- Addition of 64-bit words that stops at the largest one. -/
def saturatingAdd (a b : UInt64) : UInt64 :=
  if a.toNat + b.toNat < range then a + b else UInt64.ofNat (range - 1)

theorem toNat_saturatingAdd (a b : UInt64) : (saturatingAdd a b).toNat = min (a.toNat + b.toNat) (range - 1) := by
  unfold saturatingAdd
  split
  · rename_i fits
    unfold range at fits ⊢
    rw [UInt64.toNat_add]
    omega
  · rename_i large
    unfold range at large ⊢
    rw [UInt64.toNat_ofNat']
    omega

theorem toNat_min (a b : UInt64) : (min a b).toNat = min a.toNat b.toNat := by
  rw [show min a b = if a ≤ b then a else b from rfl]
  split
  · rename_i le
    rw [UInt64.le_iff_toNat_le] at le
    omega
  · rename_i gt
    rw [UInt64.le_iff_toNat_le] at gt
    omega

end Usize
