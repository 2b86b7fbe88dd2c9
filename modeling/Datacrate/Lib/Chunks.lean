import Mathlib.Algebra.Order.Ring.Nat
import Mathlib.Data.List.Basic

namespace Chunks

variable {α : Type*}

/-- A list cut into pieces of one size, the last of which may be short. -/
def chunksOf (size : Nat) (xs : List α) : List (List α) :=
  if xs = [] ∨ size = 0 then [] else xs.take size :: chunksOf size (xs.drop size)
termination_by xs.length
decreasing_by
  rename_i more
  rw [not_or] at more
  have nonempty := List.length_pos_of_ne_nil more.1
  rw [List.length_drop]
  omega

variable {size : Nat}

@[simp] theorem chunksOf_nil : chunksOf size ([] : List α) = [] := by
  rw [chunksOf, if_pos (Or.inl rfl)]

theorem chunksOf_append (positive : 0 < size) {chunk : List α} (full : chunk.length = size) (rest : List α) :
    chunksOf size (chunk ++ rest) = chunk :: chunksOf size rest := by
  have nonempty : chunk ++ rest ≠ [] := by
    intro empty
    rw [List.append_eq_nil_iff] at empty
    simp [empty.1] at full
    omega
  rw [chunksOf, if_neg (by rw [not_or]; exact ⟨nonempty, by omega⟩), ← full, List.take_left, List.drop_left]

theorem chunksOf_short {chunk : List α} (nonempty : chunk ≠ []) (short : chunk.length ≤ size) :
    chunksOf size chunk = [chunk] := by
  have positive := List.length_pos_of_ne_nil nonempty
  rw [chunksOf, if_neg (by rw [not_or]; exact ⟨nonempty, by omega⟩), List.take_of_length_le short,
    List.drop_of_length_le short, chunksOf_nil]

/-- Full chunks already cut off stay as they are. -/
theorem chunksOf_flatten_append (positive : 0 < size) {groups : List (List α)}
    (full : ∀ group ∈ groups, group.length = size) (rest : List α) :
    chunksOf size (groups.flatten ++ rest) = groups ++ chunksOf size rest := by
  induction groups with
  | nil => rfl
  | cons group groups ih =>
    rw [List.forall_mem_cons] at full
    rw [List.flatten_cons, List.append_assoc, chunksOf_append positive full.1, ih full.2, List.cons_append]

theorem flatten_chunksOf (positive : 0 < size) (xs : List α) : (chunksOf size xs).flatten = xs := by
  fun_induction chunksOf size xs with
  | case1 xs empty => rw [List.flatten_nil, empty.resolve_right (by omega)]
  | case2 xs more ih => rw [List.flatten_cons, ih, List.take_append_drop]

theorem infix_of_mem_chunksOf (positive : 0 < size) {xs chunk : List α} (member : chunk ∈ chunksOf size xs) :
    chunk <:+: xs := by
  obtain ⟨before, after, split⟩ := List.append_of_mem member
  refine ⟨before.flatten, after.flatten, ?_⟩
  rw [← flatten_chunksOf positive xs, split]
  simp

theorem length_chunksOf (positive : 0 < size) (xs : List α) :
    (chunksOf size xs).length = (xs.length + size - 1) / size := by
  fun_induction chunksOf size xs with
  | case1 xs empty =>
    rw [empty.resolve_right (by omega), List.length_nil, List.length_nil, Nat.div_eq_of_lt (by omega)]
  | case2 xs more ih =>
    rw [not_or] at more
    have nonempty := List.length_pos_of_ne_nil more.1
    rw [List.length_cons, ih, List.length_drop]
    rcases Nat.lt_or_ge size xs.length with longer | short
    · rw [show xs.length + size - 1 = (xs.length - size + size - 1) + size by omega,
        Nat.add_div_right _ positive]
    · rw [show xs.length - size = 0 by omega, Nat.div_eq_of_lt (by omega),
        show xs.length + size - 1 = (xs.length - 1) + size by omega, Nat.add_div_right _ positive,
        Nat.div_eq_of_lt (by omega)]

end Chunks
