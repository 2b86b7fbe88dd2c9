import Mathlib.Data.List.FinRange
import Mathlib.Data.Vector.Basic

/-- A log of at most `capacity` entries: slots filled from the front, and
the number of filled slots. -/
structure BoundedLog (α : Type*) (capacity : Nat) where
  items : Vector (Option α) capacity
  len : Nat

namespace BoundedLog

variable {α : Type*} {capacity : Nat}

def empty : BoundedLog α capacity where
  items := Vector.replicate capacity none
  len := 0

/-- Records an entry, or drops it once every slot is filled. -/
def push (log : BoundedLog α capacity) (entry : α) : BoundedLog α capacity :=
  if room : log.len < capacity then
    { items := log.items.set log.len (some entry), len := log.len + 1 }
  else log

/-- The log holds the longest prefix of `entries` that fits. -/
structure Holds (log : BoundedLog α capacity) (entries : List α) : Prop where
  len_eq : log.len = min entries.length capacity
  items_eq : ∀ i (within : i < capacity), log.items[i] = entries[i]?

theorem empty_holds : (empty : BoundedLog α capacity).Holds [] where
  len_eq := by simp [empty]
  items_eq := by simp [empty]

theorem Holds.push {log : BoundedLog α capacity} {entries : List α} (holds : log.Holds entries)
    (entry : α) : (log.push entry).Holds (entries ++ [entry]) := by
  have len := holds.len_eq
  by_cases room : log.len < capacity
  · have filled : log.len = entries.length := by omega
    simp only [BoundedLog.push, room, dite_true]
    refine ⟨?_, ?_⟩
    · simp only [List.length_append, List.length_singleton]
      omega
    · intro i within
      rw [Vector.getElem_set, holds.items_eq i within]
      split
      · rename_i here
        rw [← here, filled, List.getElem?_concat_length]
      · rename_i other
        rcases Nat.lt_trichotomy i entries.length with before | same | after
        · rw [List.getElem?_append_left before]
        · omega
        · rw [List.getElem?_eq_none (by omega), List.getElem?_eq_none (by simp; omega)]
  · simp only [BoundedLog.push, room, dite_false]
    refine ⟨?_, ?_⟩
    · simp only [List.length_append, List.length_singleton]
      omega
    · intro i within
      rw [holds.items_eq i within, List.getElem?_append_left (by omega)]

/-- Feeding a whole list records its longest prefix that fits. -/
theorem Holds.foldl {log : BoundedLog α capacity} {entries : List α} (holds : log.Holds entries)
    (more : List α) : (more.foldl BoundedLog.push log).Holds (entries ++ more) := by
  induction more generalizing log entries with
  | nil => simpa using holds
  | cons entry rest ih =>
    have next := ih (holds.push entry)
    rwa [List.append_assoc, List.singleton_append] at next

theorem foldl_push_empty_holds (entries : List α) :
    (entries.foldl BoundedLog.push (empty : BoundedLog α capacity)).Holds entries := by
  simpa using empty_holds.foldl entries

theorem Holds.len_pos_iff {log : BoundedLog α capacity} {entries : List α}
    (holds : log.Holds entries) (positive : 0 < capacity) : 0 < log.len ↔ entries ≠ [] := by
  rw [holds.len_eq, ← List.length_pos_iff]
  omega

/-- One text for each index of a list: nothing past its end, and a
separator before every entry but the first. -/
def slotText (separator : String) (render : α → String) (entries : List α) (i : Nat) : String :=
  match entries[i]? with
  | some entry => (if 0 < i then separator else "") ++ render entry
  | none => ""

theorem join_slotText (separator : String) (render : α → String) (entries : List α) (n : Nat) :
    String.join ((List.range n).map (slotText separator render entries)) =
      separator.intercalate ((entries.take n).map render) := by
  induction n with
  | zero => simp
  | succ n ih =>
    rw [List.range_succ, List.map_append, String.join_append, ih]
    by_cases within : n < entries.length
    · rw [List.take_succ_eq_append_getElem within, List.map_append]
      rcases Nat.eq_zero_or_pos n with rfl | positive
      · simp [slotText, List.getElem?_eq_getElem within]
      · have filled : (entries.take n).map render ≠ [] := by
          rw [ne_eq, List.map_eq_nil_iff, List.take_eq_nil_iff, not_or]
          exact ⟨by omega, by rintro rfl; simp at within⟩
        rw [List.map_singleton, List.map_singleton,
          String.intercalate_append_of_ne_nil filled (List.cons_ne_nil _ _)]
        simp [slotText, List.getElem?_eq_getElem within, positive, String.append_assoc]
    · rw [List.take_of_length_le (by omega : entries.length ≤ n),
        List.take_of_length_le (by omega : entries.length ≤ n + 1)]
      simp [slotText, List.getElem?_eq_none (by omega : entries.length ≤ n)]

end BoundedLog
