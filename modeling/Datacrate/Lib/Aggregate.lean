import Mathlib.Data.Multiset.Fold
import Mathlib.Order.Bounds.Basic
import Mathlib.Data.List.Monad

namespace Aggregate

/-- The running state of an aggregate: batches of values are fed to it, it
hands out what it has seen, and it takes in what others have handed out. -/
structure Accumulator (σ β τ : Type) where
  new : σ
  update : σ → β → σ
  state : σ → τ × σ
  merge : σ → List τ → σ

/-- The calls on one accumulator, the newest outermost. A merge takes in
the states of accumulators that have had their own calls. -/
inductive Calls (β : Type) where
  | new
  | update (before : Calls β) (batch : β)
  | state (before : Calls β)
  | merge (before : Calls β) (parts : List (Calls β))

section

variable {σ β τ α : Type}

mutual

def Calls.run (machine : Accumulator σ β τ) : Calls β → σ
  | .new => machine.new
  | .update before batch => machine.update (before.run machine) batch
  | .state before => (machine.state (before.run machine)).2
  | .merge before parts => machine.merge (before.run machine) (states machine parts)

/-- What each of some accumulators hands out. -/
def states (machine : Accumulator σ β τ) : List (Calls β) → List τ
  | [] => []
  | part :: rest => (machine.state (part.run machine)).1 :: states machine rest

end

mutual

/-- All batches fed to an accumulator, or to one whose state has reached it. -/
def Calls.batches : Calls β → List β
  | .new => []
  | .update before batch => before.batches ++ [batch]
  | .state before => before.batches
  | .merge before parts => before.batches ++ batchesOf parts

def batchesOf : List (Calls β) → List β
  | [] => []
  | part :: rest => part.batches ++ batchesOf rest

end

theorem Calls.induction {motive : Calls β → Prop} (new : motive .new)
    (update : ∀ before batch, motive before → motive (.update before batch))
    (state : ∀ before, motive before → motive (.state before))
    (merge : ∀ before parts, motive before → (∀ part ∈ parts, motive part) → motive (.merge before parts)) :
    ∀ calls, motive calls
  | .new => new
  | .update before batch => update before batch (induction new update state merge before)
  | .state before => state before (induction new update state merge before)
  | .merge before parts => merge before parts (induction new update state merge before)
      fun part _ => induction new update state merge part

theorem states_eq_map (machine : Accumulator σ β τ) (parts : List (Calls β)) :
    states machine parts = parts.map fun part => (machine.state (part.run machine)).1 := by
  induction parts with
  | nil => rfl
  | cons part rest ih => rw [states, ih, List.map_cons]

theorem batchesOf_eq_flatMap (parts : List (Calls β)) : batchesOf parts = parts.flatMap Calls.batches := by
  induction parts with
  | nil => rfl
  | cons part rest ih => rw [batchesOf, ih, List.flatMap_cons]

variable (op : α → α → α) (unit : α) [Std.Commutative op] [Std.Associative op] [Std.LawfulIdentity op unit]

/-- The values of a list combined, in any order. -/
def total (values : List α) : α :=
  (values : Multiset α).fold op unit

theorem total_append (front back : List α) :
    total op unit (front ++ back) = op (total op unit front) (total op unit back) := by
  have joined := Multiset.fold_add op unit unit (front : Multiset α) (back : Multiset α)
  have idle : op unit unit = unit := Std.LawfulLeftIdentity.left_id unit
  rwa [idle, Multiset.coe_add] at joined

theorem total_singleton (value : α) : total op unit [value] = value :=
  (Multiset.fold_singleton op unit value).trans (Std.LawfulRightIdentity.right_id value)

theorem total_flatMap {ι : Type} (parts : List ι) (values : ι → List α) :
    total op unit (parts.flatMap values) = total op unit (parts.map fun part => total op unit (values part)) := by
  induction parts with
  | nil => rfl
  | cons part rest ih =>
    rw [List.flatMap_cons, List.map_cons, total_append, ih, ← List.singleton_append, total_append, total_singleton]

/-- A quantity of an accumulator that each call combines with what the call
brings, and that its handed-out state keeps. -/
structure Measures (machine : Accumulator σ β τ) (weight : β → List α) (view : σ → α) (sent : τ → α) : Prop where
  new : view machine.new = unit
  update : ∀ s batch, view (machine.update s batch) = op (view s) (total op unit (weight batch))
  kept : ∀ s, view (machine.state s).2 = view s
  handed : ∀ s, sent (machine.state s).1 = view s
  merge : ∀ s parts, view (machine.merge s parts) = op (view s) (total op unit (parts.map sent))

/-- However the batches are divided among accumulators, and however these
are merged, the quantity is that of all values together. -/
theorem Measures.run {machine : Accumulator σ β τ} {weight : β → List α} {view : σ → α} {sent : τ → α}
    (measures : Measures op unit machine weight view sent) (calls : Calls β) :
    view (calls.run machine) = total op unit (calls.batches.flatMap weight) := by
  induction calls using Calls.induction with
  | new => exact measures.new
  | update before batch ih =>
    rw [Calls.run, measures.update, ih, Calls.batches, List.flatMap_append, total_append, List.flatMap_singleton]
  | state before ih => rw [Calls.run, measures.kept, ih, Calls.batches]
  | merge before parts ih partsIh =>
    have each : ∀ part ∈ parts, sent (machine.state (part.run machine)).1 =
        total op unit (part.batches.flatMap weight) :=
      fun part member => (measures.handed _).trans (partsIh part member)
    rw [Calls.run, measures.merge, ih, Calls.batches, List.flatMap_append, total_append, states_eq_map, List.map_map,
      batchesOf_eq_flatMap, List.flatMap_assoc, total_flatMap op unit parts, ← List.map_congr_left each]
    rfl

end

section Extremes

variable {α : Type} {values : List (Option α)}

theorem setOf_some_mem_cons {value : α} :
    {x | some x ∈ some value :: values} = insert value {x | some x ∈ values} := by
  ext x
  simp

variable [LinearOrder α]

theorem total_min_eq_none_iff : total (Option.merge min) none values = none ↔ ∀ value, some value ∉ values := by
  induction values with
  | nil => simp [total]
  | cons value rest ih =>
    rw [← List.singleton_append, total_append, total_singleton, Option.merge_eq_none_iff, ih]
    cases value with
    | none => simp
    | some value => simpa using ⟨value, fun different => absurd rfl different⟩

theorem isLeast_of_total {least : α} (found : total (Option.merge min) none values = some least) :
    IsLeast {value | some value ∈ values} least := by
  induction values generalizing least with
  | nil => cases found
  | cons value rest ih =>
    rw [← List.singleton_append, total_append, total_singleton] at found
    cases value with
    | none =>
      rw [Option.merge_none_left] at found
      simpa using ih found
    | some value =>
      rw [setOf_some_mem_cons]
      cases others : total (Option.merge min) none rest with
      | none =>
        rw [others] at found
        cases found
        have empty : {x | some x ∈ rest} = ∅ := Set.eq_empty_iff_forall_notMem.mpr (total_min_eq_none_iff.mp others)
        rw [empty, insert_empty_eq]
        exact isLeast_singleton
      | some other =>
        rw [others] at found
        cases found
        exact (ih others).insert value

theorem total_min_eq_some_iff {least : α} :
    total (Option.merge min) none values = some least ↔ IsLeast {value | some value ∈ values} least := by
  refine ⟨isLeast_of_total, fun smallest => ?_⟩
  cases found : total (Option.merge min) none values with
  | none => exact absurd smallest.1 (total_min_eq_none_iff.mp found least)
  | some other => rw [(isLeast_of_total found).unique smallest]

theorem total_max_eq_none_iff : total (Option.merge max) none values = none ↔ ∀ value, some value ∉ values :=
  total_min_eq_none_iff (α := αᵒᵈ)

theorem total_max_eq_some_iff {greatest : α} :
    total (Option.merge max) none values = some greatest ↔ IsGreatest {value | some value ∈ values} greatest :=
  total_min_eq_some_iff (α := αᵒᵈ)

end Extremes

end Aggregate
