import Datacrate.Lib.Aggregate
import Mathlib.Algebra.Order.Ring.Int
import Mathlib.Data.List.ReduceOption

namespace Datacrate.Query

open Aggregate (Accumulator Calls Measures total)

/-- A decimal scalar or null: its unscaled value, digits and scale. -/
structure Decimal128 where
  value : Option Int
  precision : Nat
  scale : Nat
  deriving DecidableEq, Repr

/-- The unscaled values of a decimal array, with its nulls. -/
structure Decimal128Array where
  cells : List (Option Int)
  precision : Nat
  scale : Nat
  deriving DecidableEq, Repr

/-- An unscaled value of at most so many digits. -/
def Fits (precision : Nat) (value : Int) : Prop :=
  value.natAbs < 10 ^ precision

/-- The array of some scalars of one type. -/
def arrayOf (precision scale : Nat) (scalars : List Decimal128) : Decimal128Array :=
  ⟨scalars.map Decimal128.value, precision, scale⟩

structure AmountRangeAccumulator where
  min : Option Int
  max : Option Int
  deriving DecidableEq, Repr

namespace AmountRangeAccumulator

def default : AmountRangeAccumulator :=
  ⟨none, none⟩

/-- The chosen one of the current value and another, or the other alone. -/
def choose (choice : Int → Int → Int) (current : Option Int) (value : Int) : Option Int :=
  some (current.elim value fun current => choice current value)

def updateBatch (self : AmountRangeAccumulator) (amounts : Decimal128Array) : AmountRangeAccumulator :=
  amounts.cells.reduceOption.foldl
    (fun self value => { min := choose Min.min self.min value, max := choose Max.max self.max value }) self

/-- The difference is of `i128`, unchecked. -/
def evaluate (self : AmountRangeAccumulator) : Decimal128 :=
  let range := match self.min, self.max with
    | some min, some max => some (Int.bmod (max - min) (2 ^ 128))
    | _, _ => none
  ⟨range, 11, 2⟩

def state (self : AmountRangeAccumulator) : Decimal128 × Decimal128 :=
  (⟨self.min, 10, 2⟩, ⟨self.max, 10, 2⟩)

def mergeBatch (self : AmountRangeAccumulator) (mins maxes : Decimal128Array) : AmountRangeAccumulator where
  min := mins.cells.reduceOption.foldl (choose Min.min) self.min
  max := maxes.cells.reduceOption.foldl (choose Max.max) self.max

end AmountRangeAccumulator

/-- The aggregate as its engine drives it: the states to be merged arrive as
one array of each field. -/
def amountRange : Accumulator AmountRangeAccumulator Decimal128Array (Decimal128 × Decimal128) where
  new := .default
  update := AmountRangeAccumulator.updateBatch
  state self := (self.state, self)
  merge self states :=
    self.mergeBatch (arrayOf 10 2 (states.map Prod.fst)) (arrayOf 10 2 (states.map Prod.snd))

section

variable (choice : Int → Int → Int)

theorem choose_eq_merge (current : Option Int) (value : Int) :
    AmountRangeAccumulator.choose choice current value = Option.merge choice current (some value) := by
  cases current <;> rfl

variable [Std.Commutative choice] [Std.Associative choice]

/-- Choosing among the values of an array combines them with what is there. -/
theorem foldl_choose (cells : List (Option Int)) (current : Option Int) :
    cells.reduceOption.foldl (AmountRangeAccumulator.choose choice) current =
      Option.merge choice current (total (Option.merge choice) none cells) := by
  induction cells generalizing current with
  | nil => exact Option.merge_none_right.symm
  | cons cell rest ih =>
    rw [← List.singleton_append, Aggregate.total_append, Aggregate.total_singleton]
    cases cell with
    | none =>
      rw [Option.merge_none_left]
      exact ih current
    | some value =>
      have grouped : Option.merge choice (Option.merge choice current (some value)) _ = _ :=
        Std.Associative.assoc current (some value) (total (Option.merge choice) none rest)
      rw [← grouped, ← choose_eq_merge]
      exact ih _

/-- Choosing among a field of some states combines it with what is there. -/
theorem foldl_choose_states {State : Type} (field : State → Decimal128) (states : List State) (current : Option Int) :
    (arrayOf 10 2 (states.map field)).cells.reduceOption.foldl (AmountRangeAccumulator.choose choice) current =
      Option.merge choice current (total (Option.merge choice) none (states.map fun state => (field state).value)) := by
  rw [foldl_choose, arrayOf, List.map_map]
  rfl

end

namespace AmountRangeAccumulator

theorem updateBatch_min (self : AmountRangeAccumulator) (amounts : Decimal128Array) :
    (self.updateBatch amounts).min = amounts.cells.reduceOption.foldl (choose Min.min) self.min :=
  (List.foldl_hom AmountRangeAccumulator.min fun _ _ => rfl).symm

theorem updateBatch_max (self : AmountRangeAccumulator) (amounts : Decimal128Array) :
    (self.updateBatch amounts).max = amounts.cells.reduceOption.foldl (choose Max.max) self.max :=
  (List.foldl_hom AmountRangeAccumulator.max fun _ _ => rfl).symm

end AmountRangeAccumulator

/-- The running minimum of an accumulator is that of all it has been fed. -/
theorem amountRange_min : Measures (Option.merge Min.min) none amountRange Decimal128Array.cells
    AmountRangeAccumulator.min fun sent => sent.1.value where
  new := rfl
  update self amounts := (self.updateBatch_min amounts).trans (foldl_choose _ _ _)
  kept _ := rfl
  handed _ := rfl
  merge self states := foldl_choose_states Min.min Prod.fst states self.min

theorem amountRange_max : Measures (Option.merge Max.max) none amountRange Decimal128Array.cells
    AmountRangeAccumulator.max fun sent => sent.2.value where
  new := rfl
  update self amounts := (self.updateBatch_max amounts).trans (foldl_choose _ _ _)
  kept _ := rfl
  handed _ := rfl
  merge self states := foldl_choose_states Max.max Prod.snd states self.max

/-- The range of some extremes of at most ten digits. -/
theorem evaluate_of_fits {self : AmountRangeAccumulator} {least greatest : Int} (least_eq : self.min = some least)
    (greatest_eq : self.max = some greatest) (small : Fits 10 least) (large : Fits 10 greatest) :
    self.evaluate = ⟨some (greatest - least), 11, 2⟩ := by
  unfold Fits at small large
  rw [AmountRangeAccumulator.evaluate, least_eq, greatest_eq]
  have bounded : Int.bmod (greatest - least) (2 ^ 128) = greatest - least :=
    Int.bmod_eq_of_le (by omega) (by omega)
  simp only [bounded]

/-- Either nothing but nulls has been fed, or the result is that of the
extremes of all that has. -/
theorem evaluate_run (calls : Calls Decimal128Array)
    (within : ∀ amount, some amount ∈ calls.batches.flatMap Decimal128Array.cells → Fits 10 amount) :
    (∀ amount, some amount ∉ calls.batches.flatMap Decimal128Array.cells) ∧
      (calls.run amountRange).evaluate = ⟨none, 11, 2⟩ ∨
    ∃ least greatest, IsLeast {amount | some amount ∈ calls.batches.flatMap Decimal128Array.cells} least ∧
      IsGreatest {amount | some amount ∈ calls.batches.flatMap Decimal128Array.cells} greatest ∧
      (calls.run amountRange).evaluate = ⟨some (greatest - least), 11, 2⟩ := by
  have atMin := amountRange_min.run _ _ calls
  have atMax := amountRange_max.run _ _ calls
  cases smallest : (calls.run amountRange).min with
  | none =>
    rw [smallest] at atMin
    refine Or.inl ⟨Aggregate.total_min_eq_none_iff.mp atMin.symm, ?_⟩
    rw [AmountRangeAccumulator.evaluate, smallest]
  | some least =>
    rw [smallest] at atMin
    have isLeast := Aggregate.total_min_eq_some_iff.mp atMin.symm
    cases largest : (calls.run amountRange).max with
    | none =>
      rw [largest] at atMax
      exact absurd isLeast.1 (Aggregate.total_max_eq_none_iff.mp atMax.symm least)
    | some greatest =>
      rw [largest] at atMax
      have isGreatest := Aggregate.total_max_eq_some_iff.mp atMax.symm
      exact Or.inr ⟨least, greatest, isLeast, isGreatest,
        evaluate_of_fits smallest largest (within least isLeast.1) (within greatest isGreatest.1)⟩

/-- However amounts of ten digits are split into batches and partitions and
however these are merged, the result is the greatest less the least, or null
when there is none, and it has at most eleven digits. -/
theorem amount_range_of_amounts (calls : Calls Decimal128Array) (amounts : Multiset (Option Int))
    (split : (calls.batches.flatMap Decimal128Array.cells : Multiset (Option Int)) = amounts)
    (within : ∀ amount, some amount ∈ amounts → Fits 10 amount) :
    (∀ range, (calls.run amountRange).evaluate.value = some range ↔
      ∃ least greatest, IsLeast {amount | some amount ∈ amounts} least ∧
        IsGreatest {amount | some amount ∈ amounts} greatest ∧ range = greatest - least) ∧
    ((calls.run amountRange).evaluate.value = none ↔ ∀ amount ∈ amounts, amount = none) ∧
    (calls.run amountRange).evaluate.precision = 11 ∧ (calls.run amountRange).evaluate.scale = 2 ∧
    ∀ range, (calls.run amountRange).evaluate.value = some range → Fits 11 range := by
  subst split
  simp only [Multiset.mem_coe] at within ⊢
  rcases evaluate_run calls within with ⟨nulls, result⟩ | ⟨least, greatest, isLeast, isGreatest, result⟩
  · rw [result]
    refine ⟨fun range => ⟨fun impossible => ?_, ?_⟩, ⟨fun _ amount member => ?_, fun _ => rfl⟩, rfl, rfl,
      fun range impossible => ?_⟩
    · cases impossible
    · rintro ⟨least, _, isLeast, _⟩
      exact absurd isLeast.1 (nulls least)
    · cases amount with
      | none => rfl
      | some amount => exact absurd member (nulls amount)
    · cases impossible
  · rw [result]
    have small := within least isLeast.1
    have large := within greatest isGreatest.1
    unfold Fits at small large
    refine ⟨fun range => ⟨fun same => ⟨least, greatest, isLeast, isGreatest, (Option.some.inj same).symm⟩, ?_⟩,
      ⟨fun impossible => ?_, fun nulls => ?_⟩, rfl, rfl, fun range same => ?_⟩
    · rintro ⟨otherLeast, otherGreatest, isOtherLeast, isOtherGreatest, rfl⟩
      rw [isLeast.unique isOtherLeast, isGreatest.unique isOtherGreatest]
    · cases impossible
    · cases nulls _ isLeast.1
    · cases same
      unfold Fits
      omega

/-- Three partitions, one of them empty and one of nulls only. -/
theorem partitions_merged :
    ((Calls.merge (.update .new ⟨[some 45], 10, 2⟩) [.new, .merge .new
      [.update .new ⟨[none, none], 10, 2⟩, .update .new ⟨[some 9999999999, none, some (-9999999999)], 10, 2⟩]]).run
        amountRange).evaluate.value = some 19999999998 :=
  ((amount_range_of_amounts _ {some 45, none, none, some 9999999999, none, some (-9999999999)} rfl
    (by unfold Fits; simp)).1 19999999998).mpr
      ⟨-9999999999, 9999999999, by simp [IsLeast, lowerBounds], by simp [IsGreatest, upperBounds], rfl⟩

end Datacrate.Query
