import Mathlib.Data.List.Basic

namespace Datacrate.Query

/-- The integer scalars, each of which may be null. -/
inductive ScalarValue where
  | int8 (value : Option Int8)
  | int16 (value : Option Int16)
  | int32 (value : Option Int32)
  | int64 (value : Option Int64)
  | uint8 (value : Option UInt8)
  | uint16 (value : Option UInt16)
  | uint32 (value : Option UInt32)
  | uint64 (value : Option UInt64)
  deriving DecidableEq

/-- An integer literal with its metadata, or any other expression. -/
inductive Expr (Computed Metadata : Type) where
  | literal (value : ScalarValue) (metadata : Option Metadata)
  | computed (expression : Computed)
  deriving DecidableEq

/-- A plan whose root is a limit, or whose root is any other node. -/
inductive LogicalPlan (Node Computed Metadata : Type) where
  | limit (skip fetch : Option (Expr Computed Metadata)) (input : LogicalPlan Node Computed Metadata)
  | other (node : Node)
  deriving DecidableEq

structure Transformed (α : Type) where
  data : α
  transformed : Bool
  deriving DecidableEq

inductive ConfigurationError where
  | configuration (message : String)
  deriving DecidableEq, Repr

/-- A cap on the rows of a result. -/
structure MaxRowsGuardrail where
  maxRows : Int64
  nonnegative : 0 ≤ maxRows

section

variable {Node Computed Metadata Row : Type}

def lit (value : Int64) : Expr Computed Metadata :=
  .literal (.int64 (some value)) none

/-- Whether an expression is a literal of this one type. -/
def Expr.isInt64 : Expr Computed Metadata → Bool
  | .literal (.int64 _) _ => true
  | _ => false

namespace MaxRowsGuardrail

def new (maxRows : Int64) : Except ConfigurationError MaxRowsGuardrail :=
  if negative : maxRows < 0 then .error (.configuration "result cap must be nonnegative")
  else .ok ⟨maxRows, Int64.not_lt.mp negative⟩

def alreadyCapped (self : MaxRowsGuardrail) : Option (Expr Computed Metadata) → Bool
  | some (.literal (.int64 (some n)) _) => n ≤ self.maxRows
  | _ => false

def rewrite (self : MaxRowsGuardrail) (plan : LogicalPlan Node Computed Metadata) :
    Transformed (LogicalPlan Node Computed Metadata) :=
  match plan with
  | .limit skip fetch input =>
    if self.alreadyCapped fetch then ⟨plan, false⟩
    else ⟨.limit skip (some (lit self.maxRows)) input, true⟩
  | .other _ => ⟨.limit none (some (lit self.maxRows)) plan, true⟩

/-- The cap as a number of rows. -/
def cap (self : MaxRowsGuardrail) : Nat :=
  self.maxRows.toInt.toNat

end MaxRowsGuardrail

/-- What a limit leaves of its input's rows, when its expressions give
numbers: without a number nothing is skipped and all is fetched. -/
def limited (number : Expr Computed Metadata → Option (Option Nat)) (skip fetch : Option (Expr Computed Metadata))
    (rows : List Row) : Option (List Row) := do
  let start ← skip.elim (some none) number
  let count ← fetch.elim (some none) number
  let rest := rows.drop (start.getD 0)
  some (count.elim rest rest.take)

/-- A query engine, as far as limits are concerned: the rows of a plan that
can be run, and the number an expression gives a limit, which may be null. A
negative number is refused. -/
structure Engine (Node Computed Metadata Row : Type) where
  output : LogicalPlan Node Computed Metadata → Option (List Row)
  number : Expr Computed Metadata → Option (Option Nat)
  number_null : ∀ metadata, number (.literal (.int64 none) metadata) = some none
  number_int64 : ∀ n metadata, number (.literal (.int64 (some n)) metadata) =
    if 0 ≤ n then some (some n.toInt.toNat) else none
  output_limit : ∀ skip fetch input, output (.limit skip fetch input) = (output input).bind (limited number skip fetch)

def LogicalPlan.skip : LogicalPlan Node Computed Metadata → Option (Expr Computed Metadata)
  | .limit skip _ _ => skip
  | .other _ => none

/-- What the rule is for: the first rows of a plan's result up to the cap,
under the plan's own offset, once and for all. -/
structure Guards (engine : Engine Node Computed Metadata Row) (rule : MaxRowsGuardrail)
    (plan : LogicalPlan Node Computed Metadata) : Prop where
  rows : engine.output (rule.rewrite plan).data = (engine.output plan).map (List.take rule.cap)
  skip : (rule.rewrite plan).data.skip = plan.skip
  stable : rule.rewrite (rule.rewrite plan).data = ⟨(rule.rewrite plan).data, false⟩

/-- A fetch that is no `Int64` literal asks for no fewer rows than the cap
and than there are. -/
def LimitSeen (engine : Engine Node Computed Metadata Row) (rule : MaxRowsGuardrail)
    (plan : LogicalPlan Node Computed Metadata) : Prop :=
  ∀ skip fetch input rows, plan = .limit skip (some fetch) input → fetch.isInt64 = false →
    engine.output (.limit skip none input) = some rows →
      engine.number fetch = some none ∨
      ∃ count, engine.number fetch = some (some count) ∧ (rule.cap ≤ count ∨ rows.length ≤ count)

theorem take_take_eq_take_iff {rows : List Row} {count cap : Nat} :
    (rows.take count).take cap = rows.take cap ↔ cap ≤ count ∨ rows.length ≤ count := by
  constructor
  · intro same
    have lengths := congrArg List.length same
    simp only [List.length_take] at lengths
    omega
  · rintro (least | short)
    · rw [List.take_take, Nat.min_eq_left least]
    · rw [List.take_of_length_le short]

section

variable (engine : Engine Node Computed Metadata Row) (rule : MaxRowsGuardrail)

theorem MaxRowsGuardrail.rewrite_stable (plan : LogicalPlan Node Computed Metadata) :
    rule.rewrite (rule.rewrite plan).data = ⟨(rule.rewrite plan).data, false⟩ := by
  have capped : rule.alreadyCapped (some (lit rule.maxRows : Expr Computed Metadata)) = true :=
    decide_eq_true (Int64.le_refl rule.maxRows)
  cases plan with
  | other node => exact if_pos capped
  | limit skip fetch input =>
    by_cases already : rule.alreadyCapped fetch = true
    · simp only [rewrite, already, if_true]
    · simp only [rewrite, already, Bool.false_eq_true, if_false, capped, if_true]

theorem MaxRowsGuardrail.rewrite_skip (plan : LogicalPlan Node Computed Metadata) :
    (rule.rewrite plan).data.skip = plan.skip := by
  cases plan with
  | other node => rfl
  | limit skip fetch input =>
    unfold rewrite
    dsimp only
    split <;> rfl

theorem toNat_mono {n m : Int64} (le : n ≤ m) : n.toInt.toNat ≤ m.toInt.toNat :=
  Int.toNat_le_toNat (Int64.le_iff_toInt_le.mp le)

theorem Engine.number_lit : engine.number (lit rule.maxRows) = some (some rule.cap) := by
  rw [lit, engine.number_int64, if_pos rule.nonnegative]
  rfl

theorem MaxRowsGuardrail.alreadyCapped_of_unseen {fetch : Expr Computed Metadata} (unseen : fetch.isInt64 = false) :
    rule.alreadyCapped (some fetch) = false := by
  rcases fetch with ⟨value, metadata⟩ | expression
  · cases value with
    | int64 => cases unseen
    | _ => rfl
  · rfl

/-- A fetch is taken of what the limit without it leaves. -/
theorem Engine.output_fetch (skip : Option (Expr Computed Metadata)) (fetch : Expr Computed Metadata)
    (input : LogicalPlan Node Computed Metadata) :
    engine.output (.limit skip (some fetch) input) = (engine.output (.limit skip none input)).bind fun rows =>
      (engine.number fetch).map fun count => count.elim rows rows.take := by
  rw [engine.output_limit, engine.output_limit, Option.bind_assoc]
  refine Option.bind_congr fun rows _ => ?_
  unfold limited
  cases skip.elim (some none) engine.number with
  | none => rfl
  | some start => cases number : engine.number fetch <;> simp [number]

theorem Engine.output_capped (skip : Option (Expr Computed Metadata)) (input : LogicalPlan Node Computed Metadata) :
    engine.output (.limit skip (some (lit rule.maxRows)) input) =
      (engine.output (.limit skip none input)).map (List.take rule.cap) := by
  rw [engine.output_fetch, engine.number_lit]
  cases engine.output (.limit skip none input) <;> rfl

theorem Engine.output_unlimited (input : LogicalPlan Node Computed Metadata) :
    engine.output (.limit none none input) = engine.output input := by
  rw [engine.output_limit]
  cases engine.output input <;> rfl

theorem MaxRowsGuardrail.output_other (node : Node) :
    engine.output (rule.rewrite (.other node : LogicalPlan Node Computed Metadata)).data =
      (engine.output (.other node)).map (List.take rule.cap) :=
  (engine.output_capped rule none _).trans (by rw [engine.output_unlimited])

theorem MaxRowsGuardrail.output_unfetched (skip : Option (Expr Computed Metadata))
    (input : LogicalPlan Node Computed Metadata) :
    engine.output (rule.rewrite (.limit skip none input)).data =
      (engine.output (.limit skip none input)).map (List.take rule.cap) :=
  engine.output_capped rule skip input

/-- A fetch that is replaced by the cap was to ask for enough. -/
theorem MaxRowsGuardrail.output_replaced (skip : Option (Expr Computed Metadata)) {fetch : Expr Computed Metadata}
    (input : LogicalPlan Node Computed Metadata) (replaced : rule.alreadyCapped (some fetch) = false) :
    engine.output (rule.rewrite (.limit skip (some fetch) input)).data =
        (engine.output (.limit skip (some fetch) input)).map (List.take rule.cap) ↔
      ∀ rows, engine.output (.limit skip none input) = some rows → engine.number fetch = some none ∨
        ∃ count, engine.number fetch = some (some count) ∧ (rule.cap ≤ count ∨ rows.length ≤ count) := by
  have rewritten : (rule.rewrite (.limit skip (some fetch) input)).data = .limit skip (some (lit rule.maxRows)) input := by
    rw [rewrite, replaced, if_neg Bool.false_ne_true]
  rw [rewritten, engine.output_capped, engine.output_fetch]
  cases engine.output (.limit skip none input) with
  | none => simp
  | some rows =>
    cases engine.number fetch with
    | none => simp
    | some count =>
      cases count with
      | none => simp
      | some count => simp [← take_take_eq_take_iff, eq_comm]

/-- Any `Int64` literal is treated right: one within the cap stays, also a
negative one that no engine runs, and any other asks for enough. -/
theorem MaxRowsGuardrail.output_int64 (skip : Option (Expr Computed Metadata)) {fetch : Expr Computed Metadata}
    (input : LogicalPlan Node Computed Metadata) (seen : fetch.isInt64 = true) :
    engine.output (rule.rewrite (.limit skip (some fetch) input)).data =
      (engine.output (.limit skip (some fetch) input)).map (List.take rule.cap) := by
  rcases fetch with ⟨value, metadata⟩ | expression
  · cases value with
    | int64 value =>
      cases value with
      | none => exact (rule.output_replaced engine skip input rfl).mpr fun _ _ => Or.inl (engine.number_null metadata)
      | some n =>
        by_cases within : n ≤ rule.maxRows
        · have kept : (rule.rewrite (.limit skip (some (.literal (.int64 (some n)) metadata)) input)).data =
              .limit skip (some (.literal (.int64 (some n)) metadata)) input := by
            rw [rewrite, alreadyCapped, decide_eq_true within, if_pos rfl]
          rw [kept, engine.output_fetch, engine.number_int64]
          cases engine.output (.limit skip none input) with
          | none => rfl
          | some rows =>
            by_cases positive : 0 ≤ n
            · have bound : n.toInt.toNat ≤ rule.cap := toNat_mono within
              simp only [if_pos positive, Option.map_some, Option.bind_some, Option.elim_some, List.take_take]
              rw [Nat.min_eq_right bound]
            · simp [positive]
        · have large := Int64.le_of_lt (Int64.not_le.mp within)
          have count := (engine.number_int64 n metadata).trans (if_pos (Int64.le_trans rule.nonnegative large))
          refine (rule.output_replaced engine skip input ?_).mpr fun rows _ => Or.inr ⟨_, count, Or.inl ?_⟩
          · rw [alreadyCapped, decide_eq_false within]
          · exact toNat_mono large
    | _ => cases seen
  · cases seen

/-- The rule keeps its promise on a plan exactly when the plan's own limit
is none that it misses: an `Int64` literal, or enough rows anyway. -/
theorem guards_iff (plan : LogicalPlan Node Computed Metadata) :
    Guards engine rule plan ↔ LimitSeen engine rule plan := by
  constructor
  · rintro guards skip fetch input rows rfl unseen left
    exact (rule.output_replaced engine skip input (rule.alreadyCapped_of_unseen unseen)).mp guards.rows rows left
  · intro seen
    refine ⟨?_, rule.rewrite_skip plan, rule.rewrite_stable plan⟩
    cases plan with
    | other node => exact rule.output_other engine node
    | limit skip fetch input =>
      cases fetch with
      | none => exact rule.output_unfetched engine skip input
      | some fetch =>
        cases literal : fetch.isInt64 with
        | true => exact rule.output_int64 engine skip input literal
        | false =>
          exact (rule.output_replaced engine skip input (rule.alreadyCapped_of_unseen literal)).mpr
            fun rows left => seen skip fetch input rows rfl literal left

end

end

section

variable {Node Computed Metadata Row : Type} (tables : Node → Option (List Row)) (evaluate : Computed → Option ScalarValue)

def ScalarValue.toInt : ScalarValue → Option Int
  | .int8 value => value.map Int8.toInt
  | .int16 value => value.map Int16.toInt
  | .int32 value => value.map Int32.toInt
  | .int64 value => value.map Int64.toInt
  | .uint8 value => value.map fun n => n.toNat
  | .uint16 value => value.map fun n => n.toNat
  | .uint32 value => value.map fun n => n.toNat
  | .uint64 value => value.map fun n => n.toNat

def ScalarValue.number (value : ScalarValue) : Option (Option Nat) :=
  match value.toInt with
  | none => some none
  | some n => if 0 ≤ n then some (some n.toNat) else none

def numberOf : Expr Computed Metadata → Option (Option Nat)
  | .literal value _ => value.number
  | .computed expression => (evaluate expression).bind ScalarValue.number

def outputOf : LogicalPlan Node Computed Metadata → Option (List Row)
  | .limit skip fetch input => (outputOf input).bind (limited (numberOf evaluate) skip fetch)
  | .other node => tables node

/-- The engine that gives every integer its value, over the rows of other
nodes and the values of other expressions. -/
def Engine.of : Engine Node Computed Metadata Row where
  output := outputOf tables evaluate
  number := numberOf evaluate
  number_null _ := rfl
  number_int64 n _ := by
    unfold numberOf ScalarValue.number
    simp only [ScalarValue.toInt, Option.map_some, Int64.le_iff_toInt_le, Int64.toInt_zero]
  output_limit _ _ _ := rfl

end

/-- A limit of three `Int32` rows becomes one of five. -/
theorem int32_limit_widened :
    ¬ Guards (Engine.of some fun _ : Unit => none) ⟨5, by decide⟩
      (.limit none (some (.literal (.int32 (some 3)) (none : Option Unit))) (.other [1, 2, 3, 4, 5, 6, 7, 8])) :=
  fun guards => absurd guards.rows (by decide)

end Datacrate.Query
