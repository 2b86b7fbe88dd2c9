import Mathlib.Data.List.Induction

namespace Transition

variable {σ τ : Type*}

inductive Reachable (start : σ) (step : σ → σ → Prop) : σ → Prop
  | start : Reachable start step start
  | next {s t} : Reachable start step s → step s t → Reachable start step t

/-- A run, as the states it has passed through with the newest one first. -/
inductive Run (start : σ) (step : σ → σ → Prop) : List σ → Prop
  | start : Run start step [start]
  | next {s t past} : Run start step (s :: past) → step s t → Run start step (t :: s :: past)

/-- A machine whose steps are told by events, started and told these. -/
def Leads {ε : Type*} (step : σ → ε → Option σ) (start : σ) (events : List ε) (s : σ) : Prop :=
  events.foldlM step start = some s

/-- Every run from here that is not cut short arrives at the goal. -/
inductive Inevitable (step : σ → σ → Prop) (goal : σ → Prop) : σ → Prop
  | now {s} : goal s → Inevitable step goal s
  | next {s t} : step s t → (∀ {t}, step s t → Inevitable step goal t) → Inevitable step goal s

section Runs

variable {start : σ} {step : σ → σ → Prop} {s t : σ}

/-- What holds at the start and is kept by every step holds throughout. A
step may rely on what is already known of reachable states. -/
theorem Reachable.invariant (reach : Reachable start step s) (inv : σ → Prop) (base : inv start)
    (keeps : ∀ {s t}, Reachable start step s → inv s → step s t → inv t) : inv s := by
  induction reach with
  | start => exact base
  | next before move ih => exact keeps before ih move

theorem Reachable.trans (reach : Reachable start step s) (later : Reachable s step t) : Reachable start step t := by
  induction later with
  | start => exact reach
  | next _ move ih => exact .next ih move

theorem Run.reachable {past : List σ} (run : Run start step (s :: past)) : Reachable start step s := by
  generalize history : s :: past = states at run
  induction run generalizing s past with
  | start =>
    cases history
    exact .start
  | next _ move ih =>
    cases history
    exact .next (ih rfl) move

/-- A mark that every step raises to the current load is the greatest load
of the run. -/
theorem Run.mark_eq_max {past : List σ} (run : Run start step (s :: past)) (load mark : σ → Nat)
    (base : mark start = load start)
    (raises : ∀ {s t}, Reachable start step s → step s t → mark t = max (load t) (mark s)) :
    mark s = ((s :: past).map load).foldr max 0 := by
  generalize history : s :: past = states at run
  induction run generalizing s past with
  | start =>
    cases history
    simp [base]
  | next before move ih =>
    cases history
    rw [List.map_cons, List.foldr_cons, ← ih rfl, raises before.reachable move]

/-- A view that follows another machine, perhaps with idle steps, sees only
states that machine can reach. -/
theorem Reachable.view {first : τ} {follow : τ → τ → Prop} (view : σ → τ)
    (base : view start = first)
    (simulates : ∀ {s t}, Reachable start step s → step s t → view t = view s ∨ follow (view s) (view t))
    (reach : Reachable start step s) : Reachable first follow (view s) := by
  induction reach with
  | start => exact base ▸ .start
  | next before move ih =>
    rcases simulates before move with same | moves
    · rwa [same]
    · exact .next ih moves

theorem Reachable.mono {follow : σ → σ → Prop} (weaker : ∀ {s t}, step s t → follow s t)
    (reach : Reachable start step s) : Reachable start follow s :=
  reach.view id rfl fun _ move => Or.inr (weaker move)

/-- A machine that is never stuck before its goal, and whose steps of work
lower a measure, arrives by work alone. -/
theorem Reachable.inevitable {work : σ → σ → Prop} {goal : σ → Prop} (measure : σ → Nat)
    (included : ∀ {s t}, work s t → step s t)
    (moves : ∀ {s}, Reachable start step s → goal s ∨ ∃ t, work s t)
    (lowers : ∀ {s t}, Reachable start step s → work s t → measure t < measure s)
    (reach : Reachable start step s) : Inevitable work goal s := by
  induction size : measure s using Nat.strongRecOn generalizing s with
  | _ n ih =>
    subst size
    rcases moves reach with arrived | ⟨t, move⟩
    · exact .now arrived
    · exact .next move fun follows => ih _ (lowers reach follows) (.next reach (included follows)) rfl

theorem Inevitable.imp {goal weaker : σ → Prop} (implies : ∀ {s}, goal s → weaker s) (sure : Inevitable step goal s) :
    Inevitable step weaker s := by
  induction sure with
  | now arrived => exact .now (implies arrived)
  | next move _ ih => exact .next move ih

/-- What is inevitable happens on some run. -/
theorem Inevitable.occurs {goal : σ → Prop} (sure : Inevitable step goal s) (reach : Reachable start step s) :
    ∃ t, Reachable start step t ∧ goal t := by
  induction sure with
  | now arrived => exact ⟨_, reach, arrived⟩
  | next move _ ih => exact ih move (.next reach move)

/-- What holds at the start and is kept by every event holds after all. -/
theorem Leads.invariant {ε : Type*} {step : σ → ε → Option σ} {events : List ε} (leads : Leads step start events s)
    (inv : List ε → σ → Prop) (base : inv [] start)
    (keeps : ∀ {past s event t}, inv past s → step s event = some t → inv (past ++ [event]) t) : inv events s := by
  induction events using List.reverseRecOn generalizing s with
  | nil =>
    cases leads
    exact base
  | append_singleton past event ih =>
    rw [Leads, List.foldlM_append, Option.bind_eq_bind, Option.bind_eq_some_iff] at leads
    obtain ⟨before, led, told⟩ := leads
    rw [List.foldlM_cons, Option.bind_eq_bind, Option.bind_eq_some_iff] at told
    obtain ⟨after, moved, ended⟩ := told
    cases ended
    exact keeps (ih led) moved

end Runs

end Transition
