import Datacrate.Lib.Requests
import Mathlib.Logic.Function.Basic

namespace Transition

variable {ι σ κ μ : Type} [DecidableEq ι]

/-- Machines over one state. In each step one of them moves. -/
inductive Together (step : ι → σ → κ → σ → κ → Prop) : σ × (ι → κ) → σ × (ι → κ) → Prop
  | move {s t locals i next} : step i s (locals i) t next →
      Together step (s, locals) (t, Function.update locals i next)

/-- What a view of one machine goes through is a run of its own. -/
theorem Together.member {step : ι → σ → κ → σ → κ → Prop} {s t : σ} {locals rest : ι → κ} {follow : μ → μ → Prop}
    (view : κ → μ) (i : ι)
    (simulates : ∀ {s t here next}, step i s here t next → view next = view here ∨ follow (view here) (view next))
    (reach : Reachable (s, locals) (Together step) (t, rest)) :
    Reachable (view (locals i)) follow (view (rest i)) := by
  refine reach.view (fun now => view (now.2 i)) rfl fun _ moved => ?_
  cases moved with
  | @move _ _ _ j next moves =>
    by_cases same : i = j
    · subst same
      simpa only [Function.update_self] using simulates moves
    · exact Or.inl (by simp only [Function.update_of_ne same])

end Transition

namespace Interaction

variable {ι σ τ Request α : Type} {Response : Request → Type} [DecidableEq ι]

/-- Programs over one state. In each step the environment answers one of
them. -/
inductive Fleet (handles : ι → σ → (request : Request) → Response request → σ → Prop) :
    σ × (ι → Program Response α) → σ × (ι → Program Response α) → Prop
  | answer {s t programs i request next response} : programs i = .call request next →
      handles i s request response t →
      Fleet handles (s, programs) (t, Function.update programs i (next response))

section Rules

variable {handles : ι → σ → (request : Request) → Response request → σ → Prop}
  {s t : σ} {programs rest : ι → Program Response α}

/-- Each member of a fleet runs as it could on its own, with its own view of
the state: its steps are steps there, and those of the others do not show. -/
theorem Fleet.project (start : ι → τ) (alone : ι → τ → (request : Request) → Response request → τ → Prop)
    (sees : ι → σ → τ → Prop) (begins : ∀ i, sees i s (start i))
    (own : ∀ i {u v a request next response},
      Transition.Reachable (start i, programs i) (Answers (alone i)) (a, .call request next) → sees i u a →
      handles i u request response v → ∃ b, alone i a request response b ∧ sees i v b)
    (aside : ∀ i j, i ≠ j → ∀ {u v a b request next response},
      Transition.Reachable (start j, programs j) (Answers (alone j)) (b, .call request next) → sees i u a →
      handles j u request response v → sees i v a)
    (reach : Transition.Reachable (s, programs) (Fleet handles) (t, rest)) (i : ι) :
    ∃ a, Transition.Reachable (start i, programs i) (Answers (alone i)) (a, rest i) ∧ sees i t a := by
  generalize config : (t, rest) = now at reach
  induction reach generalizing t rest i with
  | start =>
    cases config
    exact ⟨start i, .start, begins i⟩
  | next before move ih =>
    subst config
    cases move with
    | @answer u _ members j request next response waits handled =>
      obtain ⟨b, reached, seen⟩ := ih j rfl
      rw [waits] at reached
      by_cases same : i = j
      · subst same
        obtain ⟨c, answered, seen⟩ := own i reached seen handled
        refine ⟨c, ?_, seen⟩
        rw [Function.update_self]
        exact .next reached (.answer answered)
      · obtain ⟨a, mine, view⟩ := ih i rfl
        refine ⟨a, ?_, aside i j same reached view handled⟩
        rw [Function.update_of_ne same]
        exact mine

/-- One member may run to its end while the others wait. -/
theorem Fleet.outcome_reachable {handler : (request : Request) → σ → Response request × σ} (i : ι)
    (handled : ∀ request s, handles i s request (handler request s).1 (handler request s).2) (s : σ) :
    Transition.Reachable (s, programs) (Fleet handles)
      (((programs i).outcome handler s).1, Function.update programs i (.pure ((programs i).outcome handler s).2)) := by
  generalize here : programs i = program
  induction program generalizing s programs with
  | pure result =>
    have same : Function.update programs i (.pure result) = programs := by
      rw [← here, Function.update_eq_self]
    show Transition.Reachable (s, programs) (Fleet handles) (s, Function.update programs i (.pure result))
    rw [same]
    exact .start
  | call request next ih =>
    have rest := @ih (handler request s).1 (Function.update programs i (next (handler request s).1))
      (handler request s).2 (Function.update_self _ _ _)
    rw [Function.update_idem] at rest
    exact .trans (.next .start (.answer here (handled request s))) rest

end Rules

end Interaction
