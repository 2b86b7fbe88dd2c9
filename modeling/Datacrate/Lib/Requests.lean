import Datacrate.Lib.Interaction

namespace Interaction

section

variable {Request : Type} {Response : Request → Type} {α β ε δ : Type}

/-- All requests the program may ever put are allowed. -/
def Program.Issues (allowed : Request → Prop) : Program Response α → Prop
  | .pure _ => True
  | .call request next => allowed request ∧ ∀ response, (next response).Issues allowed

/-- Whatever the responses, at most so many of the counted requests are put. -/
def Program.Within (counted : Request → Bool) : Program Response α → Nat → Prop
  | .pure _, _ => True
  | .call request next, bound =>
    if counted request then 0 < bound ∧ ∀ response, (next response).Within counted (bound - 1)
    else ∀ response, (next response).Within counted bound

/-- A request with its response. -/
abbrev Event (Response : Request → Type) := Σ request, Response request

/-- What a program may put and be told until it has come to the other. -/
inductive Traces : Program Response α → List (Event Response) → Program Response α → Prop
  | stop {program} : Traces program [] program
  | answer {request next response trace rest} : Traces (next response) trace rest →
      Traces (.call request next) (⟨request, response⟩ :: trace) rest

/-- The run against callbacks that share a private state. -/
def Program.execute {σ : Type} (handler : (request : Request) → σ → Response request × σ) :
    Program Response α → σ → List (Event Response) × α
  | .pure result, _ => ([], result)
  | .call request next, s =>
    let answered := handler request s
    let rest := (next answered.1).execute handler answered.2
    (⟨request, answered.1⟩ :: rest.1, rest.2)

/-- What the callbacks are left with at the end of that run, and its result. -/
def Program.outcome {σ : Type} (handler : (request : Request) → σ → Response request × σ) :
    Program Response α → σ → σ × α
  | .pure result, s => (s, result)
  | .call request next, s => (next (handler request s).1).outcome handler (handler request s).2

/-- The program may be answered so that it ends like this. -/
def Program.Ends {σ : Type} (handles : σ → (request : Request) → Response request → σ → Prop) (rely : σ → σ → Prop)
    (s : σ) (program : Program Response α) (t : σ) (result : α) : Prop :=
  Transition.Reachable (s, program) (Interleaved handles rely) (t, .pure result)

end

section Rules

variable {Request : Type} {Response : Request → Type} {α β ε δ : Type} {allowed : Request → Prop}

theorem Program.execute_traces {σ : Type} (handler : (request : Request) → σ → Response request × σ)
    (program : Program Response α) (s : σ) :
    Traces program (program.execute handler s).1 (.pure (program.execute handler s).2) := by
  induction program generalizing s with
  | pure result => exact .stop
  | call request next ih => exact .answer (ih _ _)

/-- Callbacks that respond as the environment may make for a run of it. -/
theorem Program.outcome_reachable {σ : Type} {handler : (request : Request) → σ → Response request × σ}
    {handles : σ → (request : Request) → Response request → σ → Prop} {rely : σ → σ → Prop}
    (handled : ∀ request s, handles s request (handler request s).1 (handler request s).2)
    (program : Program Response α) (s : σ) :
    Transition.Reachable (s, program) (Interleaved handles rely)
      ((program.outcome handler s).1, .pure (program.outcome handler s).2) := by
  induction program generalizing s with
  | pure result => exact .start
  | call request next ih =>
    exact Transition.Reachable.trans (.next .start (.own (.answer (handled request s)))) (ih _ _)

section Outcomes

variable {σ : Type} {handler : (request : Request) → σ → Response request × σ} {s t : σ}

theorem Program.outcome_bind (program : Program Response α) (f : α → Program Response β) (s : σ) :
    (program.bind f).outcome handler s =
      (f (program.outcome handler s).2).outcome handler (program.outcome handler s).1 := by
  induction program generalizing s with
  | pure result => rfl
  | call request next ih => exact ih _ _

theorem Program.outcome_andThen {program : ExceptT ε (Program Response) α}
    {f : α → ExceptT ε (Program Response) β} {result : α}
    (first : Program.outcome handler program s = (t, .ok result)) :
    Program.outcome handler (program >>= f : ExceptT ε (Program Response) β) s = Program.outcome handler (f result) t := by
  refine (Program.outcome_bind program (ExceptT.bindCont f) s).trans ?_
  rw [first]
  rfl

theorem Program.outcome_attempt {program : Program Response (Except δ α)} {rename : δ → ε} {result : α}
    (first : program.outcome handler s = (t, .ok result)) :
    Program.outcome handler (Interaction.attempt program rename) s = (t, .ok result) := by
  refine (Program.outcome_bind program (fun outcome => .pure (outcome.mapError rename)) s).trans ?_
  rw [first]
  rfl

end Outcomes

section Endings

variable {σ τ : Type} {handles : σ → (request : Request) → Response request → σ → Prop} {rely : σ → σ → Prop}
  {s t u : σ}

theorem Program.Ends.ask {request : Request} {response : Response request} (handled : handles s request response t) :
    Program.Ends handles rely s (Interaction.ask request) t response :=
  .next .start (.own (.answer handled))

theorem Program.Ends.bind {program : Program Response α} {f : α → Program Response β} {result : α} {final : β}
    (first : program.Ends handles rely s t result) (rest : (f result).Ends handles rely t u final) :
    (program.bind f).Ends handles rely s u final := by
  refine Transition.Reachable.trans ?_ rest
  refine first.view (fun now => (now.1, now.2.bind f)) rfl fun _ move => Or.inr ?_
  cases move with
  | own answered =>
    cases answered with
    | answer handled => exact .own (.answer handled)
  | others related => exact .others related

theorem Program.Ends.andThen {program : ExceptT ε (Program Response) α} {f : α → ExceptT ε (Program Response) β}
    {result : α} {final : Except ε β} (first : Program.Ends handles rely s program t (.ok result))
    (rest : Program.Ends handles rely t (f result) u final) :
    Program.Ends handles rely s (program >>= f : ExceptT ε (Program Response) β) u final :=
  Program.Ends.bind first rest

theorem Program.Ends.attempt {program : Program Response (Except δ α)} {rename : δ → ε} {result : α}
    (first : program.Ends handles rely s t (.ok result)) :
    Program.Ends handles rely s (Interaction.attempt program rename) t (.ok result) :=
  Program.Ends.bind first .start

/-- A part of a program, answered by a handler within a larger state. -/
theorem Program.Ends.lift {Part : Type} {Reply : Part → Type} {embed : Part → Request}
    {answer : ∀ request, Response (embed request) → Reply request}
    {handler : (request : Part) → τ → Reply request × τ} (put : τ → σ) (kept : τ → Prop)
    (handled : ∀ request now, kept now → kept (handler request now).2 ∧ ∃ response,
      answer request response = (handler request now).1 ∧
        handles (put now) (embed request) response (put (handler request now).2))
    (program : Program Reply α) (now : τ) (here : kept now) :
    kept (program.outcome handler now).1 ∧
      Program.Ends handles rely (put now) (program.lift embed answer) (put (program.outcome handler now).1)
        (program.outcome handler now).2 := by
  induction program generalizing now with
  | pure result => exact ⟨here, .start⟩
  | call request next ih =>
    obtain ⟨later, response, same, granted⟩ := handled request now here
    obtain ⟨still, rest⟩ := ih (handler request now).1 (handler request now).2 later
    unfold Program.outcome
    rw [← same] at rest still ⊢
    exact ⟨still, Transition.Reachable.trans (.next .start (.own (.answer granted))) rest⟩

end Endings

theorem Program.Issues.bind {program : Program Response α} {f : α → Program Response β}
    (first : program.Issues allowed) (rest : ∀ result, (f result).Issues allowed) :
    (program.bind f).Issues allowed := by
  induction program with
  | pure result => exact rest result
  | call request next ih => exact ⟨first.1, fun response => ih response (first.2 response)⟩

theorem Program.Issues.ask {request : Request} (granted : allowed request) :
    (Interaction.ask request : Program Response (Response request)).Issues allowed :=
  ⟨granted, fun _ => trivial⟩

theorem Program.Issues.mono {wider : Request → Prop} {program : Program Response α} (issues : program.Issues allowed)
    (imp : ∀ request, allowed request → wider request) : program.Issues wider := by
  induction program with
  | pure result => trivial
  | call request next ih => exact ⟨imp request issues.1, fun response => ih response (issues.2 response)⟩

theorem Program.Issues.andThen {program : ExceptT ε (Program Response) α} {f : α → ExceptT ε (Program Response) β}
    (first : Program.Issues allowed program) (rest : ∀ result, Program.Issues allowed (f result)) :
    Program.Issues allowed (program >>= f : ExceptT ε (Program Response) β) := by
  refine Program.Issues.bind first fun outcome => ?_
  cases outcome with
  | ok result => exact rest result
  | error failure => trivial

theorem Program.Issues.attempt {program : Program Response (Except δ α)} {rename : δ → ε}
    (first : program.Issues allowed) : Program.Issues allowed (Interaction.attempt program rename) :=
  first.bind fun _ => trivial

theorem Program.Issues.settledThen {outcome : Except δ α} {rename : δ → ε} {f : α → ExceptT ε (Program Response) β}
    (rest : ∀ result, outcome = .ok result → Program.Issues allowed (f result)) :
    Program.Issues allowed
      (Interaction.attempt (Interaction.settled outcome) rename >>= f : ExceptT ε (Program Response) β) := by
  cases outcome with
  | ok result => exact rest result rfl
  | error failure => trivial

/-- What is allowed keeps to the guarantee. -/
theorem Program.Issues.ensures {σ : Type} {handles : σ → (request : Request) → Response request → σ → Prop}
    {rely guarantee : σ → σ → Prop} {program : Program Response α} (issues : program.Issues allowed)
    (within : ∀ {s request response t}, allowed request → handles s request response t → guarantee s t) (s : σ) :
    Ensures handles rely guarantee (fun _ _ => True) program s := by
  induction program generalizing s with
  | pure result => trivial
  | call request next ih =>
    exact fun t _ response u handled => ⟨within issues.1 handled, ih response (issues.2 response) u⟩

theorem Program.Issues.traces {program rest : Program Response α} {trace : List (Event Response)}
    (issues : program.Issues allowed) (traces : Traces program trace rest) : ∀ event ∈ trace, allowed event.1 := by
  induction traces with
  | stop => simp
  | answer _ ih => exact List.forall_mem_cons.mpr ⟨issues.1, ih (issues.2 _)⟩

section Bounds

variable {counted : Request → Bool} {bound more : Nat}

theorem Program.Within.mono {program : Program Response α} (within : program.Within counted bound) (le : bound ≤ more) :
    program.Within counted more := by
  induction program generalizing bound more with
  | pure result => trivial
  | call request next ih =>
    unfold Program.Within at within ⊢
    split
    · rename_i one
      rw [if_pos one] at within
      exact ⟨Nat.lt_of_lt_of_le within.1 le, fun response => ih response (within.2 response) (by omega)⟩
    · rename_i other
      rw [if_neg other] at within
      exact fun response => ih response (within response) le

theorem Program.Within.bind {program : Program Response α} {f : α → Program Response β}
    (first : program.Within counted bound) (rest : ∀ result, (f result).Within counted more) :
    (program.bind f).Within counted (bound + more) := by
  induction program generalizing bound with
  | pure result => exact (rest result).mono (Nat.le_add_left _ _)
  | call request next ih =>
    unfold Program.Within at first
    unfold Program.bind Program.Within
    split
    · rename_i one
      rw [if_pos one] at first
      refine ⟨Nat.add_pos_left first.1 more, fun response => ?_⟩
      rw [Nat.sub_add_comm first.1]
      exact ih response (first.2 response)
    · rename_i other
      rw [if_neg other] at first
      exact fun response => ih response (first response)

theorem Program.Within.andThen {program : ExceptT ε (Program Response) α} {f : α → ExceptT ε (Program Response) β}
    (first : Program.Within counted program bound) (rest : ∀ result, Program.Within counted (f result) more) :
    Program.Within counted (program >>= f : ExceptT ε (Program Response) β) (bound + more) := by
  refine Program.Within.bind first fun outcome => ?_
  cases outcome with
  | ok result => exact rest result
  | error failure => trivial

theorem Program.Within.attempt {program : Program Response (Except δ α)} {rename : δ → ε}
    (first : program.Within counted bound) : Program.Within counted (Interaction.attempt program rename) bound := by
  have whole : Program.Within counted (Interaction.attempt program rename) (bound + 0) := first.bind fun _ => trivial
  exact whole

theorem Program.Within.settledThen {outcome : Except δ α} {rename : δ → ε} {f : α → ExceptT ε (Program Response) β}
    (rest : ∀ result, Program.Within counted (f result) bound) :
    Program.Within counted
      (Interaction.attempt (Interaction.settled outcome) rename >>= f : ExceptT ε (Program Response) β) bound := by
  cases outcome with
  | ok result => exact rest result
  | error failure => trivial

/-- What puts no request of its own takes none of the bound. -/
theorem Program.Within.checked {outcome : Except ε α} {f : α → ExceptT ε (Program Response) β}
    (rest : ∀ result, Program.Within counted (f result) bound) :
    Program.Within counted (Interaction.settled outcome >>= f : ExceptT ε (Program Response) β) bound := by
  cases outcome with
  | ok result => exact rest result
  | error failure => trivial

/-- Nothing counts after this. -/
theorem Program.Within.last {program : ExceptT ε (Program Response) α} {f : α → ExceptT ε (Program Response) β}
    (first : Program.Within counted program bound) (rest : ∀ result, Program.Within counted (f result) 0) :
    Program.Within counted (program >>= f : ExceptT ε (Program Response) β) bound :=
  Program.Within.andThen first rest

/-- A request that counts. -/
theorem Program.Within.one {request : Request} :
    (Interaction.ask request : Program Response (Response request)).Within counted 1 := by
  unfold Interaction.ask Program.Within
  split
  · exact ⟨Nat.one_pos, fun _ => trivial⟩
  · exact fun _ => trivial

/-- A request that does not count. -/
theorem Program.Within.free {request : Request} (other : counted request = false) :
    (Interaction.ask request : Program Response (Response request)).Within counted 0 := by
  unfold Interaction.ask Program.Within
  rw [if_neg (by simp [other])]
  exact fun _ => trivial

theorem Program.Within.traces {program rest : Program Response α} {trace : List (Event Response)}
    (within : program.Within counted bound) (traces : Traces program trace rest) :
    (trace.countP fun event => counted event.1) ≤ bound := by
  induction traces generalizing bound with
  | stop => exact Nat.zero_le _
  | answer _ ih =>
    rename_i request next response trace rest _
    unfold Program.Within at within
    rw [List.countP_cons]
    split at within
    · rename_i one
      have later := ih (within.2 response)
      have positive := within.1
      rw [if_pos one]
      omega
    · rename_i other
      rw [if_neg other]
      exact ih (within response)

end Bounds

theorem Traces.append {program middle rest : Program Response α} {first second : List (Event Response)}
    (before : Traces program first middle) (after : Traces middle second rest) :
    Traces program (first ++ second) rest := by
  induction before with
  | stop => exact after
  | answer _ ih => exact .answer (ih after)

/-- A finished run of a sequence consists of finished runs of its parts. -/
theorem Traces.bind {program : Program Response α} {f : α → Program Response β} {trace : List (Event Response)}
    {result : β} (traces : Traces (program.bind f) trace (.pure result)) :
    ∃ first second middle, trace = first ++ second ∧ Traces program first (.pure middle) ∧
      Traces (f middle) second (.pure result) := by
  induction program generalizing trace with
  | pure middle => exact ⟨[], trace, middle, rfl, .stop, traces⟩
  | call request next ih =>
    generalize whole : (Program.call request next).bind f = start at traces
    cases traces with
    | stop => cases whole
    | answer rest =>
      cases whole
      obtain ⟨first, second, middle, rfl, before, after⟩ := ih _ rest
      exact ⟨_ :: first, second, middle, rfl, .answer before, after⟩

theorem Traces.single {request : Request} {response : Response request} {next : Response request → Program Response α}
    {rest : Program Response α} (same : next response = rest) :
    Traces (.call request next) [⟨request, response⟩] rest :=
  .answer (same ▸ .stop)

theorem Traces.pure {result final : α} {trace : List (Event Response)}
    (traces : Traces (.pure result : Program Response α) trace (.pure final)) : trace = [] ∧ final = result := by
  cases traces
  exact ⟨rfl, rfl⟩

theorem Traces.ask {request : Request} {result : Response request} {trace : List (Event Response)}
    (traces : Traces (Interaction.ask request : Program Response (Response request)) trace (.pure result)) :
    trace = [⟨request, result⟩] := by
  generalize whole : (Interaction.ask request : Program Response (Response request)) = start at traces
  cases traces with
  | stop => cases whole
  | answer rest =>
    cases whole
    obtain ⟨rfl, rfl⟩ := rest.pure
    rfl

theorem Traces.settled {result outcome : Except ε α} {trace : List (Event Response)}
    (traces : Traces (Interaction.settled result : ExceptT ε (Program Response) α) trace (.pure outcome)) :
    trace = [] ∧ outcome = result :=
  traces.pure

theorem Traces.attempt {program : Program Response (Except δ α)} {failed : δ → ε} {outcome : Except ε α}
    {trace : List (Event Response)} (traces : Traces (Interaction.attempt program failed) trace (.pure outcome)) :
    ∃ result, Traces program trace (.pure result) ∧ outcome = result.mapError failed := by
  obtain ⟨first, second, result, rfl, before, after⟩ := Traces.bind traces
  obtain ⟨rfl, rfl⟩ := Traces.pure after
  rw [List.append_nil]
  exact ⟨result, before, rfl⟩

theorem Traces.infallible {program : Program Response α} {outcome : Except ε α} {trace : List (Event Response)}
    (traces : Traces (Interaction.infallible program) trace (.pure outcome)) :
    ∃ result, Traces program trace (.pure result) ∧ outcome = .ok result := by
  obtain ⟨first, second, result, rfl, before, after⟩ := Traces.bind traces
  obtain ⟨rfl, rfl⟩ := Traces.pure after
  rw [List.append_nil]
  exact ⟨result, before, rfl⟩

/-- A finished run of a sequence either fails in its first part or goes on. -/
theorem Traces.andThen {program : ExceptT ε (Program Response) α} {f : α → ExceptT ε (Program Response) β}
    {trace : List (Event Response)} {outcome : Except ε β}
    (traces : Traces (program >>= f : ExceptT ε (Program Response) β) trace (.pure outcome)) :
    (∃ failure, Traces program trace (.pure (.error failure)) ∧ outcome = .error failure) ∨
      ∃ first second middle, trace = first ++ second ∧ Traces program first (.pure (.ok middle)) ∧
        Traces (f middle) second (.pure outcome) := by
  obtain ⟨first, second, middle, rfl, before, after⟩ := Traces.bind traces
  cases middle with
  | ok middle => exact Or.inr ⟨first, second, middle, rfl, before, after⟩
  | error failure =>
    obtain ⟨rfl, rfl⟩ := Traces.pure after
    rw [List.append_nil]
    exact Or.inl ⟨failure, before, rfl⟩

end Rules

end Interaction
