import Datacrate.Lib.Transition

namespace Interaction

/-- A program that puts requests to its environment and goes on with their
responses. -/
inductive Program {Request : Type} (Response : Request → Type) (α : Type) where
  | pure (result : α)
  | call (request : Request) (next : Response request → Program Response α)

section

variable {Request : Type} {Response : Request → Type} {α β ε δ : Type}

def Program.bind : Program Response α → (α → Program Response β) → Program Response β
  | .pure result, f => f result
  | .call request next, f => .call request fun response => (next response).bind f

instance : Monad (Program Response) where
  pure := .pure
  bind := .bind

/-- One request on its own. -/
def ask (request : Request) : Program Response (Response request) :=
  .call request .pure

/-- An outcome that needs no request. -/
def settled (outcome : Except ε α) : ExceptT ε (Program Response) α :=
  Program.pure outcome

/-- A failing request, under the name the program gives its failures. -/
def attempt (program : Program Response (Except δ α)) (rename : δ → ε) : ExceptT ε (Program Response) α :=
  program.bind fun outcome => .pure (outcome.mapError rename)

/-- A request that cannot fail. -/
def infallible (program : Program Response α) : ExceptT ε (Program Response) α :=
  program.bind fun result => .pure (.ok result)

/-- A program as part of one with more requests. -/
def Program.lift {Wider : Type} {Answer : Wider → Type} (embed : Request → Wider)
    (answer : ∀ request, Answer (embed request) → Response request) : Program Response α → Program Answer α
  | .pure result => .pure result
  | .call request next => .call (embed request) fun response => (next (answer request response)).lift embed answer

end

section

variable {σ Request : Type} {Response : Request → Type}

/-- The environment answers the request the program waits for. -/
inductive Answers {α : Type} (handles : σ → (request : Request) → Response request → σ → Prop) :
    σ × Program Response α → σ × Program Response α → Prop
  | answer {s t : σ} {request next response} : handles s request response t →
      Answers handles (s, .call request next) (t, next response)

/-- The environment answers, or others move within `rely`. -/
inductive Interleaved {α : Type} (handles : σ → (request : Request) → Response request → σ → Prop)
    (rely : σ → σ → Prop) : σ × Program Response α → σ × Program Response α → Prop
  | own {now next} : Answers handles now next → Interleaved handles rely now next
  | others {s t program} : rely s t → Interleaved handles rely (s, program) (t, program)

variable (handles : σ → (request : Request) → Response request → σ → Prop) (rely guarantee : σ → σ → Prop)

/-- From this state on, whatever the environment answers and whatever others
do within `rely` before a request, each step of the program is within
`guarantee` and its result satisfies `post`. -/
def Ensures {α : Type} (post : α → σ → Prop) : Program Response α → σ → Prop
  | .pure result, s => post result s
  | .call request next, s => ∀ t, rely s t → ∀ response u, handles t request response u →
      guarantee t u ∧ Ensures post (next response) u

end

section Rules

variable {σ Request : Type} {Response : Request → Type} {α β ε δ : Type}
  {handles fewer : σ → (request : Request) → Response request → σ → Prop}
  {rely guarantee wider : σ → σ → Prop} {s t : σ}

theorem Ensures.mono {post weaker : α → σ → Prop} {program : Program Response α}
    (ensures : Ensures handles rely guarantee post program s) (imp : ∀ result t, post result t → weaker result t) :
    Ensures handles rely guarantee weaker program s := by
  induction program generalizing s with
  | pure result => exact imp result s ensures
  | call request next ih =>
    intro t related response u handled
    obtain ⟨within, rest⟩ := ensures t related response u handled
    exact ⟨within, ih response rest⟩

/-- An environment that answers less keeps every promise, and what is known
of its answers joins the guarantee. -/
theorem Ensures.restrict {post : α → σ → Prop} {program : Program Response α}
    (ensures : Ensures handles rely guarantee post program s)
    (known : ∀ {s request response t}, fewer s request response t →
      handles s request response t ∧ (guarantee s t → wider s t)) :
    Ensures fewer rely wider post program s := by
  induction program generalizing s with
  | pure result => exact ensures
  | call request next ih =>
    intro t related response u handled
    obtain ⟨handled', more⟩ := known handled
    obtain ⟨within, rest⟩ := ensures t related response u handled'
    exact ⟨more within, ih response rest⟩

/-- A promise about what the program sees of a larger state. -/
theorem Ensures.view {τ : Type} {whole : τ → (request : Request) → Response request → τ → Prop}
    {around : τ → τ → Prop} {post : α → σ → Prop} {program : Program Response α} (view : τ → σ) {s : τ}
    (ensures : Ensures handles rely guarantee post program (view s))
    (handled : ∀ {s request response t}, whole s request response t → handles (view s) request response (view t))
    (related : ∀ {s t}, around s t → rely (view s) (view t)) :
    Ensures whole around (fun s t => guarantee (view s) (view t)) (fun result t => post result (view t)) program s := by
  induction program generalizing s with
  | pure result => exact ensures
  | call request next ih =>
    intro t within response u answered
    obtain ⟨kept, rest⟩ := ensures (view t) (related within) response (view u) (handled answered)
    exact ⟨kept, ih response rest⟩

/-- A promise of a program holds of it as a part of one with more requests, on
what it sees of a larger state. What is known of the answers there joins the
guarantee. -/
theorem Ensures.lift {τ Wider : Type} {Answer : Wider → Type} {embed : Request → Wider}
    {answer : ∀ request, Answer (embed request) → Response request}
    {whole : τ → (request : Wider) → Answer request → τ → Prop} {around extra : τ → τ → Prop}
    {post : α → σ → Prop} {program : Program Response α} (view : τ → σ) {s : τ}
    (ensures : Ensures handles rely guarantee post program (view s))
    (handled : ∀ {s request response t}, whole s (embed request) response t →
      handles (view s) request (answer request response) (view t) ∧ extra s t)
    (related : ∀ {s t}, around s t → rely (view s) (view t)) :
    Ensures whole around (fun s t => guarantee (view s) (view t) ∧ extra s t) (fun result t => post result (view t))
      (program.lift embed answer) s := by
  induction program generalizing s with
  | pure result => exact ensures
  | call request next ih =>
    intro t within response u answered
    obtain ⟨known, more⟩ := handled answered
    obtain ⟨kept, rest⟩ := ensures (view t) (related within) (answer request response) (view u) known
    exact ⟨⟨kept, more⟩, ih (answer request response) rest⟩

/-- An invariant that the guarantee keeps holds all along, and may widen the
guarantee. -/
theorem Ensures.invariant {post : α → σ → Prop} {program : Program Response α}
    (ensures : Ensures handles rely guarantee post program s) (inv : σ → Prop) (base : inv s)
    (stable : ∀ {s t}, inv s → rely s t → inv t)
    (keeps : ∀ {s t}, inv s → guarantee s t → wider s t ∧ inv t) :
    Ensures handles rely wider (fun result t => post result t ∧ inv t) program s := by
  induction program generalizing s with
  | pure result => exact ⟨ensures, base⟩
  | call request next ih =>
    intro t related response u handled
    obtain ⟨within, rest⟩ := ensures t related response u handled
    obtain ⟨within', now⟩ := keeps (stable base related) within
    exact ⟨within', ih response rest now⟩

theorem Ensures.bind {mid : α → σ → Prop} {post : β → σ → Prop} {program : Program Response α}
    {f : α → Program Response β} (first : Ensures handles rely guarantee mid program s)
    (rest : ∀ result t, mid result t → Ensures handles rely guarantee post (f result) t) :
    Ensures handles rely guarantee post (program.bind f) s := by
  induction program generalizing s with
  | pure result => exact rest result s first
  | call request next ih =>
    intro t related response u handled
    obtain ⟨within, more⟩ := first t related response u handled
    exact ⟨within, ih response more⟩

theorem Ensures.ask {request : Request} {post : Response request → σ → Prop}
    (handled : ∀ t, rely s t → ∀ response u, handles t request response u → guarantee t u ∧ post response u) :
    Ensures handles rely guarantee post (ask request) s :=
  handled

/-- A request of a program that nobody interferes with. -/
theorem Ensures.ask_alone {request : Request} {post : Response request → σ → Prop}
    (handled : ∀ response u, handles s request response u → guarantee s u ∧ post response u) :
    Ensures handles Eq guarantee post (Interaction.ask request) s := by
  rintro _ rfl
  exact handled

theorem Ensures.returns {post : Except ε α → σ → Prop} {result : α} (holds : post (.ok result) s) :
    Ensures handles rely guarantee post (pure result : ExceptT ε (Program Response) α) s :=
  holds

/-- Sequencing with early return. -/
theorem Ensures.andThen {mid : Except ε α → σ → Prop} {post : Except ε β → σ → Prop}
    {program : ExceptT ε (Program Response) α} {f : α → ExceptT ε (Program Response) β}
    (first : Ensures handles rely guarantee mid program s)
    (ok : ∀ result t, mid (.ok result) t → Ensures handles rely guarantee post (f result) t)
    (error : ∀ error t, mid (.error error) t → post (.error error) t) :
    Ensures handles rely guarantee post (program >>= f : ExceptT ε (Program Response) β) s := by
  refine Ensures.bind first fun outcome t holds => ?_
  cases outcome with
  | ok result => exact ok result t holds
  | error failure => exact error failure t holds

theorem Ensures.attempt {mid : Except δ α → σ → Prop} {post : Except ε α → σ → Prop}
    {program : Program Response (Except δ α)} {rename : δ → ε}
    (first : Ensures handles rely guarantee mid program s)
    (imp : ∀ outcome t, mid outcome t → post (outcome.mapError rename) t) :
    Ensures handles rely guarantee post (attempt program rename) s :=
  Ensures.bind first imp

/-- A renamed failure ends the sequence. -/
theorem Ensures.attemptThen {mid : Except δ α → σ → Prop} {post : Except ε β → σ → Prop}
    {program : Program Response (Except δ α)} {rename : δ → ε} {f : α → ExceptT ε (Program Response) β}
    (first : Ensures handles rely guarantee mid program s)
    (ok : ∀ result t, mid (.ok result) t → Ensures handles rely guarantee post (f result) t)
    (error : ∀ error t, mid (.error error) t → post (.error (rename error)) t) :
    Ensures handles rely guarantee post
      (Interaction.attempt program rename >>= f : ExceptT ε (Program Response) β) s := by
  have renamed : Ensures handles rely guarantee
      (fun renamed t => ∃ outcome, mid outcome t ∧ renamed = outcome.mapError rename)
      (Interaction.attempt program rename) s := Ensures.attempt first fun outcome _ holds => ⟨outcome, holds, rfl⟩
  refine Ensures.andThen renamed ?_ ?_
  · rintro result t ⟨outcome, holds, same⟩
    cases outcome with
    | ok value =>
      cases same
      exact ok _ t holds
    | error failure => cases same
  · rintro failure t ⟨outcome, holds, same⟩
    cases outcome with
    | ok value => cases same
    | error original =>
      cases same
      exact error original t holds

theorem Ensures.settledThen {post : Except ε β → σ → Prop} {outcome : Except δ α} {rename : δ → ε}
    {f : α → ExceptT ε (Program Response) β}
    (ok : ∀ result, outcome = .ok result → Ensures handles rely guarantee post (f result) s)
    (error : ∀ error, outcome = .error error → post (.error (rename error)) s) :
    Ensures handles rely guarantee post
      (Interaction.attempt (Interaction.settled outcome) rename >>= f : ExceptT ε (Program Response) β) s := by
  cases outcome with
  | ok result => exact ok result rfl
  | error failure => exact error failure rfl

/-- A check that needs no request. -/
theorem Ensures.checked {post : Except ε β → σ → Prop} {outcome : Except ε α}
    {f : α → ExceptT ε (Program Response) β}
    (ok : ∀ result, outcome = .ok result → Ensures handles rely guarantee post (f result) s)
    (error : ∀ error, outcome = .error error → post (.error error) s) :
    Ensures handles rely guarantee post (Interaction.settled outcome >>= f : ExceptT ε (Program Response) β) s := by
  cases outcome with
  | ok result => exact ok result rfl
  | error failure => exact error failure rfl

/-- A promise allows for interference within `rely` at any moment, if its
result does. -/
theorem Ensures.interfere {post : α → σ → Prop} {program : Program Response α}
    (ensures : Ensures handles rely guarantee post program s)
    (trans : ∀ {s t u}, rely s t → rely t u → rely s u)
    (stable : ∀ {result s t}, post result s → rely s t → post result t) (related : rely s t) :
    Ensures handles rely guarantee post program t := by
  cases program with
  | pure result => exact stable ensures related
  | call request next => exact fun u later => ensures u (trans related later)

theorem Answers.handled {program rest : Program Response α} {t : σ}
    (answer : Answers handles (s, program) (t, rest)) : ∃ request response, handles s request response t := by
  cases answer with
  | answer handled => exact ⟨_, _, handled⟩

/-- A promise after one step of the program. -/
theorem Ensures.answer {post : α → σ → Prop} {program rest : Program Response α} {t : σ}
    (ensures : Ensures handles rely guarantee post program s) (refl : rely s s)
    (answer : Answers handles (s, program) (t, rest)) :
    guarantee s t ∧ Ensures handles rely guarantee post rest t := by
  cases answer with
  | answer handled => exact ensures _ refl _ _ handled

/-- What a promise says of the runs of the program on its own. -/
theorem Ensures.reachable {post : α → σ → Prop} {program : Program Response α}
    (ensures : Ensures handles Eq guarantee post program s) {t : σ} {rest : Program Response α}
    (reach : Transition.Reachable (s, program) (Answers handles) (t, rest)) :
    Ensures handles Eq guarantee post rest t ∧ (t = s ∨ ∃ before, guarantee before t) := by
  generalize config : (t, rest) = now at reach
  induction reach generalizing t rest with
  | start =>
    cases config
    exact ⟨ensures, Or.inl rfl⟩
  | next before move ih =>
    subst config
    obtain ⟨within, rest⟩ := (ih rfl).1.answer rfl move
    exact ⟨rest, Or.inr ⟨_, within⟩⟩

/-- What a promise says of the runs of the program among others. -/
theorem Ensures.interleaved {post : α → σ → Prop} {program : Program Response α}
    (ensures : Ensures handles rely guarantee post program s) (refl : ∀ s, rely s s)
    (trans : ∀ {s t u}, rely s t → rely t u → rely s u)
    (stable : ∀ {result s t}, post result s → rely s t → post result t) {t : σ} {rest : Program Response α}
    (reach : Transition.Reachable (s, program) (Interleaved handles rely) (t, rest)) :
    Ensures handles rely guarantee post rest t ∧ ∃ last, (last = s ∨ ∃ before, guarantee before last) ∧ rely last t := by
  generalize config : (t, rest) = now at reach
  induction reach generalizing t rest with
  | start =>
    cases config
    exact ⟨ensures, _, Or.inl rfl, refl _⟩
  | next before move ih =>
    subst config
    cases move with
    | own answer =>
      obtain ⟨within, rest⟩ := (ih rfl).1.answer (refl _) answer
      exact ⟨rest, _, Or.inr ⟨_, within⟩, refl _⟩
    | others related =>
      obtain ⟨now, last, arrived, since⟩ := ih rfl
      exact ⟨now.interfere trans stable related, last, arrived, trans since related⟩

end Rules

end Interaction
