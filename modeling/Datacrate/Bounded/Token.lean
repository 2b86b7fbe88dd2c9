import Datacrate.Bounded.System

namespace Datacrate.Bounded

/-- Where a call of `cancel` is: before it sets the flag, before it drains the
registry, or with the drained controls it has not cancelled yet. -/
inductive Cancelling where
  | store
  | drain
  | visit (controls : List Nat)
  deriving DecidableEq

/-- Where a call of `register` is. -/
inductive Registering where
  | push
  | check
  | cancel
  | done
  deriving DecidableEq

inductive Call where
  | cancel (phase : Cancelling)
  | register (control : Nat) (phase : Registering)
  deriving DecidableEq

def Call.finished : Call → Bool
  | .cancel phase => phase = .visit []
  | .register _ phase => phase = .done

/-- A token: its flag, its registry of weak references to controls, which
controls are still alive, and their transports. -/
structure CancellationToken (β ε : Type) where
  cancelled : Bool
  transports : List Nat
  alive : Nat → Bool
  system : Nat → System β ε

section

variable {β ε : Type}

def CancellationToken.set (token : CancellationToken β ε) (c : Nat) (system : System β ε) : CancellationToken β ε :=
  { token with system := fun other => if other = c then system else token.system other }

variable (memorySizes : β → List Nat) (control : Nat → Control)

/-- One step of a call. -/
inductive CallStep : CancellationToken β ε → Call → CancellationToken β ε → Call → Prop
  | store {token : CancellationToken β ε} :
      CallStep token (.cancel .store) { token with cancelled := true } (.cancel .drain)
  | drain {token : CancellationToken β ε} :
      CallStep token (.cancel .drain) { token with transports := [] }
        (.cancel (.visit (token.transports.filter token.alive)))
  | visit {token : CancellationToken β ε} {c rest system} :
      Step memorySizes (control c) (token.system c) .cancel system →
      CallStep token (.cancel (.visit (c :: rest))) (token.set c system) (.cancel (.visit rest))
  | push {token : CancellationToken β ε} {c} :
      CallStep token (.register c .push)
        { token with transports := token.transports.filter token.alive ++ [c] } (.register c .check)
  | check {token : CancellationToken β ε} {c} :
      CallStep token (.register c .check) token (.register c (if token.cancelled then .cancel else .done))
  | cancel {token : CancellationToken β ε} {c system} :
      Step memorySizes (control c) (token.system c) .cancel system →
      CallStep token (.register c .cancel) (token.set c system) (.register c .done)

/-- A step of a token with the calls made on it so far. Calls may begin, a
transport may take any step of its own, and a control may be dropped. -/
inductive TokenStep : CancellationToken β ε × List Call → CancellationToken β ε × List Call → Prop
  | call {token token' : CancellationToken β ε} {before call call' after} :
      CallStep memorySizes control token call token' call' →
      TokenStep (token, before ++ call :: after) (token', before ++ call' :: after)
  | beginCancel {token calls} : TokenStep (token, calls) (token, calls ++ [.cancel .store])
  | beginRegister {token calls c} : TokenStep (token, calls) (token, calls ++ [.register c .push])
  | transport {token calls c action system} : Step memorySizes (control c) (token.system c) action system →
      action ≠ .cancel → TokenStep (token, calls) (token.set c system, calls)
  | drop {token calls c} : TokenStep (token, calls)
      ({ token with alive := fun other => token.alive other && other != c }, calls)

/-- The transport of this control has been cancelled. -/
def CancellationToken.Cancelled (token : CancellationToken β ε) (c : Nat) : Prop :=
  (token.system c).state.cancelled = true

/-- A token before any call, with transports that nobody has cancelled. -/
structure CancellationToken.New (token : CancellationToken β ε) : Prop where
  flag : token.cancelled = false
  transports : token.transports = []
  system : ∀ c, ¬ token.Cancelled c

/-- Once a control is in the registry, its cancellation has taken place or is
still to come: from a call that drained it, from its own registration, or from
one that sets the flag before the drain. -/
def Caught (token : CancellationToken β ε) (calls : List Call) (c : Nat) (phase : Registering) : Prop :=
  token.Cancelled c ∨ (∃ controls, .cancel (.visit controls) ∈ calls ∧ c ∈ controls) ∨ phase = .cancel ∨
    c ∈ token.transports ∧ (token.cancelled = false ∨ phase = .check ∨ .cancel .drain ∈ calls)

structure Watched (token : CancellationToken β ε) (calls : List Call) : Prop where
  stored : ∀ phase, .cancel phase ∈ calls → phase ≠ .store → token.cancelled = true
  asked : token.cancelled = true → ∃ phase, .cancel phase ∈ calls
  flagged : ∀ c, token.Cancelled c → token.cancelled = true
  saw : ∀ c, .register c .cancel ∈ calls → token.cancelled = true
  caught : ∀ c phase, .register c phase ∈ calls → phase ≠ .push → token.alive c = true → Caught token calls c phase

end

section Steps

variable {β ε : Type} {memorySizes : β → List Nat} {control : Nat → Control} {token token' : CancellationToken β ε}

/-- A transport leaves its own cancellation flag alone in all other steps. -/
theorem Step.cancelled_kept {config : Control} {s t : System β ε} {action : Action β ε}
    (step : Step memorySizes config s action t) (other : action ≠ .cancel) :
    t.state.cancelled = s.state.cancelled := by
  cases step with
  | cancel => exact absurd rfl other
  | enqueue _ _ enqueued =>
    obtain ⟨_, same⟩ := (enqueue_eq_some_iff ..).mp enqueued
    exact (congrArg State.cancelled same :)
  | take _ taken =>
    obtain ⟨_, _, _, same⟩ := reception_message_iff.mp taken
    exact (congrArg State.cancelled same :)
  | await _ waits =>
    obtain ⟨_, _, _, same⟩ := reception_wait_iff.mp waits
    exact (congrArg State.cancelled same :)
  | transform _ done | failTransform _ done => exact (congrArg State.cancelled (transform_frame done) :)
  | dropLease _ released | expire _ released | discard _ released =>
    obtain ⟨_, same⟩ := release_eq_some_iff.mp released
    exact (congrArg State.cancelled same :)
  | refuse | send | close | park | acknowledge | wakeSender | dropSender | recv | interrupt | finish | wakeReceiver
  | dropReceiver | discardError | overflow => rfl

theorem Step.cancels {config : Control} {s t : System β ε} (step : Step memorySizes config s .cancel t) :
    t.state.cancelled = true := by
  cases step with
  | cancel => rfl
  | overflow overflows => exact overflows.elim

/-- A transport that has been cancelled stays so. -/
theorem Step.stays_cancelled {config : Control} {s t : System β ε} {action : Action β ε}
    (step : Step memorySizes config s action t) (cancelled : s.state.cancelled = true) : t.state.cancelled = true := by
  by_cases cancel : action = .cancel
  · subst cancel
    exact step.cancels
  · exact (step.cancelled_kept cancel).trans cancelled

theorem CancellationToken.set_self {c : Nat} {system : System β ε} :
    (token.set c system).Cancelled c ↔ system.state.cancelled = true := by
  simp [CancellationToken.Cancelled, CancellationToken.set]

theorem CancellationToken.set_other {c d : Nat} {system : System β ε} (other : d ≠ c) :
    (token.set c system).Cancelled d ↔ token.Cancelled d := by
  simp [CancellationToken.Cancelled, CancellationToken.set, other]

/-- A step of one transport cancels no other and revives none. -/
theorem CancellationToken.Cancelled.set {c d : Nat} {action : Action β ε} {system : System β ε}
    (cancelled : token.Cancelled d) (step : Step memorySizes (control c) (token.system c) action system) :
    (token.set c system).Cancelled d := by
  by_cases same : d = c
  · subst same
    exact CancellationToken.set_self.mpr (step.stays_cancelled cancelled)
  · exact (CancellationToken.set_other same).mpr cancelled

/-- The same protection after a step. -/
theorem Caught.step {calls calls' : List Call} {c : Nat} {phase : Registering} (caught : Caught token calls c phase)
    (cancelled : token.Cancelled c → token'.Cancelled c)
    (visits : ∀ controls, .cancel (.visit controls) ∈ calls → c ∈ controls →
      token'.Cancelled c ∨ ∃ controls, .cancel (.visit controls) ∈ calls' ∧ c ∈ controls)
    (registered : c ∈ token.transports → token.cancelled = false ∨ phase = .check ∨ .cancel .drain ∈ calls →
      Caught token' calls' c phase) : Caught token' calls' c phase := by
  rcases caught with done | ⟨controls, visit, member⟩ | coming | ⟨member, still⟩
  · exact Or.inl (cancelled done)
  · rcases visits controls visit member with done | visit
    · exact Or.inl done
    · exact Or.inr (Or.inl visit)
  · exact Or.inr (Or.inr (Or.inl coming))
  · exact registered member still

variable {before after : List Call} {old new : Call}

/-- Other calls are still there after a step of one. -/
theorem mem_of_step {other : Call} (member : other ∈ before ++ old :: after) :
    other = old ∨ other ∈ before ++ new :: after := by
  rw [List.mem_append, List.mem_cons] at member ⊢
  tauto

theorem mem_after_step : new ∈ before ++ new :: after :=
  List.mem_append_right _ List.mem_cons_self

theorem Watched.call (watched : Watched token (before ++ old :: after))
    (step : CallStep memorySizes control token old token' new) : Watched token' (before ++ new :: after) := by
  have keeps : ∀ {other}, other ∈ before ++ old :: after → other ≠ old → other ∈ before ++ new :: after :=
    fun member differ => (mem_of_step member).resolve_left differ
  have came : ∀ {other}, other ∈ before ++ new :: after → other ≠ new → other ∈ before ++ old :: after :=
    fun member differ => (mem_of_step member).resolve_left differ
  have asked : (∀ phase, old ≠ .cancel phase) → token.cancelled = true →
      ∃ phase, .cancel phase ∈ before ++ new :: after := by
    intro other flag
    obtain ⟨phase, member⟩ := watched.asked flag
    exact ⟨phase, keeps member (other phase).symm⟩
  have visits : (∀ controls, old ≠ .cancel (.visit controls)) → ∀ c controls,
      .cancel (.visit controls) ∈ before ++ old :: after → c ∈ controls →
        token'.Cancelled c ∨ ∃ controls, .cancel (.visit controls) ∈ before ++ new :: after ∧ c ∈ controls :=
    fun other c controls visit inside => Or.inr ⟨controls, keeps visit (other controls).symm, inside⟩
  cases step with
  | store =>
    refine ⟨fun _ _ _ => rfl, fun _ => ⟨_, mem_after_step⟩, fun _ _ => rfl, fun _ _ => rfl,
      fun c phase member pushed alive => ?_⟩
    refine (watched.caught c phase (came member nofun) pushed alive).step id (visits nofun c) fun inside _ => ?_
    exact Or.inr (Or.inr (Or.inr ⟨inside, Or.inr (Or.inr mem_after_step)⟩))
  | drain =>
    have flag := watched.stored .drain mem_after_step nofun
    refine ⟨fun _ _ _ => flag, fun _ => ⟨_, mem_after_step⟩, fun _ _ => flag, fun _ _ => flag,
      fun c phase member pushed alive => ?_⟩
    refine (watched.caught c phase (came member nofun) pushed alive).step id (visits nofun c) fun inside _ => ?_
    exact Or.inr (Or.inl ⟨_, mem_after_step, List.mem_filter.mpr ⟨inside, alive⟩⟩)
  | visit cancels =>
    rename_i d rest system
    have flag := watched.stored (.visit (d :: rest)) mem_after_step nofun
    refine ⟨fun _ _ _ => flag, fun _ => ⟨_, mem_after_step⟩, fun _ _ => flag, fun _ _ => flag,
      fun c phase member pushed alive => ?_⟩
    refine (watched.caught c phase (came member nofun) pushed alive).step (fun cancelled => cancelled.set cancels)
      (fun controls visit inside => ?_) fun inside still => ?_
    · rcases mem_of_step visit with same | elsewhere
      · cases same
        rcases List.mem_cons.mp inside with rfl | later
        · exact Or.inl (CancellationToken.set_self.mpr cancels.cancels)
        · exact Or.inr ⟨rest, mem_after_step, later⟩
      · exact Or.inr ⟨controls, elsewhere, inside⟩
    · exact Or.inr (Or.inr (Or.inr ⟨inside, still.imp id (Or.imp id fun drain => keeps drain nofun)⟩))
  | push =>
    rename_i d
    refine ⟨fun phase member => watched.stored phase (came member nofun), asked nofun, watched.flagged,
      fun c member => watched.saw c (came member nofun), fun c phase member pushed alive => ?_⟩
    rcases mem_of_step member with same | elsewhere
    · cases same
      exact Or.inr (Or.inr (Or.inr ⟨List.mem_append_right _ (List.mem_singleton_self _), Or.inr (Or.inl rfl)⟩))
    · refine (watched.caught c phase elsewhere pushed alive).step id (visits nofun c) fun inside still => ?_
      refine Or.inr (Or.inr (Or.inr ⟨?_, still.imp id (Or.imp id fun drain => keeps drain nofun)⟩))
      exact List.mem_append_left _ (List.mem_filter.mpr ⟨inside, alive⟩)
  | check =>
    rename_i d
    refine ⟨fun phase member => watched.stored phase (came member nofun), asked nofun, watched.flagged,
      fun c member => ?_, fun c phase member pushed alive => ?_⟩
    · rcases mem_of_step member with same | elsewhere
      · by_contra unset
        simp [unset] at same
      · exact watched.saw c elsewhere
    · rcases mem_of_step member with same | elsewhere
      · cases same
        by_cases flag : token.cancelled = true
        · exact Or.inr (Or.inr (Or.inl (if_pos flag)))
        · obtain done | ⟨controls, visit, inside⟩ | coming | ⟨inside, _⟩ :=
            watched.caught d .check mem_after_step nofun alive
          · exact Or.inl done
          · exact Or.inr (Or.inl ⟨controls, keeps visit nofun, inside⟩)
          · cases coming
          · exact Or.inr (Or.inr (Or.inr ⟨inside, Or.inl (Bool.not_eq_true _ ▸ flag)⟩))
      · exact (watched.caught c phase elsewhere pushed alive).step id (visits nofun c) fun inside still =>
          Or.inr (Or.inr (Or.inr ⟨inside, still.imp id (Or.imp id fun drain => keeps drain nofun)⟩))
  | cancel cancels =>
    rename_i d system
    have flag := watched.saw d mem_after_step
    refine ⟨fun _ _ _ => flag, asked nofun, fun _ _ => flag, fun _ _ => flag, fun c phase member pushed alive => ?_⟩
    rcases mem_of_step member with same | elsewhere
    · cases same
      exact Or.inl (CancellationToken.set_self.mpr cancels.cancels)
    · exact (watched.caught c phase elsewhere pushed alive).step (fun cancelled => cancelled.set cancels)
        (visits nofun c) fun inside still =>
          Or.inr (Or.inr (Or.inr ⟨inside, still.imp id (Or.imp id fun drain => keeps drain nofun)⟩))

theorem Watched.step {calls calls' : List Call} (watched : Watched token calls)
    (step : TokenStep memorySizes control (token, calls) (token', calls')) : Watched token' calls' := by
  cases step with
  | call step => exact watched.call step
  | beginCancel =>
    have grown : ∀ {other}, other ∈ calls → other ∈ calls ++ [.cancel .store] := fun member =>
      List.mem_append_left _ member
    have came : ∀ {other : Call}, other ∈ calls ++ [.cancel .store] → other ≠ .cancel .store → other ∈ calls := by
      intro other member differ
      simpa [differ] using member
    refine ⟨fun phase member past => watched.stored phase (came member (by simpa using past)) past, fun flag => ?_,
      watched.flagged, fun c member => watched.saw c (came member nofun), fun c phase member pushed alive => ?_⟩
    · exact ⟨.store, List.mem_append_right _ (List.mem_singleton_self _)⟩
    · exact (watched.caught c phase (came member nofun) pushed alive).step id (fun controls visit inside =>
        Or.inr ⟨controls, grown visit, inside⟩) fun inside still =>
          Or.inr (Or.inr (Or.inr ⟨inside, still.imp id (Or.imp id grown)⟩))
  | beginRegister =>
    rename_i d
    have grown : ∀ {other}, other ∈ calls → other ∈ calls ++ [.register d .push] := fun member =>
      List.mem_append_left _ member
    have came : ∀ {other : Call}, other ∈ calls ++ [.register d .push] → other ≠ .register d .push →
        other ∈ calls := by
      intro other member differ
      simpa [differ] using member
    refine ⟨fun phase member => watched.stored phase (came member nofun), fun flag => ?_, watched.flagged,
      fun c member => watched.saw c (came member (by simp)), fun c phase member pushed alive => ?_⟩
    · obtain ⟨phase, member⟩ := watched.asked flag
      exact ⟨phase, grown member⟩
    · exact (watched.caught c phase (came member (by simp [pushed])) pushed alive).step id
        (fun controls visit inside => Or.inr ⟨controls, grown visit, inside⟩) fun inside still =>
          Or.inr (Or.inr (Or.inr ⟨inside, still.imp id (Or.imp id grown)⟩))
  | transport moved other =>
    rename_i d action system
    have flagged : ∀ c, (token.set d system).Cancelled c → token.Cancelled c := by
      intro c cancelled
      by_cases same : c = d
      · subst same
        exact (moved.cancelled_kept other).symm.trans (CancellationToken.set_self.mp cancelled)
      · exact (CancellationToken.set_other same).mp cancelled
    refine ⟨watched.stored, watched.asked, fun c cancelled => watched.flagged c (flagged c cancelled), watched.saw,
      fun c phase member pushed alive => ?_⟩
    exact (watched.caught c phase member pushed alive).step (fun cancelled => cancelled.set moved)
      (fun controls visit inside => Or.inr ⟨controls, visit, inside⟩) fun inside still =>
        Or.inr (Or.inr (Or.inr ⟨inside, still⟩))
  | drop =>
    refine ⟨watched.stored, watched.asked, watched.flagged, watched.saw, fun c phase member pushed alive => ?_⟩
    have before : token.alive c = true := (Bool.and_eq_true_iff.mp alive).1
    exact (watched.caught c phase member pushed before).step id
      (fun controls visit inside => Or.inr ⟨controls, visit, inside⟩) fun inside still =>
        Or.inr (Or.inr (Or.inr ⟨inside, still⟩))

theorem Watched.start (new : token.New) : Watched token [] where
  stored := fun _ member => by cases member
  asked := fun flag => by
    rw [new.flag] at flag
    cases flag
  flagged := fun c cancelled => (new.system c cancelled).elim
  saw := fun _ member => by cases member
  caught := fun _ _ member => by cases member

/-- When all calls have returned, a call of `cancel` has cancelled every control
that is registered and alive, and without one the token has cancelled none. -/
theorem token_cancels_registered (memorySizes : β → List Nat) (control : Nat → Control) :
    (∀ (start now : CancellationToken β ε) calls, start.New →
      Transition.Reachable (start, []) (TokenStep memorySizes control) (now, calls) →
      (∀ call ∈ calls, call.finished = true) → (∃ phase, .cancel phase ∈ calls) →
      ∀ c phase, .register c phase ∈ calls → now.alive c = true → now.Cancelled c) ∧
    ∀ (start now : CancellationToken β ε) calls, start.New →
      Transition.Reachable (start, []) (TokenStep memorySizes control) (now, calls) →
      (∀ phase, .cancel phase ∉ calls) → ∀ c, ¬ now.Cancelled c := by
  have watches : ∀ (start now : CancellationToken β ε) calls, start.New →
      Transition.Reachable (start, []) (TokenStep memorySizes control) (now, calls) → Watched now calls :=
    fun start now calls new reach => reach.invariant (fun state => Watched state.1 state.2) (.start new)
      fun _ watched step => watched.step step
  refine ⟨fun start now calls new reach finished asked c phase registered alive => ?_,
    fun start now calls new reach none c cancelled => ?_⟩
  · have watched := watches start now calls new reach
    have returned : phase = .done := by simpa [Call.finished] using finished _ registered
    have complete : ∀ phase, .cancel phase ∈ calls → phase = .visit [] := by
      intro phase member
      simpa [Call.finished] using finished _ member
    obtain ⟨asking, asked⟩ := asked
    have flag := watched.stored asking asked (by rw [complete asking asked]; nofun)
    subst returned
    obtain done | ⟨controls, visit, inside⟩ | coming | ⟨_, still⟩ := watched.caught c .done registered nofun alive
    · exact done
    · cases complete _ visit
      cases inside
    · cases coming
    · rcases still with unset | check | drain
      · rw [flag] at unset
        cases unset
      · cases check
      · cases complete _ drain
  · have watched := watches start now calls new reach
    obtain ⟨phase, member⟩ := watched.asked (watched.flagged c cancelled)
    exact none phase member

end Steps

end Datacrate.Bounded
