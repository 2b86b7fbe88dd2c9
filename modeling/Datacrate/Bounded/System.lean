import Datacrate.Bounded.Sections
import Datacrate.Lib.Transition

namespace Datacrate.Bounded

/-- Where the thread that owns the sender stands. It runs in `admitting` and
`acknowledging`, and is parked in the two waits. -/
inductive SendPhase (β ε : Type) where
  | idle
  | admitting (message : Except ε β) (bytes : Nat)
  | waitingForRoom (message : Except ε β) (bytes : Nat)
  | acknowledging (message : Except ε β)
  | waitingForReceiver (message : Except ε β)
  | returned (message : Except ε β) (result : Except (PipelineError ε) Unit)
  | dropped

/-- Where the thread that owns the receiver stands. It runs in `polling` and
is parked in `waiting`. -/
inductive ReceivePhase (β ε : Type) where
  | idle
  | polling
  | waiting
  | returned (result : Except (PipelineError ε) (Option β))
  | dropped

def SendPhase.notified {β ε : Type} : SendPhase β ε → SendPhase β ε
  | .waitingForRoom message bytes => .admitting message bytes
  | .waitingForReceiver message => .acknowledging message
  | phase => phase

def ReceivePhase.notified {β ε : Type} : ReceivePhase β ε → ReceivePhase β ε
  | .waiting => .polling
  | phase => phase

/-- Between two calls of `send`. -/
def SendPhase.free {β ε : Type} : SendPhase β ε → Bool
  | .idle | .returned _ _ => true
  | _ => false

/-- The message that has yet to enter the queue, with its charge. -/
def SendPhase.pending {β ε : Type} : SendPhase β ε → Option (Except ε β × Nat)
  | .admitting message bytes | .waitingForRoom message bytes => some (message, bytes)
  | _ => none

/-- Between two calls of `recv`. -/
def ReceivePhase.free {β ε : Type} : ReceivePhase β ε → Bool
  | .idle | .returned _ => true
  | _ => false

/-- The transport with the threads around it. `held` are the leases that
`recv` gave out, `expiring` those whose drop has begun, and `discarding` the
messages that a cancellation or the end of the receiver took off the queue
and has yet to drop. `transformed` is what the last transformation returned;
the fields after `overflowed` record history. -/
structure System (β ε : Type) where
  state : State β ε
  sender : SendPhase β ε
  receiver : ReceivePhase β ε
  held : List (BatchLease β)
  expiring : List (BatchLease β)
  discarding : List (Except ε (BatchLease β))
  transformed : Option (Except (PipelineError ε) β)
  overflowed : Bool
  enqueued : List (Except ε β)
  taken : List (Except ε β)
  discarded : List (Except ε β)
  released : Nat

def System.initial {β ε : Type} : System β ε where
  state := .channel
  sender := .idle
  receiver := .idle
  held := []
  expiring := []
  discarding := []
  transformed := none
  overflowed := false
  enqueued := []
  taken := []
  discarded := []
  released := 0

section

variable {β ε : Type}

/-- A queued message as it was sent. -/
def payload (message : Except ε (BatchLease β)) : Except ε β :=
  message.map (·.batch)

def leaseOf : Except ε (BatchLease β) → Option (BatchLease β)
  | .ok lease => some lease
  | .error _ => none

/-- What `recv` returns for a message. -/
def delivery : Except ε (BatchLease β) → Except (PipelineError ε) (Option β)
  | .ok lease => .ok (some lease.batch)
  | .error source => .error (.io source)

/-- What `send` does once its message is in the queue: wait for the
rendezvous, or return. -/
def settle (control : Control) (state : State β ε) (message : Except ε β) : SendPhase β ε :=
  if unacknowledged control state then .waitingForReceiver message
  else .returned message (sendResult state)

/-- Every parked thread is made to check its condition again. -/
def System.notifyAll (s : System β ε) : System β ε :=
  { s with sender := s.sender.notified, receiver := s.receiver.notified }

/-- The live reservations. -/
def System.reservations (s : System β ε) : List (BatchLease β) :=
  s.state.queue.filterMap leaseOf ++ s.discarding.filterMap leaseOf ++ s.held ++ s.expiring

/-- The charges of the live reservations, added up. -/
def System.load (s : System β ε) : Nat :=
  (s.reservations.map BatchLease.charged).sum

/-- The steps of the threads, each at most one critical section. -/
inductive Action (β ε : Type) where
  | send (message : Except ε β)
  | admission
  | acknowledge
  | wakeSender
  | dropSender
  | recv
  | poll
  | wakeReceiver
  | dropReceiver
  | transform (outcome : Except ε β)
  | dropLease
  | expire
  | cancel
  | discard

variable (memorySizes : β → List Nat) (control : Control)

/-- The arithmetic of the action's critical section would leave `usize`. -/
def Overflows (s : System β ε) : Action β ε → Prop
  | .admission => ∃ message bytes, s.sender = .admitting message bytes ∧
      (admission control s.state bytes = none ∨
        admission control s.state bytes = some .granted ∧ enqueue s.state message bytes = none)
  | .transform outcome => ∃ lease ∈ s.held, transform control s.state memorySizes lease outcome = none
  | .dropLease => ∃ lease ∈ s.held, release s.state lease = none
  | .expire => ∃ lease ∈ s.expiring, release s.state lease = none
  | .discard => ∃ lease, .ok lease ∈ s.discarding ∧ release s.state lease = none
  | _ => False

inductive Step : System β ε → Action β ε → System β ε → Prop
  | refuse {s : System β ε} {message error} : s.sender.free = true →
      sendCharge memorySizes control message = .error error →
      Step s (.send message) { s with sender := .returned message (.error error) }
  | send {s : System β ε} {message bytes} : s.sender.free = true →
      sendCharge memorySizes control message = .ok bytes →
      Step s (.send message) { s with sender := .admitting message bytes }
  | close {s : System β ε} {message bytes} : s.sender = .admitting message bytes →
      admission control s.state bytes = some .closed →
      Step s .admission { s with sender := .returned message (.error .cancelled) }
  | park {s : System β ε} {message bytes} : s.sender = .admitting message bytes →
      admission control s.state bytes = some .wait →
      Step s .admission { s with sender := .waitingForRoom message bytes }
  | enqueue {s : System β ε} {message bytes state} : s.sender = .admitting message bytes →
      admission control s.state bytes = some .granted → enqueue s.state message bytes = some state →
      Step s .admission { s.notifyAll with
        state := state, sender := settle control state message, enqueued := s.enqueued ++ [message] }
  | acknowledge {s : System β ε} {message} : s.sender = .acknowledging message →
      Step s .acknowledge { s with sender := settle control s.state message }
  | wakeSender {s : System β ε} : Step s .wakeSender { s with sender := s.sender.notified }
  | dropSender {s : System β ε} : s.sender.free = true →
      Step s .dropSender { s.notifyAll with state := dropSender s.state, sender := .dropped }
  | recv {s : System β ε} : s.receiver.free = true → Step s .recv { s with receiver := .polling }
  | interrupt {s : System β ε} : s.receiver = .polling → reception s.state = .cancelled →
      Step s .poll { s with receiver := .returned (.error .cancelled) }
  | take {s : System β ε} {message state} : s.receiver = .polling →
      reception s.state = .message message state →
      Step s .poll { s.notifyAll with
        state := state, receiver := .returned (delivery message),
        held := s.held ++ (leaseOf message).toList, taken := s.taken ++ [payload message] }
  | finish {s : System β ε} : s.receiver = .polling → reception s.state = .ended →
      Step s .poll { s with receiver := .returned (.ok none) }
  | await {s : System β ε} {state} : s.receiver = .polling → reception s.state = .wait state →
      Step s .poll { s.notifyAll with state := state, receiver := .waiting }
  | wakeReceiver {s : System β ε} : Step s .wakeReceiver { s with receiver := s.receiver.notified }
  | dropReceiver {s : System β ε} : s.receiver.free = true →
      Step s .dropReceiver { s.notifyAll with
        state := dropReceiver s.state, receiver := .dropped, discarding := s.discarding ++ s.state.queue,
        discarded := s.discarded ++ s.state.queue.map payload }
  | transform {s : System β ε} {before lease after outcome state lease'} :
      s.held = before ++ lease :: after →
      transform control s.state memorySizes lease outcome = some (state, .ok lease') →
      Step s (.transform outcome) { s with
        state := state, held := before ++ lease' :: after, transformed := some (.ok lease'.batch) }
  | failTransform {s : System β ε} {before lease after outcome state error} :
      s.held = before ++ lease :: after →
      transform control s.state memorySizes lease outcome = some (state, .error error) →
      Step s (.transform outcome) { s with
        state := state, held := before ++ after, expiring := lease :: s.expiring,
        transformed := some (.error error) }
  | dropLease {s : System β ε} {before lease after state} : s.held = before ++ lease :: after →
      release s.state lease = some state →
      Step s .dropLease { s.notifyAll with
        state := state, held := before ++ after, released := s.released + 1 }
  | expire {s : System β ε} {before lease after state} : s.expiring = before ++ lease :: after →
      release s.state lease = some state →
      Step s .expire { s.notifyAll with
        state := state, expiring := before ++ after, released := s.released + 1 }
  | cancel {s : System β ε} : Step s .cancel { s.notifyAll with
      state := cancel s.state, discarding := s.discarding ++ s.state.queue,
      discarded := s.discarded ++ s.state.queue.map payload }
  | discard {s : System β ε} {before lease after state} : s.discarding = before ++ .ok lease :: after →
      release s.state lease = some state →
      Step s .discard { s.notifyAll with
        state := state, discarding := before ++ after, released := s.released + 1 }
  | discardError {s : System β ε} {before source after} : s.discarding = before ++ .error source :: after →
      Step s .discard { s with discarding := before ++ after }
  | overflow {s : System β ε} {action} : Overflows memorySizes control s action →
      Step s action { s with overflowed := true }

/-- Any thread may take the next step. -/
def Moves (s t : System β ε) : Prop :=
  ∃ action, Step memorySizes control s action t

/-- The flags of the two ends say which of them is gone. -/
def EndsAgree (s : System β ε) : Prop :=
  (s.state.senderAlive = false ↔ s.sender = .dropped) ∧ (s.state.receiverAlive = false ↔ s.receiver = .dropped)

theorem SendPhase.notified_dropped_iff (phase : SendPhase β ε) :
    phase.notified = .dropped ↔ phase = .dropped := by
  cases phase <;> simp [SendPhase.notified]

theorem ReceivePhase.notified_dropped_iff (phase : ReceivePhase β ε) :
    phase.notified = .dropped ↔ phase = .dropped := by
  cases phase <;> simp [ReceivePhase.notified]

theorem SendPhase.free_ne_dropped {phase : SendPhase β ε} (free : phase.free = true) : phase ≠ .dropped := by
  rintro rfl
  cases free

theorem ReceivePhase.free_ne_dropped {phase : ReceivePhase β ε} (free : phase.free = true) :
    phase ≠ .dropped := by
  rintro rfl
  cases free

theorem settle_ne_dropped (state : State β ε) (message : Except ε β) :
    settle control state message ≠ .dropped := by
  unfold settle
  split <;> exact fun same => nomatch same

theorem Step.ends_agree {memorySizes : β → List Nat} {control : Control} {s t : System β ε}
    {action : Action β ε} (step : Step memorySizes control s action t) (old : EndsAgree s) : EndsAgree t := by
  obtain ⟨sender, receiver⟩ := old
  have senderNotified := sender.trans s.sender.notified_dropped_iff.symm
  have receiverNotified := receiver.trans s.receiver.notified_dropped_iff.symm
  have senderBusy : ∀ {phase : SendPhase β ε}, s.sender ≠ .dropped → phase ≠ .dropped →
      (s.state.senderAlive = false ↔ phase = .dropped) :=
    fun before after => iff_of_false (fun gone => before (sender.mp gone)) after
  have receiverBusy : ∀ {phase : ReceivePhase β ε}, s.receiver ≠ .dropped → phase ≠ .dropped →
      (s.state.receiverAlive = false ↔ phase = .dropped) :=
    fun before after => iff_of_false (fun gone => before (receiver.mp gone)) after
  cases step with
  | refuse free | send free => exact ⟨senderBusy (SendPhase.free_ne_dropped free) (by simp), receiver⟩
  | close phase | park phase => exact ⟨senderBusy (by simp [phase]) (by simp), receiver⟩
  | enqueue phase _ pushed =>
    obtain ⟨_, rfl⟩ := (enqueue_eq_some_iff _ _).mp pushed
    exact ⟨senderBusy (by simp [phase]) (settle_ne_dropped _ _ _), receiverNotified⟩
  | acknowledge phase => exact ⟨senderBusy (by simp [phase]) (settle_ne_dropped _ _ _), receiver⟩
  | wakeSender => exact ⟨senderNotified, receiver⟩
  | dropSender => exact ⟨iff_of_true rfl rfl, receiverNotified⟩
  | recv free => exact ⟨sender, receiverBusy (ReceivePhase.free_ne_dropped free) (by simp)⟩
  | interrupt phase | finish phase => exact ⟨sender, receiverBusy (by simp [phase]) (by simp)⟩
  | take phase received =>
    obtain ⟨_, _, _, rfl⟩ := reception_message_iff.mp received
    exact ⟨senderNotified, receiverBusy (by simp [phase]) (by simp)⟩
  | await phase waits =>
    obtain ⟨_, _, _, rfl⟩ := reception_wait_iff.mp waits
    exact ⟨senderNotified, receiverBusy (by simp [phase]) (by simp)⟩
  | wakeReceiver => exact ⟨sender, receiverNotified⟩
  | dropReceiver => exact ⟨senderNotified, iff_of_true rfl rfl⟩
  | transform _ done | failTransform _ done =>
    rw [transform_frame done]
    exact ⟨sender, receiver⟩
  | dropLease _ given | expire _ given | discard _ given =>
    obtain ⟨_, rfl⟩ := release_eq_some_iff.mp given
    exact ⟨senderNotified, receiverNotified⟩
  | cancel => exact ⟨senderNotified, receiverNotified⟩
  | discardError | overflow => exact ⟨sender, receiver⟩

theorem reachable_ends_agree {memorySizes : β → List Nat} {control : Control} {s : System β ε}
    (reach : Transition.Reachable System.initial (Moves memorySizes control) s) : EndsAgree s := by
  refine reach.invariant EndsAgree ⟨?_, ?_⟩ fun _ old ⟨_, step⟩ => step.ends_agree old
  · exact iff_of_false (by simp [System.initial, State.channel]) (by simp [System.initial])
  · exact iff_of_false (by simp [System.initial, State.channel]) (by simp [System.initial])

/-- A batch of four bytes in a channel of one slot and ten bytes. -/
def oneSlot : Control where
  capacity := 1
  limit := 10
  limit_fits := by decide

def admittingFour : System Nat String :=
  { System.initial with sender := .admitting (.ok 4) 4 }

def queuedFour : System Nat String :=
  { System.initial with
    state := { (State.channel : State Nat String) with queue := [.ok ⟨4, some 4⟩], bytes := 4, peak := 4 },
    sender := .returned (.ok 4) (.ok ()), enqueued := [.ok 4] }

theorem queuedFour_run :
    Transition.Run System.initial (Moves (fun bytes => [bytes]) oneSlot) [queuedFour, admittingFour, .initial] :=
  .next (.next .start ⟨.send (.ok 4), .send rfl rfl⟩) ⟨.admission, .enqueue rfl rfl rfl⟩

end

end Datacrate.Bounded
