import Datacrate.Bounded.Channel

namespace Datacrate.Bounded

variable {β ε : Type}

def SendPhase.rank : SendPhase β ε → Nat
  | .admitting _ _ => 30
  | .waitingForRoom _ _ => 29
  | .acknowledging _ => 2
  | .waitingForReceiver _ => 1
  | .idle | .returned _ _ | .dropped => 0

def ReceivePhase.rank : ReceivePhase β ε → Nat
  | .polling => 4
  | .idle | .waiting | .returned _ | .dropped => 0

/-- The work left in the channel. Everything enqueued keeps its share until
the consumer has written it. -/
def System.rank (s : System β ε) : Nat :=
  20 * s.enqueued.length + s.sender.rank + s.receiver.rank +
    2 * (s.state.queue.length + s.held.length + s.expiring.length + s.discarding.length)

/-- The work a thread takes up with an action. -/
def Action.cost : Action β ε → Nat
  | .send _ => 31
  | .recv | .dropSender => 5
  | .dropReceiver => 2
  | _ => 0

/-- An action by which a thread gets on. -/
def Action.Working : Action β ε → Prop
  | .wakeSender | .wakeReceiver | .transform _ | .cancel => False
  | _ => True

section Phases

variable (message : Except ε β) (bytes : Nat) (sent : Except (PipelineError ε) Unit)
  (received : Except (PipelineError ε) (Option β))

@[simp] theorem SendPhase.rank_admitting : (SendPhase.admitting message bytes).rank = 30 := rfl

@[simp] theorem SendPhase.rank_waitingForRoom : (SendPhase.waitingForRoom message bytes).rank = 29 := rfl

@[simp] theorem SendPhase.rank_acknowledging : (SendPhase.acknowledging message : SendPhase β ε).rank = 2 := rfl

@[simp] theorem SendPhase.rank_waitingForReceiver :
    (SendPhase.waitingForReceiver message : SendPhase β ε).rank = 1 := rfl

@[simp] theorem SendPhase.rank_returned : (SendPhase.returned message sent).rank = 0 := rfl

@[simp] theorem SendPhase.rank_dropped : (SendPhase.dropped : SendPhase β ε).rank = 0 := rfl

@[simp] theorem ReceivePhase.rank_polling : (ReceivePhase.polling : ReceivePhase β ε).rank = 4 := rfl

@[simp] theorem ReceivePhase.rank_waiting : (ReceivePhase.waiting : ReceivePhase β ε).rank = 0 := rfl

@[simp] theorem ReceivePhase.rank_returned : (ReceivePhase.returned received).rank = 0 := rfl

@[simp] theorem ReceivePhase.rank_dropped : (ReceivePhase.dropped : ReceivePhase β ε).rank = 0 := rfl

end Phases

@[simp] theorem SendPhase.rank_free {phase : SendPhase β ε} (free : phase.free = true) : phase.rank = 0 := by
  cases phase <;> first | rfl | cases free

@[simp] theorem ReceivePhase.rank_free {phase : ReceivePhase β ε} (free : phase.free = true) : phase.rank = 0 := by
  cases phase <;> first | rfl | cases free

theorem SendPhase.rank_notified (phase : SendPhase β ε) : phase.notified.rank ≤ phase.rank + 1 := by
  cases phase <;> simp [SendPhase.notified, SendPhase.rank]

theorem SendPhase.rank_answered (phase : SendPhase β ε) (result : Except (PipelineError ε) Unit) :
    (phase.answered result).rank ≤ phase.rank := by
  cases phase <;> simp [SendPhase.answered, SendPhase.rank]

theorem ReceivePhase.rank_notified (phase : ReceivePhase β ε) :
    phase.notified.rank ≤ phase.rank + 4 ∧ (phase ≠ .waiting → phase.notified.rank = phase.rank) := by
  cases phase <;> simp [ReceivePhase.notified, ReceivePhase.rank]

theorem settle_rank (control : Control) (state : State β ε) (message : Except ε β) :
    (settle control state message).rank ≤ 1 := by
  unfold settle
  split <;> simp [SendPhase.rank]

theorem length_leaseOf_le (message : Except ε (BatchLease β)) : (leaseOf message).toList.length ≤ 1 := by
  cases message <;> simp [leaseOf]

section

variable {memorySizes : β → List Nat} {kind : ChannelKind} {s t : System β ε} {action : Action β ε}

/-- A waiting receiver holds nothing, and nothing is left to discard. -/
theorem Budgeted.unloaded {control : Control} (sound : Budgeted memorySizes control s) :
    s.receiver = .waiting → s.held = [] ∧ s.expiring = [] ∧ s.discarding = [] := by
  intro waiting
  obtain ⟨_, _, waits⟩ := sound.parked.message waiting
  obtain ⟨cancelled, _⟩ := reception_wait_iff.mp waits
  have alive : s.state.receiverAlive = true := by
    rw [← Bool.not_eq_false, sound.ends.2, waiting]
    exact fun same => nomatch same
  obtain ⟨held, expiring⟩ := sound.orderly.holding (Or.inr waiting)
  exact ⟨held, expiring, sound.orderly.discarding cancelled alive⟩

theorem Step.lowers {control : Control} (step : Step memorySizes control s action t)
    (sound : Budgeted memorySizes control s) (working : action.Working) : t.rank < s.rank + action.cost := by
  have sender := s.sender.rank_notified
  have receiver := s.receiver.rank_notified
  unfold System.rank
  cases step with
  | refuse free | send free =>
    simp only [SendPhase.rank_free free, SendPhase.rank_returned, SendPhase.rank_admitting, Action.cost]
    omega
  | close phase | park phase =>
    simp only [phase, SendPhase.rank_admitting, SendPhase.rank_returned, SendPhase.rank_waitingForRoom, Action.cost]
    omega
  | @enqueue message _ state phase _ pushed =>
    have settled := settle_rank control state message
    obtain ⟨_, rfl⟩ := (enqueue_eq_some_iff _ _).mp pushed
    simp only [phase, SendPhase.rank_admitting, Action.cost, System.notifyAll, List.length_append,
      List.length_singleton]
    omega
  | @acknowledge message phase =>
    have settled := settle_rank control s.state message
    simp only [phase, SendPhase.rank_acknowledging, Action.cost]
    omega
  | wakeSender | wakeReceiver | transform | failTransform | cancel => exact working.elim
  | dropSender free =>
    simp only [SendPhase.rank_free free, SendPhase.rank_dropped, Action.cost, System.notifyAll,
      Bounded.dropSender]
    omega
  | recv free =>
    simp only [ReceivePhase.rank_free free, ReceivePhase.rank_polling, Action.cost]
    omega
  | interrupt phase | finish phase =>
    simp only [phase, ReceivePhase.rank_polling, ReceivePhase.rank_returned, Action.cost]
    omega
  | @take message _ phase received =>
    obtain ⟨_, rest, queue, rfl⟩ := reception_message_iff.mp received
    have lease := length_leaseOf_le message
    simp only [phase, queue, ReceivePhase.rank_polling, ReceivePhase.rank_returned, Action.cost, System.notifyAll,
      List.length_append, List.length_cons]
    omega
  | await phase waits =>
    obtain ⟨_, _, _, rfl⟩ := reception_wait_iff.mp waits
    simp only [phase, ReceivePhase.rank_polling, ReceivePhase.rank_waiting, Action.cost, System.notifyAll]
    omega
  | dropReceiver free =>
    simp only [ReceivePhase.rank_free free, ReceivePhase.rank_dropped, Action.cost, System.notifyAll,
      Bounded.dropReceiver, List.length_append, List.length_nil]
    omega
  | dropLease split given | expire split given | discard split given =>
    obtain ⟨_, rfl⟩ := release_eq_some_iff.mp given
    have busy : s.receiver ≠ .waiting := by
      intro waiting
      obtain ⟨held, expiring, discarding⟩ := sound.unloaded waiting
      simp_all
    simp only [split, receiver.2 busy, Action.cost, System.notifyAll, List.length_append, List.length_cons]
    omega
  | discardError split =>
    simp only [split, Action.cost, List.length_append, List.length_cons]
    omega
  | overflow beyond => exact absurd sound.accounted beyond.not_accounted

theorem CountStep.lowers {capacity : Nat} (step : CountStep capacity s action t) (working : action.Working) :
    t.rank < s.rank + action.cost := by
  unfold System.rank
  cases step with
  | send free =>
    simp only [SendPhase.rank_free free, SendPhase.rank_admitting, Action.cost]
    omega
  | close phase =>
    simp only [phase, SendPhase.rank_admitting, SendPhase.rank_returned, Action.cost]
    omega
  | @enqueue message _ phase =>
    have settled : (if capacity = 0 then SendPhase.waitingForReceiver message
        else .returned message (.ok ()) : SendPhase β ε).rank ≤ 1 := by
      split <;> simp
    simp only [phase, SendPhase.rank_admitting, Action.cost, List.length_append, List.length_singleton]
    omega
  | dropSender free =>
    simp only [SendPhase.rank_free free, SendPhase.rank_dropped, Action.cost]
    omega
  | recv free =>
    simp only [ReceivePhase.rank_free free, ReceivePhase.rank_polling, Action.cost]
    omega
  | @take message rest phase queue =>
    have answered := s.sender.rank_answered (.ok ())
    have lease := length_leaseOf_le message
    simp only [phase, queue, ReceivePhase.rank_polling, ReceivePhase.rank_returned, Action.cost, List.length_append,
      List.length_cons]
    omega
  | finish phase =>
    simp only [phase, ReceivePhase.rank_polling, ReceivePhase.rank_returned, Action.cost]
    omega
  | dropReceiver free =>
    have answered := s.sender.rank_answered (.error .cancelled)
    simp only [ReceivePhase.rank_free free, ReceivePhase.rank_dropped, Action.cost, List.length_nil]
    omega
  | transform | failTransform => exact working.elim
  | dropLease split | expire split =>
    simp only [split, Action.cost, List.length_append, List.length_cons]
    omega

theorem ChannelStep.lowers (step : ChannelStep memorySizes kind s action t) (sound : Sound memorySizes s kind)
    (working : action.Working) : t.rank < s.rank + action.cost := by
  cases kind with
  | count capacity => exact CountStep.lowers step working
  | budgeted control => exact Step.lowers step sound working

/-- The sender cannot get on by itself. -/
def SendParked (s : System β ε) : ChannelKind → Prop
  | .count capacity => s.sender.pending.isSome = true ∧ s.state.receiverAlive = true ∧
      max capacity 1 ≤ s.state.queue.length ∨ ∃ message, s.sender = .waitingForReceiver message
  | .budgeted _ => ∃ message, (∃ bytes, s.sender = .waitingForRoom message bytes) ∨
      s.sender = .waitingForReceiver message

/-- The receiver cannot get on by itself. -/
def ReceiveParked (s : System β ε) : ChannelKind → Prop
  | .count _ => s.receiver = .polling ∧ s.state.queue = [] ∧ s.state.senderAlive = true
  | .budgeted _ => s.receiver = .waiting

/-- Inside a call of `send`. -/
def SendPhase.inside (phase : SendPhase β ε) : Prop :=
  phase.free = false ∧ phase ≠ .dropped

section Calls

variable (memorySizes kind)

theorem ChannelStep.send_exists (free : s.sender.free = true) (message : Except ε β) :
    ∃ t, ChannelStep memorySizes kind s (.send message) t := by
  cases kind with
  | count capacity => exact ⟨_, .send free⟩
  | budgeted control =>
    rcases charged : sendCharge memorySizes control message with error | bytes
    · exact ⟨_, .refuse free charged⟩
    · exact ⟨_, .send free charged⟩

theorem ChannelStep.drop_sender_exists (free : s.sender.free = true) :
    ∃ t, ChannelStep memorySizes kind s .dropSender t := by
  cases kind with
  | count capacity => exact ⟨_, .dropSender free⟩
  | budgeted control => exact ⟨_, .dropSender free⟩

theorem ChannelStep.recv_exists (free : s.receiver.free = true) :
    ∃ t, ChannelStep memorySizes kind s .recv t := by
  cases kind with
  | count capacity => exact ⟨_, .recv free⟩
  | budgeted control => exact ⟨_, .recv free⟩

theorem ChannelStep.drop_receiver_exists (free : s.receiver.free = true) :
    ∃ t, ChannelStep memorySizes kind s .dropReceiver t := by
  cases kind with
  | count capacity => exact ⟨_, .dropReceiver free⟩
  | budgeted control => exact ⟨_, .dropReceiver free⟩

end Calls

theorem Sound.drop_lease_exists (sound : Sound memorySizes s kind) (holding : s.held ≠ []) :
    ∃ t, ChannelStep memorySizes kind s .dropLease t := by
  obtain ⟨lease, rest, held⟩ := List.exists_cons_of_ne_nil holding
  have split : s.held = [] ++ lease :: rest := held
  cases kind with
  | count capacity => exact ⟨_, .dropLease split⟩
  | budgeted control =>
    have covered := (Budgeted.accounted sound).charged_le
      (show lease ∈ s.reservations by simp [System.reservations, held])
    exact ⟨_, .dropLease split (release_eq_some_iff.mpr ⟨covered, rfl⟩)⟩

theorem Sound.expire_exists (sound : Sound memorySizes s kind) (expiring : s.expiring ≠ []) :
    ∃ t, ChannelStep memorySizes kind s .expire t := by
  obtain ⟨lease, rest, expired⟩ := List.exists_cons_of_ne_nil expiring
  have split : s.expiring = [] ++ lease :: rest := expired
  cases kind with
  | count capacity => exact ⟨_, .expire split⟩
  | budgeted control =>
    have covered := (Budgeted.accounted sound).charged_le
      (show lease ∈ s.reservations by simp [System.reservations, expired])
    exact ⟨_, .expire split (release_eq_some_iff.mpr ⟨covered, rfl⟩)⟩

/-- A held lease can be transformed, whatever its callback returned. -/
theorem Sound.transform_exists (sound : Sound memorySizes s kind) (holding : s.held ≠ []) (outcome : Except ε β) :
    ∃ t, ChannelStep memorySizes kind s (.transform outcome) t := by
  obtain ⟨lease, rest, held⟩ := List.exists_cons_of_ne_nil holding
  have split : s.held = [] ++ lease :: rest := held
  cases kind with
  | count capacity =>
    rcases outcome with source | batch
    · exact ⟨_, .failTransform split⟩
    · exact ⟨_, .transform split⟩
  | budgeted control =>
    cases done : transform control s.state memorySizes lease outcome with
    | none => exact ⟨_, .overflow (show Overflows memorySizes control s (.transform outcome) from
        ⟨lease, by simp [held], done⟩)⟩
    | some pair =>
      obtain ⟨state, result⟩ := pair
      rcases result with error | grown
      · exact ⟨_, .failTransform split done⟩
      · exact ⟨_, .transform split done⟩

/-- A transformation is no work of the channel. -/
theorem ChannelStep.transform_rank {outcome : Except ε β} (step : ChannelStep memorySizes kind s (.transform outcome) t) :
    t.rank = s.rank := by
  unfold System.rank
  cases kind with
  | count capacity =>
    cases step with
    | transform split => simp only [split, List.length_append, List.length_cons]
    | failTransform split =>
      simp only [split, List.length_append, List.length_cons]
      omega
  | budgeted control =>
    cases step with
    | transform split done =>
      rw [transform_frame done]
      simp only [split, List.length_append, List.length_cons]
    | failTransform split done =>
      rw [transform_frame done]
      simp only [split, List.length_append, List.length_cons]
      omega
    | overflow => rfl

/-- A transformation that succeeds lets no lease expire. -/
theorem ChannelStep.transform_expiring {outcome : Except ε β} {result : β}
    (step : ChannelStep memorySizes kind s (.transform outcome) t) (returned : t.transformed = some (.ok result))
    (settled : s.expiring = []) : t.expiring = [] := by
  cases kind with
  | count capacity =>
    cases step with
    | transform => exact settled
    | failTransform => cases returned
  | budgeted control =>
    cases step with
    | transform | overflow => exact settled
    | failTransform => cases returned

theorem ChannelStep.recv_polling (step : ChannelStep memorySizes kind s .recv t) : t.receiver = .polling := by
  cases kind with
  | count capacity =>
    cases step with
    | recv => rfl
  | budgeted control =>
    cases step with
    | recv => rfl
    | overflow beyond => exact beyond.elim

/-- A held lease stays until it is dropped or transformed, and a received
batch comes with its lease. -/
theorem ChannelStep.holds_on (step : ChannelStep memorySizes kind s action t)
    (whole : ∀ outcome, action ≠ .transform outcome) (lasting : action ≠ .dropLease) :
    (s.held ≠ [] → t.held ≠ []) ∧ ∀ batch, t.receiver = .returned (.ok (some batch)) →
      s.receiver = .returned (.ok (some batch)) ∨ t.held ≠ [] := by
  have taken : ∀ (message : Except ε (BatchLease β)) {batch : β}, delivery message = .ok (some batch) →
      s.held ++ (leaseOf message).toList ≠ [] := by
    intro message batch same
    rcases message with source | lease
    · cases same
    · simp [leaseOf]
  cases kind with
  | count capacity =>
    cases step with
    | transform | failTransform => exact absurd rfl (whole _)
    | dropLease => exact absurd rfl lasting
    | take phase =>
      exact ⟨fun holding => by simp [holding], fun _ returned => Or.inr (taken _ (ReceivePhase.returned.inj returned))⟩
    | recv | finish | dropReceiver => exact ⟨id, fun _ returned => by cases returned⟩
    | send | close | enqueue | dropSender | expire => exact ⟨id, fun _ returned => Or.inl returned⟩
  | budgeted control =>
    cases step with
    | transform | failTransform => exact absurd rfl (whole _)
    | dropLease => exact absurd rfl lasting
    | take phase =>
      exact ⟨fun holding => by simp [holding],
        fun _ returned => Or.inr (taken _ (ReceivePhase.returned.inj returned))⟩
    | recv | interrupt | finish | await | dropReceiver => exact ⟨id, fun _ returned => by cases returned⟩
    | enqueue | dropSender | wakeReceiver | expire | cancel | discard =>
      exact ⟨id, fun _ returned => Or.inl (s.receiver.notified_returned_iff.mp returned)⟩
    | refuse | send | close | park | acknowledge | wakeSender | discardError | overflow =>
      exact ⟨id, fun _ returned => Or.inl returned⟩

/-- A sender inside `send` takes its next step, unless it is parked. -/
theorem Sound.send_moves (sound : Sound memorySizes s kind) (inside : s.sender.inside) :
    (∃ t, ChannelStep memorySizes kind s .admission t) ∨ (∃ t, ChannelStep memorySizes kind s .acknowledge t) ∨
      SendParked s kind := by
  cases kind with
  | count capacity =>
    have awake := Counted.awake sound
    cases phase : s.sender with
    | admitting message bytes =>
      cases alive : s.state.receiverAlive with
      | false => exact Or.inl ⟨_, .close phase alive⟩
      | true =>
        rcases Nat.lt_or_ge s.state.queue.length (max capacity 1) with room | full
        · exact Or.inl ⟨_, .enqueue phase alive room⟩
        · exact Or.inr (Or.inr (Or.inl ⟨by rw [phase]; rfl, alive, full⟩))
    | waitingForRoom message bytes => exact absurd phase (awake.1 message bytes)
    | acknowledging message => exact absurd phase (awake.2.1 message)
    | waitingForReceiver message => exact Or.inr (Or.inr (Or.inr ⟨message, phase⟩))
    | idle | returned | dropped => simp [SendPhase.inside, phase, SendPhase.free] at inside
  | budgeted control =>
    have accounted := Budgeted.accounted sound
    have within : s.state.bytes ≤ control.limit := accounted.bytes_eq ▸ accounted.within
    cases phase : s.sender with
    | admitting message bytes =>
      left
      have decided := admission_eq within bytes
      generalize (if s.state.cancelled || !s.state.receiverAlive then Admission.closed else _) = verdict at decided
      cases verdict with
      | closed => exact ⟨_, .close phase decided⟩
      | wait => exact ⟨_, .park phase decided⟩
      | granted =>
        obtain ⟨_, _, _, room⟩ := admission_admit within decided
        exact ⟨_, .enqueue phase decided
          ((enqueue_eq_some_iff message bytes).mpr ⟨room.trans_lt control.limit_fits, rfl⟩)⟩
    | waitingForRoom message bytes => exact Or.inr (Or.inr ⟨message, Or.inl ⟨bytes, phase⟩⟩)
    | acknowledging message => exact Or.inr (Or.inl ⟨_, .acknowledge phase⟩)
    | waitingForReceiver message => exact Or.inr (Or.inr ⟨message, Or.inr phase⟩)
    | idle | returned | dropped => simp [SendPhase.inside, phase, SendPhase.free] at inside

/-- A receiver inside `recv` takes its next step, unless it is parked. -/
theorem Sound.receive_moves (sound : Sound memorySizes s kind) (inside : s.receiver = .polling ∨ s.receiver = .waiting) :
    (∃ t, ChannelStep memorySizes kind s .poll t) ∨ ReceiveParked s kind := by
  cases kind with
  | count capacity =>
    have phase := inside.resolve_right (Counted.awake sound).2.2
    cases queue : s.state.queue with
    | cons message rest => exact Or.inl ⟨_, .take phase queue⟩
    | nil =>
      cases alive : s.state.senderAlive with
      | false => exact Or.inl ⟨_, .finish phase queue alive⟩
      | true => exact Or.inr ⟨phase, queue, alive⟩
  | budgeted control =>
    rcases inside with phase | phase
    · left
      cases received : reception s.state with
      | cancelled => exact ⟨_, .interrupt phase received⟩
      | message message state => exact ⟨_, .take phase received⟩
      | ended => exact ⟨_, .finish phase received⟩
      | wait state => exact ⟨_, .await phase received⟩
    · exact Or.inr phase

/-- A parked sender has a receiver, and a parked receiver a sender, that is
not parked. -/
theorem Sound.never_stuck (sound : Sound memorySizes s kind) :
    (SendParked s kind → s.receiver ≠ .dropped ∧ ¬ ReceiveParked s kind) ∧
      (ReceiveParked s kind → s.sender ≠ .dropped) := by
  cases kind with
  | count capacity =>
    obtain ⟨⟨sender, receiver⟩, _, _, gone, offered, _⟩ : Counted s := sound
    refine ⟨?_, ?_⟩
    · rintro (⟨_, alive, full⟩ | ⟨message, phase⟩)
      · refine ⟨fun dropped => ?_, fun ⟨_, empty, _⟩ => ?_⟩
        · exact Bool.false_ne_true ((receiver.mpr dropped).symm.trans alive)
        · rw [empty, List.length_nil] at full
          omega
      · have queued := offered message (Or.inr phase)
        exact ⟨fun dropped => queued (gone (receiver.mpr dropped)), fun ⟨_, empty, _⟩ => queued empty⟩
    · rintro ⟨_, _, alive⟩ dropped
      exact Bool.false_ne_true ((sender.mpr dropped).symm.trans alive)
  | budgeted control =>
    obtain ⟨charged, accounted, ends, _, parked, orderly⟩ : Budgeted memorySizes control s := sound
    have within : s.state.bytes ≤ control.limit := accounted.bytes_eq ▸ accounted.within
    refine ⟨?_, ?_⟩
    · rintro ⟨message, ⟨bytes, phase⟩ | phase⟩
      · have waits := parked.room message bytes phase
        refine ⟨fun dropped => ?_, fun waiting => ?_⟩
        · rw [admission_eq within] at waits
          simp [ends.2.mpr dropped] at waits
        · have fits := sendCharge_le (charged message bytes (by rw [phase]; rfl))
          obtain ⟨registered, waiting'⟩ := parked.message waiting
          rw [accounted.admits orderly ends ⟨Or.inr waiting, registered, waiting'⟩ fits] at waits
          cases waits
      · have waits := parked.rendezvous message phase
        refine ⟨fun dropped => ?_, fun waiting => ?_⟩
        · simp [unacknowledged, ends.2.mpr dropped] at waits
        · obtain ⟨_, _, waiting'⟩ := parked.message waiting
          obtain ⟨_, queue, _⟩ := reception_wait_iff.mp waiting'
          simp [unacknowledged, queue] at waits
    · intro waiting dropped
      obtain ⟨_, _, waiting'⟩ := parked.message waiting
      obtain ⟨_, _, alive, _⟩ := reception_wait_iff.mp waiting'
      exact Bool.false_ne_true ((ends.1.mpr dropped).symm.trans alive)

end

end Datacrate.Bounded
