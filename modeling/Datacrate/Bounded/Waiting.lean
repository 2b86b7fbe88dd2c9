import Datacrate.Bounded.Delivery

namespace Datacrate.Bounded

variable {β ε : Type} {memorySizes : β → List Nat} {control : Control} {s t : System β ε}

/-- The sender is inside `send` with a wait condition that is true. -/
def SenderBlocked (control : Control) (s : System β ε) : Prop :=
  (∃ message bytes, s.sender.pending = some (message, bytes) ∧ admission control s.state bytes = some .wait) ∨
    ∃ message, (s.sender = .acknowledging message ∨ s.sender = .waitingForReceiver message) ∧
      unacknowledged control s.state = true

/-- The receiver has registered inside `recv` and its wait condition is
true. -/
def ReceiverBlocked (s : System β ε) : Prop :=
  (s.receiver = .polling ∨ s.receiver = .waiting) ∧ s.state.receiverWaiting = true ∧
    ∃ state, reception s.state = .wait state

/-- A parked thread has a reason to be: no wake-up was lost. -/
structure Parked (control : Control) (s : System β ε) : Prop where
  room : ∀ message bytes, s.sender = .waitingForRoom message bytes →
    admission control s.state bytes = some .wait
  rendezvous : ∀ message, s.sender = .waitingForReceiver message → unacknowledged control s.state = true
  message : s.receiver = .waiting → s.state.receiverWaiting = true ∧ ∃ state, reception s.state = .wait state

theorem SendPhase.notified_awake (phase : SendPhase β ε) :
    (∀ message bytes, phase.notified ≠ .waitingForRoom message bytes) ∧
      ∀ message, phase.notified ≠ .waitingForReceiver message := by
  cases phase <;> simp [SendPhase.notified]

theorem ReceivePhase.notified_awake (phase : ReceivePhase β ε) : phase.notified ≠ .waiting := by
  cases phase <;> simp [ReceivePhase.notified]

theorem settle_waits {state : State β ε} {message : Except ε β} :
    (∀ other bytes, settle control state message ≠ .waitingForRoom other bytes) ∧
      ∀ other, settle control state message = .waitingForReceiver other → unacknowledged control state = true := by
  unfold settle
  split
  · rename_i waits
    exact ⟨by simp, fun _ _ => waits⟩
  · simp

theorem Parked.notified (sender : t.sender = s.sender.notified) (receiver : t.receiver = s.receiver.notified) :
    Parked control t where
  room := fun message bytes parked => absurd (sender ▸ parked) (s.sender.notified_awake.1 message bytes)
  rendezvous := fun message parked => absurd (sender ▸ parked) (s.sender.notified_awake.2 message)
  message := fun parked => absurd (receiver ▸ parked) s.receiver.notified_awake

/-- More bytes in flight open no admission. -/
theorem admission_wait_grown {state grown : State β ε} {bytes : Nat} (within : grown.bytes ≤ control.limit)
    (frame : grown = { state with bytes := grown.bytes, peak := grown.peak })
    (more : state.bytes ≤ grown.bytes) (waits : admission control state bytes = some .wait) :
    admission control grown bytes = some .wait := by
  rw [admission_eq (more.trans within), Option.some.injEq] at waits
  rw [admission_eq within, Option.some.injEq]
  rw [frame]
  dsimp only
  split at waits
  · cases waits
  · rename_i open'
    rw [if_neg open']
    split at waits
    · cases waits
    · rename_i full
      rw [if_neg]
      simp only [Bool.and_eq_true, decide_eq_true_eq, not_and] at full ⊢
      intro available
      have := full available
      omega

theorem transform_bytes (accounted : Accounted control s) {before after : List (BatchLease β)}
    {lease : BatchLease β} {outcome : Except ε β} {state : State β ε}
    {result : Except (PipelineError ε) (BatchLease β)} (split : s.held = before ++ lease :: after)
    (done : transform control s.state memorySizes lease outcome = some (state, result)) :
    s.state.bytes ≤ state.bytes ∧ state.bytes ≤ control.limit := by
  have fits : s.state.bytes ≤ control.limit := accounted.bytes_eq ▸ accounted.within
  have live : lease ∈ s.reservations := by simp [System.reservations, split]
  obtain ⟨_, _, effect, same | ⟨growth, batch, more, same, _⟩⟩ :=
    transform_spec fits (accounted.charged_le live) outcome
  · obtain ⟨rfl, _⟩ := Prod.mk.inj (Option.some.inj (done.symm.trans effect))
    rw [same.1]
    exact ⟨le_rfl, fits⟩
  · obtain ⟨rfl, _⟩ := Prod.mk.inj (Option.some.inj (done.symm.trans effect))
    rw [same]
    exact ⟨Nat.le_add_right _ _, more⟩

theorem Parked.transformed (old : Parked control s) (accounted : Accounted control s)
    {before after : List (BatchLease β)} {lease : BatchLease β} {outcome : Except ε β} {state : State β ε}
    {result : Except (PipelineError ε) (BatchLease β)} (split : s.held = before ++ lease :: after)
    (done : transform control s.state memorySizes lease outcome = some (state, result))
    (now : t.state = state) (sender : t.sender = s.sender) (receiver : t.receiver = s.receiver) :
    Parked control t := by
  have frame := transform_frame done
  obtain ⟨more, within⟩ := transform_bytes accounted split done
  refine ⟨?_, ?_, ?_⟩
  · intro message bytes parked
    rw [now]
    exact admission_wait_grown within frame more (old.room message bytes (sender ▸ parked))
  · intro message parked
    rw [now, frame]
    exact old.rendezvous message (sender ▸ parked)
  · intro parked
    obtain ⟨registered, _, waits⟩ := old.message (receiver ▸ parked)
    obtain ⟨cancelled, queue, alive, _⟩ := reception_wait_iff.mp waits
    rw [now, frame]
    exact ⟨registered, _, reception_wait_iff.mpr ⟨cancelled, queue, alive, rfl⟩⟩

theorem Step.parked {action : Action β ε} (step : Step memorySizes control s action t)
    (accounted : Accounted control s) (old : Parked control s) : Parked control t := by
  have awake := s.sender.notified_awake
  cases step with
  | refuse | send | close =>
    exact ⟨fun _ _ parked => (nomatch parked), fun _ parked => (nomatch parked), old.message⟩
  | park _ waits =>
    refine ⟨fun _ _ parked => ?_, fun _ parked => (nomatch parked), old.message⟩
    cases parked
    exact waits
  | enqueue =>
    exact ⟨fun other bytes parked => absurd parked (settle_waits.1 other bytes), settle_waits.2,
      fun parked => absurd parked s.receiver.notified_awake⟩
  | acknowledge =>
    exact ⟨fun other bytes parked => absurd parked (settle_waits.1 other bytes), settle_waits.2, old.message⟩
  | wakeSender =>
    exact ⟨fun message bytes parked => absurd parked (awake.1 message bytes),
      fun message parked => absurd parked (awake.2 message), old.message⟩
  | dropSender =>
    exact ⟨fun _ _ parked => (nomatch parked), fun _ parked => (nomatch parked),
      fun parked => absurd parked s.receiver.notified_awake⟩
  | recv | interrupt | finish => exact ⟨old.room, old.rendezvous, fun parked => (nomatch parked)⟩
  | take | dropReceiver =>
    exact ⟨fun message bytes parked => absurd parked (awake.1 message bytes),
      fun message parked => absurd parked (awake.2 message), fun parked => (nomatch parked)⟩
  | await _ waits =>
    obtain ⟨cancelled, queue, alive, rfl⟩ := reception_wait_iff.mp waits
    exact ⟨fun message bytes parked => absurd parked (awake.1 message bytes),
      fun message parked => absurd parked (awake.2 message),
      fun _ => ⟨rfl, _, reception_wait_iff.mpr ⟨cancelled, queue, alive, rfl⟩⟩⟩
  | wakeReceiver =>
    exact ⟨old.room, old.rendezvous, fun parked => absurd parked s.receiver.notified_awake⟩
  | transform split done | failTransform split done => exact old.transformed accounted split done rfl rfl rfl
  | dropLease | expire | cancel | discard => exact .notified rfl rfl
  | discardError | overflow => exact ⟨old.room, old.rendezvous, old.message⟩

theorem reachable_parked (reach : Transition.Reachable System.initial (Moves memorySizes control) s) :
    Parked control s := by
  have start : Parked control (System.initial : System β ε) :=
    ⟨fun _ _ parked => (nomatch parked), fun _ parked => (nomatch parked), fun parked => (nomatch parked)⟩
  exact reach.invariant (Parked control) start
    fun before old ⟨_, step⟩ => step.parked (reachable_accounted before).2 old

/-- The receiver drops each lease before it asks for the next. -/
def Disciplined (s : System β ε) : Action β ε → Prop
  | .recv => s.held = [] ∧ s.expiring = []
  | _ => True

def Paced (memorySizes : β → List Nat) (control : Control) (s t : System β ε) : Prop :=
  ∃ action, Disciplined s action ∧ Step memorySizes control s action t

/-- Inside `recv` the receiver holds nothing, and an open channel has
nothing left to discard. -/
structure Orderly (s : System β ε) : Prop where
  holding : s.receiver = .polling ∨ s.receiver = .waiting → s.held = [] ∧ s.expiring = []
  discarding : s.state.cancelled = false → s.state.receiverAlive = true → s.discarding = []

theorem ReceivePhase.notified_inside_iff (phase : ReceivePhase β ε) :
    (phase.notified = .polling ∨ phase.notified = .waiting) ↔ phase = .polling ∨ phase = .waiting := by
  cases phase <;> simp [ReceivePhase.notified]

theorem Orderly.unheld (old : Orderly s) (inside : s.receiver = .polling ∨ s.receiver = .waiting)
    {before after : List (BatchLease β)} {lease : BatchLease β}
    (split : s.held = before ++ lease :: after ∨ s.expiring = before ++ lease :: after) : False := by
  obtain ⟨held, expiring⟩ := old.holding inside
  rcases split with split | split
  · simp [held] at split
  · simp [expiring] at split

theorem Orderly.discarded (old : Orderly s) {before after : List (Except ε (BatchLease β))}
    {message : Except ε (BatchLease β)} (split : s.discarding = before ++ message :: after)
    (alive : s.state.cancelled = false) (receiver : s.state.receiverAlive = true) : before ++ after = [] := by
  have empty := old.discarding alive receiver
  simp [split] at empty

theorem Step.orderly {action : Action β ε} (step : Step memorySizes control s action t)
    (paced : Disciplined s action) (old : Orderly s) : Orderly t := by
  have woken := fun inside => old.holding (s.receiver.notified_inside_iff.mp inside)
  cases step with
  | refuse | send | close | park | acknowledge | wakeSender | overflow => exact ⟨old.holding, old.discarding⟩
  | enqueue _ _ pushed =>
    obtain ⟨_, rfl⟩ := (enqueue_eq_some_iff _ _).mp pushed
    exact ⟨woken, old.discarding⟩
  | dropSender | wakeReceiver => exact ⟨woken, old.discarding⟩
  | recv => exact ⟨fun _ => paced, old.discarding⟩
  | interrupt | finish => exact ⟨by simp, old.discarding⟩
  | take _ received =>
    obtain ⟨_, _, _, rfl⟩ := reception_message_iff.mp received
    exact ⟨by simp, old.discarding⟩
  | await phase waits =>
    obtain ⟨_, _, _, rfl⟩ := reception_wait_iff.mp waits
    exact ⟨fun _ => old.holding (Or.inl phase), old.discarding⟩
  | dropReceiver => exact ⟨by simp, fun _ gone => Bool.noConfusion gone⟩
  | cancel => exact ⟨woken, fun alive => Bool.noConfusion alive⟩
  | transform split done | failTransform split done =>
    rw [transform_frame done]
    exact ⟨fun inside => (old.unheld inside (Or.inl split)).elim, old.discarding⟩
  | dropLease split given =>
    obtain ⟨_, rfl⟩ := release_eq_some_iff.mp given
    exact ⟨fun inside => (old.unheld (s.receiver.notified_inside_iff.mp inside) (Or.inl split)).elim,
      old.discarding⟩
  | expire split given =>
    obtain ⟨_, rfl⟩ := release_eq_some_iff.mp given
    exact ⟨fun inside => (old.unheld (s.receiver.notified_inside_iff.mp inside) (Or.inr split)).elim,
      old.discarding⟩
  | discard split given =>
    obtain ⟨_, rfl⟩ := release_eq_some_iff.mp given
    exact ⟨woken, old.discarded split⟩
  | discardError split => exact ⟨old.holding, old.discarded split⟩

theorem reachable_orderly (reach : Transition.Reachable System.initial (Paced memorySizes control) s) :
    Orderly s :=
  reach.invariant Orderly ⟨by simp [System.initial], fun _ _ => rfl⟩
    fun _ old ⟨_, paced, step⟩ => step.orderly paced old

/-- With the receiver waiting on an empty queue, nothing is in flight: a
message that fits the limit is admitted. -/
theorem Accounted.admits (accounted : Accounted control s) (orderly : Orderly s) (ends : EndsAgree s)
    (blocked : ReceiverBlocked s) {bytes : Nat} (fits : bytes ≤ control.limit) :
    admission control s.state bytes = some .granted := by
  obtain ⟨inside, registered, _, waits⟩ := blocked
  obtain ⟨cancelled, queue, _, _⟩ := reception_wait_iff.mp waits
  have receiver : s.state.receiverAlive = true := by
    rw [← Bool.not_eq_false, ends.2]
    rcases inside with phase | phase <;> simp [phase]
  obtain ⟨held, expiring⟩ := orderly.holding inside
  have bytes_eq := accounted.bytes_eq
  rw [System.load_eq, queue, orderly.discarding cancelled receiver, held, expiring] at bytes_eq
  have available : countAvailable control s.state = true := by
    unfold countAvailable
    split
    · simp [registered, queue]
    · rename_i buffered
      simp only [beq_iff_eq] at buffered
      simp only [queue, List.length_nil, decide_eq_true_eq]
      omega
  rw [admission_eq (accounted.bytes_eq ▸ accounted.within)]
  simp only [List.filterMap_nil, totalCharge_nil] at bytes_eq
  simp [cancelled, receiver, available, bytes_eq, fits]

/-- The two threads never wait for each other, a closed or abandoned
transport makes nobody wait, and a parked thread has a reason to be. -/
theorem transport_never_stuck (reach : Transition.Reachable System.initial (Paced memorySizes control) s) :
    ¬ (SenderBlocked control s ∧ ReceiverBlocked s) ∧
      (s.state.cancelled = true ∨ s.receiver = .dropped →
        (∀ bytes, admission control s.state bytes ≠ some .wait) ∧ unacknowledged control s.state = false) ∧
      (s.state.cancelled = true ∨ s.sender = .dropped → ∀ state, reception s.state ≠ .wait state) ∧
      (∀ message bytes, s.sender = .waitingForRoom message bytes ∨ s.sender = .waitingForReceiver message →
        SenderBlocked control s) ∧
      (s.receiver = .waiting → ReceiverBlocked s) := by
  have free : Transition.Reachable System.initial (Moves memorySizes control) s :=
    reach.mono fun ⟨action, _, step⟩ => ⟨action, step⟩
  obtain ⟨charged, accounted⟩ := reachable_accounted free
  have ends := reachable_ends_agree free
  have parked := reachable_parked free
  refine ⟨?_, ?_, ?_, ?_, ?_⟩
  · rintro ⟨⟨message, bytes, pending, waits⟩ | ⟨message, _, waits⟩, blocked⟩
    · have fits := sendCharge_le (charged message bytes pending)
      rw [accounted.admits (reachable_orderly reach) ends blocked fits] at waits
      cases waits
    · obtain ⟨_, _, _, empty⟩ := blocked
      obtain ⟨_, queue, _, _⟩ := reception_wait_iff.mp empty
      simp [unacknowledged, queue] at waits
  · intro closed
    have fits : s.state.bytes ≤ control.limit := accounted.bytes_eq ▸ accounted.within
    rw [← ends.2] at closed
    refine ⟨fun bytes waits => ?_, ?_⟩
    · rw [admission_eq fits] at waits
      rcases closed with closed | closed <;> simp [closed] at waits
    · rcases closed with closed | closed <;> simp [unacknowledged, closed]
  · intro closed state waits
    obtain ⟨cancelled, _, sender, _⟩ := reception_wait_iff.mp waits
    rw [← ends.1] at closed
    rcases closed with closed | closed
    · exact absurd (cancelled.symm.trans closed) Bool.false_ne_true
    · exact absurd (closed.symm.trans sender) Bool.false_ne_true
  · rintro message bytes (phase | phase)
    · exact Or.inl ⟨message, bytes, by rw [phase]; rfl, parked.room message bytes phase⟩
    · exact Or.inr ⟨message, Or.inr phase, parked.rendezvous message phase⟩
  · intro phase
    exact ⟨Or.inr phase, parked.message phase⟩

theorem queuedFour_not_stuck : ¬ (SenderBlocked oneSlot queuedFour ∧ ReceiverBlocked queuedFour) := by
  have reach : Transition.Reachable System.initial (Paced (fun bytes => [bytes]) oneSlot) queuedFour :=
    .next (.next (t := admittingFour) .start ⟨.send (.ok 4), trivial, .send rfl rfl⟩)
      ⟨.admission, trivial, .enqueue rfl rfl rfl⟩
  exact (transport_never_stuck reach).1

end Datacrate.Bounded
