import Datacrate.Bounded.Accounting

namespace Datacrate.Bounded

variable {β ε : Type} {memorySizes : β → List Nat} {control : Control} {s t : System β ε}

/-- The three ways a sender can stand once its message is in the queue. -/
def SendPhase.sent (phase : SendPhase β ε) (message : Except ε β) : Prop :=
  phase = .acknowledging message ∨ phase = .waitingForReceiver message ∨ phase = .returned message (.ok ())

theorem SendPhase.notified_sent_iff (phase : SendPhase β ε) (message : Except ε β) :
    phase.notified.sent message ↔ phase.sent message := by
  cases phase <;> simp [SendPhase.notified, SendPhase.sent]

theorem SendPhase.notified_returned_iff (phase : SendPhase β ε) (message : Except ε β)
    (result : Except (PipelineError ε) Unit) :
    phase.notified = .returned message result ↔ phase = .returned message result := by
  cases phase <;> simp [SendPhase.notified]

theorem ReceivePhase.notified_returned_iff (phase : ReceivePhase β ε)
    {result : Except (PipelineError ε) (Option β)} :
    phase.notified = .returned result ↔ phase = .returned result := by
  cases phase <;> simp [ReceivePhase.notified]

theorem settle_sent {state : State β ε} {message other : Except ε β}
    (sent : (settle control state message).sent other) : other = message := by
  unfold settle at sent
  split at sent
  · rcases sent with same | same | same <;> cases same
    rfl
  · rcases sent with same | same | same <;> injection same
    symm
    assumption

/-- A rendezvous send that succeeds leaves its channel open and empty. -/
theorem settle_ok {state : State β ε} {message other : Except ε β}
    (returned : settle control state message = .returned other (.ok ())) (rendezvous : control.capacity = 0) :
    state.cancelled = false ∧ state.receiverAlive = true ∧ state.queue = [] := by
  unfold settle at returned
  split at returned
  · cases returned
  · rename_i acknowledged
    have result := (SendPhase.returned.inj returned).2
    unfold sendResult at result
    split at result
    · cases result
    · rename_i open'
      simp only [Bool.or_eq_true, Bool.not_eq_true', not_or, Bool.not_eq_true, Bool.not_eq_false] at open'
      obtain ⟨cancelled, receiver⟩ := open'
      simpa [unacknowledged, rendezvous, cancelled, receiver] using acknowledged

theorem countAvailable_length {state : State β ε} (available : countAvailable control state = true) :
    state.queue.length + 1 ≤ max control.capacity 1 := by
  unfold countAvailable at available
  split at available
  · simp only [Bool.and_eq_true, List.isEmpty_iff] at available
    simp [available.2]
  · simp only [decide_eq_true_eq] at available
    omega

/-- Where an enqueued message can be: taken, still queued, or discarded
after the channel was closed. -/
structure Delivered (control : Control) (s : System β ε) : Prop where
  order : s.enqueued = s.taken ++ s.state.queue.map payload ++ s.discarded
  kept : s.state.cancelled = false → s.state.receiverAlive = true → s.discarded = []
  bounded : s.state.queue.length ≤ max control.capacity 1
  last : ∀ message, s.sender.sent message → s.enqueued.getLast? = some message
  acknowledged : ∀ message, s.sender = .returned message (.ok ()) → control.capacity = 0 →
    s.taken = s.enqueued

theorem delivered_initial : Delivered control (System.initial : System β ε) where
  order := rfl
  kept := fun _ _ => rfl
  bounded := Nat.zero_le _
  last := by simp [System.initial, SendPhase.sent]
  acknowledged := by simp [System.initial]

/-- A phase that adds no success to those of the sender, unless the queue of
an open channel is empty. -/
def Follows (control : Control) (s : System β ε) (phase : SendPhase β ε) : Prop :=
  ∀ message, phase.sent message → s.sender.sent message ∧
    (phase = .returned message (.ok ()) → control.capacity = 0 →
      s.sender = .returned message (.ok ()) ∨
        s.state.queue = [] ∧ s.state.cancelled = false ∧ s.state.receiverAlive = true)

theorem follows_self : Follows control s s.sender :=
  fun _ sent => ⟨sent, fun returned _ => Or.inl returned⟩

theorem follows_notified : Follows control s s.sender.notified := by
  intro message sent
  exact ⟨(s.sender.notified_sent_iff message).mp sent,
    fun returned _ => Or.inl ((s.sender.notified_returned_iff message _).mp returned)⟩

/-- A step that leaves the queue, the flags and the records alone. -/
theorem Delivered.unmoved (old : Delivered control s) (queue : t.state.queue = s.state.queue)
    (cancelled : t.state.cancelled = s.state.cancelled)
    (receiverAlive : t.state.receiverAlive = s.state.receiverAlive)
    (records : t.enqueued = s.enqueued ∧ t.taken = s.taken ∧ t.discarded = s.discarded)
    (follows : Follows control s t.sender) : Delivered control t := by
  obtain ⟨enqueued, taken, discarded⟩ := records
  refine ⟨?_, ?_, queue ▸ old.bounded, ?_, ?_⟩
  · rw [enqueued, taken, discarded, queue]
    exact old.order
  · rw [cancelled, receiverAlive, discarded]
    exact old.kept
  · intro message sent
    rw [enqueued]
    exact old.last message (follows message sent).1
  · intro message returned rendezvous
    rw [enqueued, taken]
    rcases (follows message (Or.inr (Or.inr returned))).2 returned rendezvous with before | ⟨empty, alive, receiver⟩
    · exact old.acknowledged message before rendezvous
    · have order := old.order
      rw [empty, old.kept alive receiver] at order
      simpa using order.symm

/-- A step that discards the queue. -/
theorem Delivered.drained (old : Delivered control s)
    (closed : s.state.cancelled = true ∨ s.state.receiverAlive = false → s.state.queue = [])
    (now : t.state.cancelled = true ∨ t.state.receiverAlive = false) (queue : t.state.queue = [])
    (enqueued : t.enqueued = s.enqueued) (taken : t.taken = s.taken)
    (discarded : t.discarded = s.discarded ++ s.state.queue.map payload)
    (sender : t.sender = s.sender.notified) : Delivered control t := by
  have moved : s.state.queue.map payload ++ s.discarded = s.discarded ++ s.state.queue.map payload := by
    by_cases before : s.state.cancelled = true ∨ s.state.receiverAlive = false
    · simp [closed before]
    · rw [not_or, Bool.not_eq_true, Bool.not_eq_false] at before
      simp [old.kept before.1 before.2]
  refine ⟨?_, ?_, by simp [queue], ?_, ?_⟩
  · rw [enqueued, taken, discarded, queue, ← moved, old.order]
    simp
  · intro cancelled receiver
    rcases now with gone | gone
    · exact absurd (cancelled.symm.trans gone) Bool.false_ne_true
    · exact absurd (gone.symm.trans receiver) Bool.false_ne_true
  · intro message sent
    rw [sender, SendPhase.notified_sent_iff] at sent
    exact enqueued ▸ old.last message sent
  · intro message returned
    rw [sender, SendPhase.notified_returned_iff] at returned
    rw [enqueued, taken]
    exact old.acknowledged message returned

theorem Delivered.pushed (old : Delivered control s) {message : Except ε β} {bytes : Nat} {state : State β ε}
    (fits : s.state.bytes ≤ control.limit) (admitted : admission control s.state bytes = some .granted)
    (pushed : enqueue s.state message bytes = some state) :
    Delivered control { s.notifyAll with
      state := state, sender := settle control state message, enqueued := s.enqueued ++ [message] } := by
  obtain ⟨cancelled, receiver, available, _⟩ := admission_admit fits admitted
  obtain ⟨_, rfl⟩ := (enqueue_eq_some_iff message bytes).mp pushed
  have empty := old.kept cancelled receiver
  have same : ∀ lease : Nat,
      payload (message.map fun batch => { batch := batch, reservation := some lease }) = message := by
    intro lease
    cases message <;> rfl
  refine ⟨?_, fun _ _ => empty, ?_, ?_, ?_⟩
  · show s.enqueued ++ [message] = s.taken ++ List.map payload _ ++ s.discarded
    rw [old.order, empty, List.map_append, List.map_singleton, same]
    simp
  · simpa using countAvailable_length available
  · intro other sent
    rw [settle_sent sent]
    exact List.getLast?_concat
  · intro other returned rendezvous
    have drained := (settle_ok returned rendezvous).2.2
    simp at drained

theorem Delivered.popped (old : Delivered control s) {message : Except ε (BatchLease β)}
    {state : State β ε} {receiver : ReceivePhase β ε} {held : List (BatchLease β)}
    (received : reception s.state = .message message state) :
    Delivered control { s.notifyAll with
      state := state, receiver := receiver, held := held, taken := s.taken ++ [payload message] } := by
  obtain ⟨_, rest, queue, rfl⟩ := reception_message_iff.mp received
  have order := old.order
  rw [queue] at order
  refine ⟨?_, old.kept, ?_, ?_, ?_⟩
  · show s.enqueued = s.taken ++ [payload message] ++ rest.map payload ++ s.discarded
    rw [order]
    simp
  · have bounded := old.bounded
    rw [queue, List.length_cons] at bounded
    show rest.length ≤ _
    omega
  · intro other sent
    exact old.last other ((s.sender.notified_sent_iff other).mp sent)
  · intro other returned rendezvous
    have full := old.acknowledged other ((s.sender.notified_returned_iff other _).mp returned) rendezvous
    have length := congrArg List.length (full.trans order)
    simp at length

theorem Step.delivered {action : Action β ε} (step : Step memorySizes control s action t)
    (accounted : Accounted control s) (old : Delivered control s) : Delivered control t := by
  cases step with
  | refuse | send | close | park | dropSender =>
    refine old.unmoved rfl rfl rfl ⟨rfl, rfl, rfl⟩ fun message sent => ?_
    rcases sent with same | same | same <;> cases same
  | enqueue _ admitted pushed =>
    exact old.pushed (accounted.bytes_eq ▸ accounted.within) admitted pushed
  | @acknowledge message phase =>
    refine old.unmoved rfl rfl rfl ⟨rfl, rfl, rfl⟩ fun other sent => ?_
    have same := settle_sent sent
    subst same
    refine ⟨Or.inl phase, fun returned rendezvous => Or.inr ?_⟩
    obtain ⟨cancelled, receiver, queue⟩ := settle_ok returned rendezvous
    exact ⟨queue, cancelled, receiver⟩
  | wakeSender => exact old.unmoved rfl rfl rfl ⟨rfl, rfl, rfl⟩ follows_notified
  | recv | interrupt | finish | wakeReceiver | discardError | overflow =>
    exact old.unmoved rfl rfl rfl ⟨rfl, rfl, rfl⟩ follows_self
  | take _ received => exact old.popped received
  | await _ waits =>
    obtain ⟨_, _, _, rfl⟩ := reception_wait_iff.mp waits
    exact old.unmoved rfl rfl rfl ⟨rfl, rfl, rfl⟩ follows_notified
  | dropReceiver => exact old.drained accounted.closed (Or.inr rfl) rfl rfl rfl rfl rfl
  | transform _ done | failTransform _ done =>
    rw [transform_frame done]
    exact old.unmoved rfl rfl rfl ⟨rfl, rfl, rfl⟩ follows_self
  | dropLease _ given | expire _ given | discard _ given =>
    obtain ⟨_, rfl⟩ := release_eq_some_iff.mp given
    exact old.unmoved rfl rfl rfl ⟨rfl, rfl, rfl⟩ follows_notified
  | cancel => exact old.drained accounted.closed (Or.inl rfl) rfl rfl rfl rfl rfl

theorem reachable_delivered (reach : Transition.Reachable System.initial (Moves memorySizes control) s) :
    Delivered control s :=
  reach.invariant (Delivered control) delivered_initial
    fun before old ⟨_, step⟩ => step.delivered (reachable_accounted before).2 old

/-- A pass of `recv` that finds the end of the stream has taken everything. -/
theorem Delivered.ended (old : Delivered control s) (ends : EndsAgree s) (phase : s.receiver = .polling)
    (ended : reception s.state = .ended) :
    s.sender = .dropped ∧ s.taken = s.enqueued ∧ s.state.cancelled = false := by
  obtain ⟨cancelled, queue, sender⟩ := reception_ended_iff.mp ended
  have receiver : s.state.receiverAlive = true := by
    rw [← Bool.not_eq_false, ends.2, phase]
    exact fun same => nomatch same
  have order := old.order
  rw [queue, old.kept cancelled receiver] at order
  exact ⟨ends.1.mp sender, by simpa using order.symm, cancelled⟩

/-- What one pass of `recv` returns is what it adds to the taken messages. -/
theorem Step.poll_returns (step : Step memorySizes control s .poll t)
    {result : Except (PipelineError ε) (Option β)} (returned : t.receiver = .returned result) :
    (∃ message, t.taken = s.taken ++ [payload message] ∧ result = delivery message) ∨
      t.taken = s.taken ∧ (result = .error .cancelled ∧ s.state.cancelled = true ∨
        result = .ok none ∧ s.receiver = .polling ∧ reception s.state = .ended) := by
  cases step with
  | interrupt _ cancelled =>
    cases returned
    exact Or.inr ⟨rfl, Or.inl ⟨rfl, reception_cancelled_iff.mp cancelled⟩⟩
  | @take message state phase received =>
    cases returned
    exact Or.inl ⟨message, rfl, rfl⟩
  | finish phase ended =>
    cases returned
    exact Or.inr ⟨rfl, Or.inr ⟨rfl, phase, ended⟩⟩
  | await => cases returned
  | overflow beyond => exact beyond.elim

/-- Messages come out in the order they went in, none lost and none twice.
Only a closed channel discards, only an exhausted one ends the stream, and a
rendezvous that succeeds has been received. -/
theorem transport_delivers (reach : Transition.Reachable System.initial (Moves memorySizes control) s) :
    s.taken <+: s.enqueued ∧
      s.enqueued = s.taken ++ s.state.queue.map payload ++ s.discarded ∧
      (s.discarded ≠ [] → s.state.cancelled = true ∨ s.receiver = .dropped) ∧
      (∀ t result, Step memorySizes control s .poll t → t.receiver = .returned result →
        (∃ message, t.taken = s.taken ++ [payload message] ∧ result = delivery message) ∨
          t.taken = s.taken ∧ (result = .error .cancelled ∧ s.state.cancelled = true ∨
            result = .ok none ∧ s.sender = .dropped ∧ s.taken = s.enqueued ∧ s.state.cancelled = false)) ∧
      s.state.queue.length ≤ max control.capacity 1 ∧
      ∀ message, s.sender = .returned message (.ok ()) →
        s.enqueued.getLast? = some message ∧ (control.capacity = 0 → s.taken = s.enqueued) := by
  have now := reachable_delivered reach
  have ends := reachable_ends_agree reach
  refine ⟨?_, now.order, ?_, ?_, now.bounded, ?_⟩
  · exact ⟨s.state.queue.map payload ++ s.discarded, by rw [now.order, List.append_assoc]⟩
  · intro discarded
    by_contra alive
    rw [not_or, Bool.not_eq_true, ← ends.2, Bool.not_eq_false] at alive
    exact discarded (now.kept alive.1 alive.2)
  · intro t result step returned
    refine (step.poll_returns returned).imp_right (And.imp_right (Or.imp_right ?_))
    rintro ⟨ended, phase, exhausted⟩
    exact ⟨ended, now.ended ends phase exhausted⟩
  · intro message returned
    exact ⟨now.last message (Or.inr (Or.inr returned)), now.acknowledged message returned⟩

theorem queuedFour_delivered :
    queuedFour.enqueued = queuedFour.taken ++ queuedFour.state.queue.map payload ++ queuedFour.discarded :=
  (transport_delivers queuedFour_run.reachable).2.1

end Datacrate.Bounded
