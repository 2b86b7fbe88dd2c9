import Datacrate.Bounded.Waiting

namespace Datacrate.Bounded

variable {β ε : Type}

/-- A message of the count-limited channel carries no reservation. -/
def uncharged (message : Except ε β) : Except ε (BatchLease β) :=
  message.map fun batch => { batch := batch, reservation := none }

/-- A blocked rendezvous send ends with the fate of its message. -/
def SendPhase.answered (phase : SendPhase β ε) (result : Except (PipelineError ε) Unit) : SendPhase β ε :=
  match phase with
  | .waitingForReceiver message => .returned message result
  | phase => phase

/-- The standard bounded channel. A step that would have to wait is not
enabled: `send` blocks while `capacity` messages are queued, or without
capacity until its message is received, and `recv` blocks while the queue is
empty and the sender alive. -/
inductive CountStep (capacity : Nat) : System β ε → Action β ε → System β ε → Prop
  | send {s : System β ε} {message} : s.sender.free = true →
      CountStep capacity s (.send message) { s with sender := .admitting message 0 }
  | close {s : System β ε} {message bytes} : s.sender = .admitting message bytes →
      s.state.receiverAlive = false →
      CountStep capacity s .admission { s with sender := .returned message (.error .cancelled) }
  | enqueue {s : System β ε} {message bytes} : s.sender = .admitting message bytes →
      s.state.receiverAlive = true → s.state.queue.length < max capacity 1 →
      CountStep capacity s .admission { s with
        state := { s.state with queue := s.state.queue ++ [uncharged message] },
        sender := if capacity = 0 then .waitingForReceiver message else .returned message (.ok ()),
        enqueued := s.enqueued ++ [message] }
  | dropSender {s : System β ε} : s.sender.free = true →
      CountStep capacity s .dropSender { s with
        state := { s.state with senderAlive := false }, sender := .dropped }
  | recv {s : System β ε} : s.receiver.free = true →
      CountStep capacity s .recv { s with receiver := .polling }
  | take {s : System β ε} {message rest} : s.receiver = .polling → s.state.queue = message :: rest →
      CountStep capacity s .poll { s with
        state := { s.state with queue := rest }, sender := s.sender.answered (.ok ()),
        receiver := .returned (delivery message), held := s.held ++ (leaseOf message).toList,
        taken := s.taken ++ [payload message] }
  | finish {s : System β ε} : s.receiver = .polling → s.state.queue = [] → s.state.senderAlive = false →
      CountStep capacity s .poll { s with receiver := .returned (.ok none) }
  | dropReceiver {s : System β ε} : s.receiver.free = true →
      CountStep capacity s .dropReceiver { s with
        state := { s.state with receiverAlive := false, queue := [] },
        sender := s.sender.answered (.error .cancelled), receiver := .dropped,
        discarded := s.discarded ++ s.state.queue.map payload }
  | transform {s : System β ε} {before lease after batch} : s.held = before ++ lease :: after →
      CountStep capacity s (.transform (.ok batch)) { s with
        held := before ++ { batch := batch, reservation := none } :: after, transformed := some (.ok batch) }
  | failTransform {s : System β ε} {before lease after source} : s.held = before ++ lease :: after →
      CountStep capacity s (.transform (.error source)) { s with
        held := before ++ after, expiring := lease :: s.expiring, transformed := some (.error (.io source)) }
  | dropLease {s : System β ε} {before lease after} : s.held = before ++ lease :: after →
      CountStep capacity s .dropLease { s with held := before ++ after }
  | expire {s : System β ε} {before lease after} : s.expiring = before ++ lease :: after →
      CountStep capacity s .expire { s with expiring := before ++ after }

/-- The state of the standard channel: its flags, where its messages are, and
a rendezvous that waits with its message queued. -/
structure Counted (s : System β ε) : Prop where
  ends : EndsAgree s
  order : s.enqueued = s.taken ++ s.state.queue.map payload ++ s.discarded
  kept : s.state.receiverAlive = true → s.discarded = []
  gone : s.state.receiverAlive = false → s.state.queue = []
  offered : ∀ message, s.sender = .acknowledging message ∨ s.sender = .waitingForReceiver message →
    s.state.queue ≠ []
  awake : (∀ message bytes, s.sender ≠ .waitingForRoom message bytes) ∧
    (∀ message, s.sender ≠ .acknowledging message) ∧ s.receiver ≠ .waiting

theorem counted_initial : Counted (System.initial : System β ε) where
  ends := ⟨by simp [System.initial, State.channel], by simp [System.initial, State.channel]⟩
  order := rfl
  kept := fun _ => rfl
  gone := fun _ => rfl
  offered := by simp [System.initial]
  awake := by simp [System.initial]

theorem payload_uncharged (message : Except ε β) : payload (uncharged message) = message := by
  cases message <;> rfl

theorem SendPhase.answered_spec (phase : SendPhase β ε) (result : Except (PipelineError ε) Unit) :
    (phase.answered result = .dropped ↔ phase = .dropped) ∧
      (∀ message, phase.answered result ≠ .waitingForReceiver message) ∧
      (∀ message, phase.answered result = .acknowledging message ↔ phase = .acknowledging message) ∧
      ∀ message bytes, phase.answered result = .waitingForRoom message bytes ↔
        phase = .waitingForRoom message bytes := by
  cases phase <;> simp [SendPhase.answered]

/-- A rendezvous that has been answered waits for nothing any more. -/
theorem SendPhase.answered_awake {phase : SendPhase β ε}
    (awake : (∀ message bytes, phase ≠ .waitingForRoom message bytes) ∧ ∀ message, phase ≠ .acknowledging message)
    (result : Except (PipelineError ε) Unit) :
    (∀ message, ¬(phase.answered result = .acknowledging message ∨
      phase.answered result = .waitingForReceiver message)) ∧
    (∀ message bytes, phase.answered result ≠ .waitingForRoom message bytes) ∧
    ∀ message, phase.answered result ≠ .acknowledging message := by
  obtain ⟨_, received, acknowledging, waiting⟩ := phase.answered_spec result
  refine ⟨?_, fun message bytes same => awake.1 message bytes ((waiting message bytes).mp same),
    fun message same => awake.2 message ((acknowledging message).mp same)⟩
  rintro message (same | same)
  · exact awake.2 message ((acknowledging message).mp same)
  · exact received message same

theorem CountStep.counted {capacity : Nat} {s t : System β ε} {action : Action β ε}
    (step : CountStep capacity s action t) (old : Counted s) : Counted t := by
  obtain ⟨⟨sender, receiver⟩, order, kept, gone, offered, awake⟩ := old
  have alive : ∀ {phase : SendPhase β ε}, s.sender ≠ .dropped → phase ≠ .dropped →
      (s.state.senderAlive = false ↔ phase = .dropped) :=
    fun before after => iff_of_false (fun lost => before (sender.mp lost)) after
  have listening : ∀ {phase : ReceivePhase β ε}, s.receiver ≠ .dropped → phase ≠ .dropped →
      (s.state.receiverAlive = false ↔ phase = .dropped) :=
    fun before after => iff_of_false (fun lost => before (receiver.mp lost)) after
  have answered := s.sender.answered_spec
  have released := @SendPhase.answered_awake _ _ s.sender ⟨awake.1, awake.2.1⟩
  cases step with
  | send free =>
    exact ⟨⟨alive (SendPhase.free_ne_dropped free) (by simp), receiver⟩, order, kept, gone, by simp, by simp,
      by simp, awake.2.2⟩
  | close phase =>
    exact ⟨⟨alive (by simp [phase]) (by simp), receiver⟩, order, kept, gone, by simp, by simp, by simp, awake.2.2⟩
  | @enqueue message bytes phase open' room =>
    refine ⟨⟨alive (by simp [phase]) (by split <;> simp), receiver⟩, ?_, kept, ?_, by simp, ?_, ?_, awake.2.2⟩
    · show s.enqueued ++ [message] = s.taken ++ (s.state.queue ++ [uncharged message]).map payload ++ s.discarded
      rw [order, kept open', List.map_append, List.map_singleton, payload_uncharged]
      simp
    · intro lost
      exact absurd (lost.symm.trans open') Bool.false_ne_true
    · split <;> simp
    · split <;> simp
  | dropSender free =>
    exact ⟨⟨iff_of_true rfl rfl, receiver⟩, order, kept, gone, by simp, by simp, by simp, awake.2.2⟩
  | recv free =>
    exact ⟨⟨sender, listening (ReceivePhase.free_ne_dropped free) (by simp)⟩, order, kept, gone, offered,
      awake.1, awake.2.1, by simp⟩
  | @take message rest phase queue =>
    refine ⟨⟨?_, listening (by simp [phase]) (by simp)⟩, ?_, kept, ?_, ?_, ?_, ?_, by simp⟩
    · exact sender.trans (answered _).1.symm
    · show s.enqueued = s.taken ++ [payload message] ++ rest.map payload ++ s.discarded
      rw [order, queue]
      simp
    · intro lost
      have empty := gone lost
      simp [queue] at empty
    · exact fun other same => absurd same ((released _).1 other)
    · exact (released _).2.1
    · exact (released _).2.2
  | finish phase =>
    exact ⟨⟨sender, listening (by simp [phase]) (by simp)⟩, order, kept, gone, offered, awake.1, awake.2.1, by simp⟩
  | dropReceiver free =>
    refine ⟨⟨?_, iff_of_true rfl rfl⟩, ?_, fun lost => Bool.noConfusion lost, fun _ => rfl, ?_, ?_, ?_, by simp⟩
    · exact sender.trans (answered _).1.symm
    · have open' : s.state.receiverAlive = true := by
        rw [← Bool.not_eq_false, receiver]
        exact ReceivePhase.free_ne_dropped free
      show s.enqueued = s.taken ++ [] ++ (s.discarded ++ s.state.queue.map payload)
      rw [order, kept open']
      simp
    · exact fun other same => absurd same ((released _).1 other)
    · exact (released _).2.1
    · exact (released _).2.2
  | transform | failTransform | dropLease | expire =>
    exact ⟨⟨sender, receiver⟩, order, kept, gone, offered, awake⟩

end Datacrate.Bounded
