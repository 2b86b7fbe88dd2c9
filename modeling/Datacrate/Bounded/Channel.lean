import Datacrate.Bounded.SyncChannel

namespace Datacrate.Bounded

/-- The channel between producer and consumer: limited by count alone, or by
the bytes in flight as well. -/
inductive ChannelKind where
  | count (capacity : Nat)
  | budgeted (control : Control)

variable {β ε : Type}

def ChannelStep (memorySizes : β → List Nat) : ChannelKind → System β ε → Action β ε → System β ε → Prop
  | .count capacity => CountStep capacity
  | .budgeted control => Step memorySizes control

/-- The message may enter this kind of channel at all. -/
def Fits (memorySizes : β → List Nat) (kind : ChannelKind) (message : Except ε β) : Prop :=
  match kind with
  | .count _ => True
  | .budgeted control => ∃ bytes, sendCharge memorySizes control message = .ok bytes

def ChannelMoves (memorySizes : β → List Nat) (kind : ChannelKind) (s t : System β ε) : Prop :=
  ∃ action, Disciplined s action ∧ ChannelStep memorySizes kind s action t

/-- What an action can do to the sender's phase and to the messages it
enqueued. -/
inductive SenderMove (log : List (Except ε β)) :
    SendPhase β ε → Action β ε → SendPhase β ε → List (Except ε β) → Prop
  | same {phase action} : (∀ message, action ≠ .send message) → action ≠ .dropSender →
      SenderMove log phase action phase log
  | notified {phase action} : (∀ message, action ≠ .send message) → action ≠ .dropSender →
      SenderMove log phase action phase.notified log
  | begin {phase message bytes} : phase.free = true →
      SenderMove log phase (.send message) (.admitting message bytes) log
  | refuse {phase message error} : phase.free = true →
      SenderMove log phase (.send message) (.returned message (.error error)) log
  | park {message bytes} : SenderMove log (.admitting message bytes) .admission (.waitingForRoom message bytes) log
  | close {message bytes error} :
      SenderMove log (.admitting message bytes) .admission (.returned message (.error error)) log
  | push {message bytes phase} : phase = .waitingForReceiver message ∨ (∃ result, phase = .returned message result) →
      SenderMove log (.admitting message bytes) .admission phase (log ++ [message])
  | settle {phase action message next} : (∀ other, action ≠ .send other) → action ≠ .dropSender →
      phase = .acknowledging message ∨ phase = .waitingForReceiver message →
      next = .waitingForReceiver message ∨ (∃ result, next = .returned message result) →
      SenderMove log phase action next log
  | drop {phase} : phase.free = true → SenderMove log phase .dropSender .dropped log

/-- What an action can do to the receiver's phase and to the messages it
took. `exhausted` is what the end of the stream stands for. -/
inductive ReceiverMove (exhausted : Prop) (log : List (Except ε β)) :
    ReceivePhase β ε → Action β ε → ReceivePhase β ε → List (Except ε β) → Prop
  | same {phase action} : action ≠ .recv → action ≠ .dropReceiver → ReceiverMove exhausted log phase action phase log
  | notified {phase action} : action ≠ .recv → action ≠ .dropReceiver →
      ReceiverMove exhausted log phase action phase.notified log
  | begin {phase} : phase.free = true → ReceiverMove exhausted log phase .recv .polling log
  | await : ReceiverMove exhausted log .polling .poll .waiting log
  | take {message} : ReceiverMove exhausted log .polling .poll (.returned (delivery message)) (log ++ [payload message])
  | interrupt : ReceiverMove exhausted log .polling .poll (.returned (.error .cancelled)) log
  | finish : exhausted → ReceiverMove exhausted log .polling .poll (.returned (.ok none)) log
  | drop {phase} : phase.free = true → ReceiverMove exhausted log phase .dropReceiver .dropped log

section Moves

variable {memorySizes : β → List Nat} {kind : ChannelKind} {s t : System β ε} {action : Action β ε}

theorem settle_move (control : Control) (state : State β ε) (message : Except ε β) :
    settle control state message = .waitingForReceiver message ∨
      ∃ result, settle control state message = .returned message result := by
  unfold settle
  split
  · exact Or.inl rfl
  · exact Or.inr ⟨_, rfl⟩

theorem SendPhase.answered_move (log : List (Except ε β)) (phase : SendPhase β ε)
    (result : Except (PipelineError ε) Unit) (quiet : ∀ message, action ≠ .send message)
    (kept : action ≠ .dropSender) : SenderMove log phase action (phase.answered result) log := by
  cases phase with
  | waitingForReceiver message => exact .settle quiet kept (Or.inr rfl) (Or.inr ⟨result, rfl⟩)
  | _ => exact .same quiet kept

theorem Step.sender_move {control : Control} (step : Step memorySizes control s action t) :
    SenderMove s.enqueued s.sender action t.sender t.enqueued := by
  cases step with
  | refuse free => exact .refuse free
  | send free => exact .begin free
  | close phase => exact phase ▸ .close
  | park phase => exact phase ▸ .park
  | enqueue phase => exact phase ▸ .push (settle_move _ _ _)
  | acknowledge phase => exact .settle (by simp) (by simp) (Or.inl phase) (settle_move _ _ _)
  | dropSender free => exact .drop free
  | wakeSender | take | await | dropReceiver | dropLease | expire | cancel | discard =>
    exact .notified (by simp) (by simp)
  | recv | interrupt | finish | wakeReceiver | transform | failTransform | discardError =>
    exact .same (by simp) (by simp)
  | overflow beyond => cases action <;> first | exact beyond.elim | exact .same (by simp) (by simp)

theorem CountStep.sender_move {capacity : Nat} (step : CountStep capacity s action t) :
    SenderMove s.enqueued s.sender action t.sender t.enqueued := by
  cases step with
  | send free => exact .begin free
  | close phase => exact phase ▸ .close
  | enqueue phase =>
    rw [phase]
    refine .push ?_
    dsimp only
    split
    · exact Or.inl rfl
    · exact Or.inr ⟨_, rfl⟩
  | dropSender free => exact .drop free
  | take => exact s.sender.answered_move _ _ (by simp) (by simp)
  | dropReceiver => exact s.sender.answered_move _ _ (by simp) (by simp)
  | recv | finish | transform | failTransform | dropLease | expire => exact .same (by simp) (by simp)

/-- Everything known of a budgeted transport whose receiver is disciplined. -/
structure Budgeted (memorySizes : β → List Nat) (control : Control) (s : System β ε) : Prop where
  charged : PendingCharged memorySizes control s
  accounted : Accounted control s
  ends : EndsAgree s
  delivered : Delivered control s
  parked : Parked control s
  orderly : Orderly s

def Sound (memorySizes : β → List Nat) (s : System β ε) : ChannelKind → Prop
  | .count _ => Counted s
  | .budgeted control => Budgeted memorySizes control s

theorem reachable_sound (reach : Transition.Reachable System.initial (ChannelMoves memorySizes kind) s) :
    Sound memorySizes s kind := by
  cases kind with
  | count capacity =>
    exact reach.invariant Counted counted_initial fun _ old ⟨_, _, step⟩ => CountStep.counted step old
  | budgeted control =>
    have free : Transition.Reachable System.initial (Moves memorySizes control) s :=
      reach.mono fun ⟨action, _, step⟩ => ⟨action, step⟩
    obtain ⟨charged, accounted⟩ := reachable_accounted free
    exact ⟨charged, accounted, reachable_ends_agree free, reachable_delivered free, reachable_parked free,
      reachable_orderly reach⟩

theorem Sound.order (sound : Sound memorySizes s kind) :
    s.enqueued = s.taken ++ s.state.queue.map payload ++ s.discarded := by
  cases kind with
  | count capacity => exact Counted.order sound
  | budgeted control => exact (Budgeted.delivered sound).order

theorem Step.receiver_move {control : Control} (step : Step memorySizes control s action t)
    (delivered : Delivered control s) (ends : EndsAgree s) :
    ReceiverMove (s.sender = .dropped ∧ s.taken = s.enqueued) s.taken s.receiver action t.receiver t.taken := by
  cases step with
  | recv free => exact .begin free
  | interrupt phase => exact phase ▸ .interrupt
  | take phase => exact phase ▸ .take
  | finish phase ended =>
    obtain ⟨sender, taken, _⟩ := delivered.ended ends phase ended
    exact phase ▸ .finish ⟨sender, taken⟩
  | await phase => exact phase ▸ .await
  | dropReceiver free => exact .drop free
  | enqueue | dropSender | wakeReceiver | dropLease | expire | cancel | discard =>
    exact .notified (by simp) (by simp)
  | refuse | send | close | park | acknowledge | wakeSender | transform | failTransform | discardError =>
    exact .same (by simp) (by simp)
  | overflow beyond => cases action <;> first | exact beyond.elim | exact .same (by simp) (by simp)

theorem CountStep.receiver_move {capacity : Nat} (step : CountStep capacity s action t) (counted : Counted s) :
    ReceiverMove (s.sender = .dropped ∧ s.taken = s.enqueued) s.taken s.receiver action t.receiver t.taken := by
  cases step with
  | recv free => exact .begin free
  | take phase => exact phase ▸ .take
  | finish phase queue gone =>
    have listening : s.state.receiverAlive = true := by
      rw [← Bool.not_eq_false, counted.ends.2, phase]
      exact fun same => nomatch same
    have order := counted.order
    rw [queue, counted.kept listening] at order
    exact phase ▸ .finish ⟨counted.ends.1.mp gone, by simpa using order.symm⟩
  | dropReceiver free => exact .drop free
  | send | close | enqueue | dropSender | transform | failTransform | dropLease | expire =>
    exact .same (by simp) (by simp)

theorem ChannelStep.sender_move (step : ChannelStep memorySizes kind s action t) :
    SenderMove s.enqueued s.sender action t.sender t.enqueued := by
  cases kind with
  | count capacity => exact CountStep.sender_move step
  | budgeted control => exact Step.sender_move step

/-- Whatever entered the channel was able to. -/
theorem ChannelStep.fitting (step : ChannelStep memorySizes kind s action t) (sound : Sound memorySizes s kind)
    (old : ∀ message ∈ s.enqueued, Fits memorySizes kind message) :
    ∀ message ∈ t.enqueued, Fits memorySizes kind message := by
  have move := step.sender_move
  generalize phase : s.sender = before, t.sender = after, t.enqueued = log at move ⊢
  cases move with
  | @push message bytes =>
    have fits : Fits memorySizes kind message := by
      cases kind with
      | count capacity => exact trivial
      | budgeted control => exact ⟨bytes, Budgeted.charged sound message bytes (by rw [phase]; rfl)⟩
    intro other member
    rcases List.mem_append.mp member with earlier | last
    · exact old other earlier
    · exact List.mem_singleton.mp last ▸ fits
  | _ => exact old

theorem ChannelStep.receiver_move (step : ChannelStep memorySizes kind s action t)
    (sound : Sound memorySizes s kind) :
    ReceiverMove (s.sender = .dropped ∧ s.taken = s.enqueued) s.taken s.receiver action t.receiver t.taken := by
  cases kind with
  | count capacity => exact CountStep.receiver_move step sound
  | budgeted control => exact Step.receiver_move step (Budgeted.delivered sound) (Budgeted.ends sound)

/-- Where a call of `send` for `message` stands, `base` being what was
enqueued before it. -/
def Sending (base : List (Except ε β)) (message : Except ε β) (s : System β ε) : Prop :=
  (∃ bytes, s.sender.pending = some (message, bytes)) ∧ s.enqueued = base ∨
    (s.sender = .acknowledging message ∨ s.sender = .waitingForReceiver message) ∧ s.enqueued = base ++ [message] ∨
    ∃ result, s.sender = .returned message result ∧ (result = .ok () → s.enqueued = base ++ [message])

/-- Where a call of `recv` stands, `base` being what was taken before it. -/
def Receiving (base : List (Except ε β)) (s : System β ε) : Prop :=
  (s.receiver = .polling ∨ s.receiver = .waiting) ∧ s.taken = base ∨
    (∃ message, s.receiver = .returned (delivery message) ∧ s.taken = base ++ [payload message]) ∨
    s.receiver = .returned (.error .cancelled) ∨
    s.receiver = .returned (.ok none) ∧ s.taken = base ∧ s.sender = .dropped ∧ s.taken = s.enqueued

/-- What was enqueued stays. -/
theorem ChannelStep.enqueued_prefix (step : ChannelStep memorySizes kind s action t) : s.enqueued <+: t.enqueued := by
  have move := step.sender_move
  generalize s.sender = before, t.sender = after, t.enqueued = log at move ⊢
  cases move with
  | push => exact List.prefix_append _ _
  | _ => exact List.prefix_rfl

/-- Leases come from a poll and expire after a failed transformation. -/
theorem ChannelStep.leases (step : ChannelStep memorySizes kind s action t)
    (whole : ∀ outcome, action ≠ .transform outcome) :
    (s.expiring = [] → t.expiring = []) ∧ (s.receiver ≠ .polling → s.held = [] → t.held = []) := by
  cases kind with
  | count capacity =>
    cases step with
    | transform | failTransform => exact absurd rfl (whole _)
    | take phase => exact ⟨id, fun outside => absurd phase outside⟩
    | dropLease split | expire split => simp [split]
    | _ => exact ⟨id, fun _ => id⟩
  | budgeted control =>
    cases step with
    | transform | failTransform => exact absurd rfl (whole _)
    | take phase => exact ⟨id, fun outside => absurd phase outside⟩
    | dropLease split | expire split => simp [System.notifyAll, split]
    | _ => exact ⟨id, fun _ => id⟩

/-- Outside `send` no other thread touches what the sender sent. -/
theorem SenderMove.outside {log log' : List (Except ε β)} {phase phase' : SendPhase β ε}
    (move : SenderMove log phase action phase' log') (quiet : ∀ message, action ≠ .send message)
    (kept : action ≠ .dropSender) (outside : phase.free = true ∨ phase = .dropped) :
    phase' = phase ∧ log' = log := by
  cases move with
  | same => exact ⟨rfl, rfl⟩
  | notified => rcases phase <;> simp_all [SendPhase.notified, SendPhase.free]
  | settle _ _ inside => rcases inside with rfl | rfl <;> simp [SendPhase.free] at outside
  | begin | refuse => exact absurd rfl (quiet _)
  | drop => exact absurd rfl kept
  | park | close | push => simp [SendPhase.free] at outside

theorem ChannelStep.outside_send (step : ChannelStep memorySizes kind s action t)
    (quiet : ∀ message, action ≠ .send message) (kept : action ≠ .dropSender)
    (outside : s.sender.free = true ∨ s.sender = .dropped) : t.sender = s.sender ∧ t.enqueued = s.enqueued :=
  step.sender_move.outside quiet kept outside

theorem ChannelStep.begin_send {message : Except ε β} (step : ChannelStep memorySizes kind s (.send message) t) :
    Sending s.enqueued message t := by
  have move := step.sender_move
  unfold Sending
  generalize s.sender = before, t.sender = after, t.enqueued = log at move ⊢
  cases move with
  | same quiet | notified quiet | settle quiet => exact absurd rfl (quiet message)
  | begin => exact Or.inl ⟨⟨_, rfl⟩, rfl⟩
  | refuse => exact Or.inr (Or.inr ⟨_, rfl, by simp⟩)

theorem ChannelStep.inside_send {base : List (Except ε β)} {message : Except ε β}
    (step : ChannelStep memorySizes kind s action t) (quiet : ∀ message, action ≠ .send message)
    (kept : action ≠ .dropSender) (sending : Sending base message s) : Sending base message t := by
  have move := step.sender_move
  unfold Sending at sending ⊢
  generalize s.sender = before, t.sender = after, s.enqueued = log, t.enqueued = log' at sending move ⊢
  cases move with
  | same => exact sending
  | notified =>
    rcases before <;> simp only [SendPhase.notified, SendPhase.pending] at sending ⊢ <;> simp_all
  | begin | refuse => exact absurd rfl (quiet _)
  | drop => exact absurd rfl kept
  | park => simpa [SendPhase.pending] using sending
  | @close other bytes error =>
    obtain ⟨rfl, rfl⟩ : other = message ∧ log = base := by simpa [SendPhase.pending] using sending
    exact Or.inr (Or.inr ⟨_, rfl, by simp⟩)
  | @push other bytes _ next =>
    obtain ⟨rfl, rfl⟩ : other = message ∧ log = base := by simpa [SendPhase.pending] using sending
    rcases next with rfl | ⟨result, rfl⟩
    · exact Or.inr (Or.inl ⟨Or.inr rfl, rfl⟩)
    · exact Or.inr (Or.inr ⟨result, rfl, fun _ => rfl⟩)
  | @settle _ _ other _ _ _ inside next =>
    obtain ⟨rfl, logged⟩ : other = message ∧ log = base ++ [message] := by
      rcases inside with rfl | rfl <;> simpa [SendPhase.pending] using sending
    rcases next with rfl | ⟨result, rfl⟩
    · exact Or.inr (Or.inl ⟨Or.inr rfl, logged⟩)
    · exact Or.inr (Or.inr ⟨result, rfl, fun _ => logged⟩)

theorem ChannelStep.drop_sender (step : ChannelStep memorySizes kind s .dropSender t) :
    t.sender = .dropped ∧ t.enqueued = s.enqueued := by
  have move := step.sender_move
  generalize s.sender = before, t.sender = after, t.enqueued = log at move ⊢
  cases move with
  | same _ kept | notified _ kept | settle _ kept => exact absurd rfl kept
  | drop => exact ⟨rfl, rfl⟩

/-- Outside `recv` no other thread touches what the receiver took. -/
theorem ChannelStep.outside_recv (step : ChannelStep memorySizes kind s action t)
    (sound : Sound memorySizes s kind) (quiet : action ≠ .recv) (kept : action ≠ .dropReceiver)
    (outside : s.receiver.free = true ∨ s.receiver = .dropped) :
    t.receiver = s.receiver ∧ t.taken = s.taken := by
  have move := step.receiver_move sound
  generalize s.receiver = before, t.receiver = after, t.taken = log at outside move ⊢
  cases move with
  | same => exact ⟨rfl, rfl⟩
  | notified => rcases before <;> simp_all [ReceivePhase.notified, ReceivePhase.free]
  | begin => exact absurd rfl quiet
  | drop => exact absurd rfl kept
  | await | take | interrupt | finish => simp [ReceivePhase.free] at outside

theorem ChannelStep.begin_recv (step : ChannelStep memorySizes kind s .recv t) (sound : Sound memorySizes s kind) :
    Receiving s.taken t := by
  have move := step.receiver_move sound
  unfold Receiving
  generalize s.receiver = before, t.receiver = after, t.taken = log at move ⊢
  cases move with
  | same quiet | notified quiet => exact absurd rfl quiet
  | begin => exact Or.inl ⟨Or.inl rfl, rfl⟩

/-- A sender that is gone stays gone. -/
theorem ChannelStep.sender_gone (step : ChannelStep memorySizes kind s action t) (gone : s.sender = .dropped) :
    t.sender = .dropped ∧ t.enqueued = s.enqueued := by
  have move := step.sender_move
  generalize s.sender = before, t.sender = after, t.enqueued = log at gone move ⊢
  subst gone
  cases move with
  | same | notified => exact ⟨rfl, rfl⟩
  | settle _ _ inside => rcases inside with same | same <;> cases same
  | begin free | refuse free | drop free => cases free

theorem ChannelStep.inside_recv {base : List (Except ε β)} (step : ChannelStep memorySizes kind s action t)
    (sound : Sound memorySizes s kind) (quiet : action ≠ .recv) (kept : action ≠ .dropReceiver)
    (receiving : Receiving base s) : Receiving base t := by
  have outside := step.outside_recv sound quiet kept
  rcases receiving with ⟨inside, taken⟩ | ⟨message, returned, taken⟩ | returned | ⟨returned, taken, ended⟩
  · have move := step.receiver_move sound
    have gone := step.sender_gone
    unfold Receiving
    generalize s.receiver = before, t.receiver = after, t.taken = log at inside move ⊢
    cases move with
    | same => exact Or.inl ⟨inside, taken⟩
    | notified => rcases inside with rfl | rfl <;> exact Or.inl ⟨Or.inl rfl, taken⟩
    | begin free | drop free => rcases inside with rfl | rfl <;> cases free
    | await => exact Or.inl ⟨Or.inr rfl, taken⟩
    | take => exact Or.inr (Or.inl ⟨_, rfl, by rw [taken]⟩)
    | interrupt => exact Or.inr (Or.inr (Or.inl rfl))
    | finish exhausted =>
      obtain ⟨sender, log⟩ := gone exhausted.1
      exact Or.inr (Or.inr (Or.inr ⟨rfl, taken, sender, by rw [log, exhausted.2]⟩))
  · obtain ⟨receiver, log⟩ := outside (Or.inl (by rw [returned]; rfl))
    exact Or.inr (Or.inl ⟨message, receiver.trans returned, log.trans taken⟩)
  · obtain ⟨receiver, _⟩ := outside (Or.inl (by rw [returned]; rfl))
    exact Or.inr (Or.inr (Or.inl (receiver.trans returned)))
  · obtain ⟨receiver, log⟩ := outside (Or.inl (by rw [returned]; rfl))
    obtain ⟨sender, enqueued⟩ := step.sender_gone ended.1
    exact Or.inr (Or.inr (Or.inr ⟨receiver.trans returned, log.trans taken, sender, by rw [log, enqueued, ended.2]⟩))

theorem ChannelStep.drop_receiver (step : ChannelStep memorySizes kind s .dropReceiver t)
    (sound : Sound memorySizes s kind) : t.receiver = .dropped ∧ t.taken = s.taken := by
  have move := step.receiver_move sound
  generalize s.receiver = before, t.receiver = after, t.taken = log at move ⊢
  cases move with
  | same _ kept | notified _ kept => exact absurd rfl kept
  | drop => exact ⟨rfl, rfl⟩

end Moves

end Datacrate.Bounded
