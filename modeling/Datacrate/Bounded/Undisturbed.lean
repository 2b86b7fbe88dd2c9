import Datacrate.Bounded.Completion

namespace Datacrate.Bounded

variable {β ε : Type}

/-- The transport itself refuses the message, whatever is in flight. -/
def Refused (memorySizes : β → List Nat) (kind : ChannelKind) (message : Except ε β) (error : PipelineError ε) : Prop :=
  match kind with
  | .count _ => False
  | .budgeted control => sendCharge memorySizes control message = .error error

/-- In a budgeted channel the lease holds the charge of its batch. -/
def BatchLease.Exact (ε : Type) (memorySizes : β → List Nat) (kind : ChannelKind) (lease : BatchLease β) : Prop :=
  ∀ control, kind = .budgeted control →
    ∃ bytes, lease.reservation = some bytes ∧ (charge memorySizes lease.batch : Except (PipelineError ε) Nat) = .ok bytes

/-- A channel that nobody has cancelled. -/
structure Quiet (memorySizes : β → List Nat) (kind : ChannelKind) (s : System β ε) : Prop where
  live : s.state.cancelled = false
  heard : s.receiver ≠ .returned (.error .cancelled)
  exact' : ∀ lease, .ok lease ∈ s.state.queue → lease.Exact ε memorySizes kind

/-- Whatever the receiver holds is this batch, as it was queued. -/
def Holding (memorySizes : β → List Nat) (kind : ChannelKind) (batch : β) (s : System β ε) : Prop :=
  ∀ lease ∈ s.held, lease.batch = batch ∧ lease.Exact ε memorySizes kind

/-- A transformation enlarged a batch beyond what was left of the budget. -/
structure Outgrown (memorySizes : β → List Nat) (kind : ChannelKind) (batch result : β) (error : PipelineError ε) :
    Prop where
  budgeted : ∃ control, kind = .budgeted control
  grown : ∃ retained bytes available, (charge memorySizes batch : Except (PipelineError ε) Nat) = .ok retained ∧
    (charge memorySizes result : Except (PipelineError ε) Nat) = .ok bytes ∧ retained ≤ available ∧
    available < bytes ∧ error = .batchGrowthExceedsBudget bytes available

/-- What becomes of a batch for which the callback returned this value. -/
inductive Transformed (memorySizes : β → List Nat) (kind : ChannelKind) (batch value : β) :
    Except (PipelineError ε) β → Prop
  | fits : (∀ control, kind = .budgeted control →
      ∃ bytes, (charge memorySizes value : Except (PipelineError ε) Nat) = .ok bytes) →
      Transformed memorySizes kind batch value (.ok value)
  | overflow {control error} : kind = .budgeted control → charge memorySizes value = .error error →
      Transformed memorySizes kind batch value (.error error)
  | outgrown {error} : Outgrown memorySizes kind batch value error →
      Transformed memorySizes kind batch value (.error error)

section Steps

variable {memorySizes : β → List Nat} {kind : ChannelKind} {s t : System β ε} {action : Action β ε} {batch : β}

theorem delivery_ne_cancelled (message : Except ε (BatchLease β)) : delivery message ≠ .error .cancelled := by
  cases message <;> simp [delivery]

theorem Step.quiet {control : Control} (step : Step memorySizes control s action t)
    (charged : PendingCharged memorySizes control s) (old : Quiet memorySizes (.budgeted control) s)
    (calm : action ≠ .cancel) : Quiet memorySizes (.budgeted control) t := by
  obtain ⟨live, heard, queued⟩ := old
  have heard' : s.receiver.notified ≠ .returned (.error .cancelled) := by
    rw [ne_eq, ReceivePhase.notified_returned_iff]
    exact heard
  cases step with
  | refuse | send | close | park | acknowledge | wakeSender => exact ⟨live, heard, queued⟩
  | @enqueue message bytes state phase _ pushed =>
    obtain ⟨_, rfl⟩ := (enqueue_eq_some_iff _ _).mp pushed
    refine ⟨live, heard', fun lease member => ?_⟩
    rcases List.mem_append.mp member with earlier | last
    · exact queued lease earlier
    · have cost := charged message bytes (by rw [phase]; rfl)
      cases message with
      | error source => simp [Except.map] at last
      | ok value =>
        have same : lease = ⟨value, some bytes⟩ := by simpa [Except.map] using last
        subst same
        intro other same
        exact ⟨bytes, rfl, (sendCharge_batch_iff.mp cost).1⟩
  | dropSender => exact ⟨live, heard', queued⟩
  | recv | finish => exact ⟨live, by simp, queued⟩
  | interrupt _ cancelled => exact absurd (live.symm.trans (reception_cancelled_iff.mp cancelled)) (by simp)
  | take _ received =>
    obtain ⟨_, rest, queue, rfl⟩ := reception_message_iff.mp received
    refine ⟨live, fun same => delivery_ne_cancelled _ (ReceivePhase.returned.inj same), fun lease member => ?_⟩
    refine queued lease ?_
    rw [queue]
    exact List.mem_cons_of_mem _ member
  | await _ waits =>
    obtain ⟨_, _, _, rfl⟩ := reception_wait_iff.mp waits
    exact ⟨live, by simp, queued⟩
  | wakeReceiver => exact ⟨live, heard', queued⟩
  | dropReceiver => exact ⟨live, by simp, fun lease member => (nomatch member)⟩
  | transform _ done | failTransform _ done =>
    rw [transform_frame done]
    exact ⟨live, heard, queued⟩
  | dropLease _ given | expire _ given | discard _ given =>
    obtain ⟨_, rfl⟩ := release_eq_some_iff.mp given
    exact ⟨live, heard', queued⟩
  | cancel => exact absurd rfl calm
  | discardError | overflow => exact ⟨live, heard, queued⟩

theorem CountStep.quiet {capacity : Nat} (step : CountStep capacity s action t)
    (old : Quiet memorySizes (.count capacity) s) : Quiet memorySizes (.count capacity) t := by
  obtain ⟨live, heard, _⟩ := old
  have uncharged : ∀ lease : BatchLease β, lease.Exact ε memorySizes (.count capacity) := fun _ _ same => nomatch same
  cases step with
  | send | close | dropSender | transform | failTransform | dropLease | expire =>
    exact ⟨live, heard, fun lease _ => uncharged lease⟩
  | enqueue => exact ⟨live, heard, fun lease _ => uncharged lease⟩
  | recv | finish | dropReceiver => exact ⟨live, by simp, fun lease _ => uncharged lease⟩
  | take =>
    exact ⟨live, fun same => delivery_ne_cancelled _ (ReceivePhase.returned.inj same), fun lease _ => uncharged lease⟩

theorem ChannelStep.quiet (step : ChannelStep memorySizes kind s action t) (sound : Sound memorySizes s kind)
    (old : Quiet memorySizes kind s) (calm : action ≠ .cancel) : Quiet memorySizes kind t := by
  cases kind with
  | count capacity => exact CountStep.quiet step old
  | budgeted control => exact Step.quiet step (Budgeted.charged sound) old calm

theorem settle_denied {control : Control} {state : State β ε} {message other : Except ε β} {error : PipelineError ε}
    (live : state.cancelled = false) (returned : settle control state message = .returned other (.error error)) :
    state.receiverAlive = false := by
  rw [← Bool.not_eq_true]
  intro alive
  have fine := settle_live live alive returned
  cases fine

theorem Step.denied {control : Control} (step : Step memorySizes control s action t)
    (sound : Budgeted memorySizes control s) (live : s.state.cancelled = false) {message : Except ε β}
    {error : PipelineError ε} (failed : t.sender = .returned message (.error error)) :
    s.sender = .returned message (.error error) ∧ (∀ other, action ≠ .send other) ∨
      action = .send message ∧ sendCharge memorySizes control message = .error error ∧ t.enqueued = s.enqueued ∨
      t.receiver = .dropped := by
  have gone : s.state.receiverAlive = false → s.receiver = .dropped := sound.ends.2.mp
  cases step with
  | refuse _ refused =>
    cases failed
    exact Or.inr (Or.inl ⟨rfl, refused, rfl⟩)
  | send | park | dropSender => cases failed
  | @close message bytes phase closed =>
    rw [admission_eq (sound.accounted.bytes_eq ▸ sound.accounted.within), live, Bool.false_or] at closed
    refine Or.inr (Or.inr (gone ?_))
    cases alive : s.state.receiverAlive with
    | false => rfl
    | true =>
      simp only [alive, Bool.not_true, Bool.false_eq_true, if_false] at closed
      split at closed <;> cases closed
  | @enqueue message bytes state phase _ pushed =>
    obtain ⟨_, rfl⟩ := (enqueue_eq_some_iff _ _).mp pushed
    have lost := settle_denied (by exact live) failed
    exact Or.inr (Or.inr ((s.receiver.notified_dropped_iff).mpr (gone lost)))
  | acknowledge => exact Or.inr (Or.inr (gone (settle_denied live failed)))
  | wakeSender | take | await | dropReceiver | dropLease | expire | cancel | discard =>
    exact Or.inl ⟨(s.sender.notified_returned_iff _ _).mp failed, by simp⟩
  | recv | interrupt | finish | wakeReceiver | transform | failTransform | discardError => exact Or.inl ⟨failed, by simp⟩
  | overflow beyond => exact absurd sound.accounted beyond.not_accounted

theorem CountStep.denied {capacity : Nat} (step : CountStep capacity s action t) (counted : Counted s)
    {message : Except ε β} {error : PipelineError ε} (failed : t.sender = .returned message (.error error)) :
    s.sender = .returned message (.error error) ∧ (∀ other, action ≠ .send other) ∨ t.receiver = .dropped := by
  cases step with
  | send | dropSender => cases failed
  | close _ gone => exact Or.inr (counted.ends.2.mp gone)
  | enqueue =>
    dsimp only at failed
    split at failed <;> cases failed
  | take =>
    rcases SendPhase.answered_fails failed with earlier | refused
    · exact Or.inl ⟨earlier, by simp⟩
    · cases refused
  | dropReceiver => exact Or.inr rfl
  | recv | finish | transform | failTransform | dropLease | expire => exact Or.inl ⟨failed, by simp⟩

/-- In a quiet channel `send` fails because its message cannot be charged, or
because the receiver is gone. -/
theorem ChannelStep.denied (step : ChannelStep memorySizes kind s action t) (sound : Sound memorySizes s kind)
    (quiet : Quiet memorySizes kind s) {message : Except ε β} {error : PipelineError ε}
    (failed : t.sender = .returned message (.error error)) :
    s.sender = .returned message (.error error) ∧ (∀ other, action ≠ .send other) ∨
      action = .send message ∧ Refused memorySizes kind message error ∧ t.enqueued = s.enqueued ∨
      t.receiver = .dropped := by
  cases kind with
  | count capacity => exact (CountStep.denied step sound failed).imp_right Or.inr
  | budgeted control => exact Step.denied step sound quiet.live failed

theorem kept_of_split {held before after : List (BatchLease β)} {lease : BatchLease β}
    (split : held = before ++ lease :: after) : ∀ one ∈ before ++ after, one ∈ held := by
  intro one member
  rw [split, List.mem_append, List.mem_cons]
  exact (List.mem_append.mp member).imp_right Or.inr

/-- What the receiver holds changes only when it takes, transforms or drops. -/
theorem ChannelStep.held (step : ChannelStep memorySizes kind s action t)
    (whole : ∀ outcome, action ≠ .transform outcome) (outside : s.receiver ≠ .polling) :
    ∀ lease ∈ t.held, lease ∈ s.held := by
  cases kind with
  | count capacity =>
    cases step with
    | transform | failTransform => exact absurd rfl (whole _)
    | take phase => exact absurd phase outside
    | dropLease split => exact kept_of_split split
    | _ => exact fun _ => id
  | budgeted control =>
    cases step with
    | transform | failTransform => exact absurd rfl (whole _)
    | take phase => exact absurd phase outside
    | dropLease split => exact kept_of_split split
    | _ => exact fun _ => id

/-- A `recv` that began with empty hands ends with what it delivers. -/
def Fetching (memorySizes : β → List Nat) (kind : ChannelKind) (s : System β ε) : Prop :=
  (s.receiver = .polling ∨ s.receiver = .waiting → s.held = []) ∧
    ∀ batch, s.receiver = .returned (.ok (some batch)) → Holding memorySizes kind batch s

theorem Fetching.taken {message : Except ε (BatchLease β)} (empty : s.held = [])
    (fresh : ∀ lease, message = .ok lease → lease.Exact ε memorySizes kind)
    (receiver : t.receiver = .returned (delivery message)) (given : t.held = s.held ++ (leaseOf message).toList) :
    Fetching memorySizes kind t := by
  rw [empty, List.nil_append] at given
  refine ⟨by simp [receiver], fun batch returned lease member => ?_⟩
  rw [given] at member
  rw [receiver, ReceivePhase.returned.injEq] at returned
  cases message with
  | error source => cases returned
  | ok taken =>
    cases returned
    have same : lease = taken := by simpa [leaseOf] using member
    subst same
    exact ⟨rfl, fresh _ rfl⟩

theorem Fetching.kept (old : Fetching memorySizes kind s)
    (receiver : t.receiver = s.receiver ∨ t.receiver = s.receiver.notified)
    (held : ∀ lease ∈ t.held, lease ∈ s.held) : Fetching memorySizes kind t := by
  have back : t.receiver = .polling ∨ t.receiver = .waiting → s.receiver = .polling ∨ s.receiver = .waiting := by
    rcases receiver with same | same
    · rw [same]
      exact id
    · rw [same]
      cases s.receiver <;> simp [ReceivePhase.notified]
  refine ⟨fun inside => ?_, fun batch returned lease member => ?_⟩
  · refine List.eq_nil_iff_forall_not_mem.mpr fun lease member => ?_
    have known := held lease member
    rw [old.1 (back inside)] at known
    cases known
  · refine old.2 batch ?_ lease (held lease member)
    rcases receiver with same | same
    · rwa [same] at returned
    · rw [same] at returned
      exact (s.receiver.notified_returned_iff).mp returned

theorem Step.fetching {control : Control} (step : Step memorySizes control s action t)
    (quiet : Quiet memorySizes (.budgeted control) s) (whole : ∀ outcome, action ≠ .transform outcome)
    (started : action = .recv → s.held = []) (old : Fetching memorySizes (.budgeted control) s) :
    Fetching memorySizes (.budgeted control) t := by
  cases step with
  | recv => exact ⟨fun _ => started rfl, by simp⟩
  | interrupt | finish | dropReceiver => exact ⟨by simp, by simp⟩
  | take phase received =>
    obtain ⟨_, rest, queue, rfl⟩ := reception_message_iff.mp received
    refine Fetching.taken (old.1 (Or.inl phase)) (fun lease same => quiet.exact' lease ?_) rfl rfl
    rw [queue, same]
    exact List.mem_cons_self
  | await phase => exact ⟨fun _ => old.1 (Or.inl phase), by simp⟩
  | transform | failTransform => exact absurd rfl (whole _)
  | dropLease split => exact old.kept (Or.inr rfl) (kept_of_split split)
  | enqueue | dropSender | wakeReceiver | expire | cancel | discard => exact old.kept (Or.inr rfl) fun _ => id
  | refuse | send | close | park | acknowledge | wakeSender | discardError | overflow =>
    exact old.kept (Or.inl rfl) fun _ => id

theorem CountStep.fetching {capacity : Nat} (step : CountStep capacity s action t)
    (whole : ∀ outcome, action ≠ .transform outcome) (started : action = .recv → s.held = [])
    (old : Fetching memorySizes (.count capacity) s) : Fetching memorySizes (.count capacity) t := by
  cases step with
  | recv => exact ⟨fun _ => started rfl, by simp⟩
  | finish | dropReceiver => exact ⟨by simp, by simp⟩
  | take phase => exact Fetching.taken (old.1 (Or.inl phase)) (fun _ _ _ same => nomatch same) rfl rfl
  | transform | failTransform => exact absurd rfl (whole _)
  | dropLease split => exact old.kept (Or.inl rfl) (kept_of_split split)
  | send | close | enqueue | dropSender | expire => exact old.kept (Or.inl rfl) fun _ => id

theorem ChannelStep.fetching (step : ChannelStep memorySizes kind s action t) (quiet : Quiet memorySizes kind s)
    (whole : ∀ outcome, action ≠ .transform outcome) (started : action = .recv → s.held = [])
    (old : Fetching memorySizes kind s) : Fetching memorySizes kind t := by
  cases kind with
  | count capacity => exact CountStep.fetching step whole started old
  | budgeted control => exact Step.fetching step quiet whole started old

theorem transform_cases {control : Control} {state state' : State β ε} {lease : BatchLease β} {value : β}
    {result : Except (PipelineError ε) (BatchLease β)} (within : state.bytes ≤ control.limit)
    (covered : lease.charged ≤ state.bytes) (exact' : lease.Exact ε memorySizes (.budgeted control))
    (done : transform control state memorySizes lease (.ok value) = some (state', result)) :
    Transformed memorySizes (.budgeted control) lease.batch value (result.map (·.batch)) := by
  obtain ⟨retained, reserved, held⟩ := exact' control rfl
  have charged : lease.charged = retained := by simp [BatchLease.charged, reserved]
  rw [charged] at covered
  simp only [transform, reserved] at done
  rcases cost : (charge memorySizes value : Except (PipelineError ε) Nat) with error | bytes
  · simp only [cost, Option.some.injEq, Prod.mk.injEq, pure] at done
    rw [← done.2]
    exact .overflow rfl cost
  have fits : Transformed memorySizes (.budgeted control) lease.batch value (.ok value : Except (PipelineError ε) β) :=
    .fits fun _ _ => ⟨bytes, cost⟩
  simp only [cost] at done
  by_cases more : retained < bytes
  · simp only [more, if_true, grow_eq within more covered] at done
    by_cases room : bytes - retained ≤ control.limit - state.bytes
    · simp only [room, if_true, Option.bind_eq_bind, Option.bind_some, pure, Option.some.injEq, Prod.mk.injEq] at done
      rw [← done.2]
      exact fits
    · simp only [room, if_false, Option.bind_eq_bind, Option.bind_some, pure, Option.some.injEq, Prod.mk.injEq] at done
      rw [← done.2]
      exact .outgrown ⟨⟨control, rfl⟩, retained, bytes, _, held, cost, by omega, by omega, rfl⟩
  · simp only [more, if_false, pure, Option.some.injEq, Prod.mk.injEq] at done
    rw [← done.2]
    exact fits

/-- What a transformation leaves in its place: the result, if the callback
gave one and the budget has room for it. -/
theorem ChannelStep.transformed_cases {outcome : Except ε β} {result : Except (PipelineError ε) β}
    (step : ChannelStep memorySizes kind s (.transform outcome) t) (sound : Sound memorySizes s kind)
    (holding : Holding memorySizes kind batch s) (returned : t.transformed = some result) :
    match outcome with
    | .error source => result = .error (.io source)
    | .ok value => Transformed memorySizes kind batch value result := by
  cases kind with
  | count capacity =>
    cases step with
    | transform =>
      cases returned
      exact .fits fun _ same => nomatch same
    | failTransform => exact (Option.some.inj returned).symm
  | budgeted control =>
    have accounted := Budgeted.accounted sound
    have within : s.state.bytes ≤ control.limit := accounted.bytes_eq ▸ accounted.within
    cases outcome with
    | error source =>
      cases step with
      | transform _ done => cases done
      | failTransform _ done =>
        cases done
        exact (Option.some.inj returned).symm
      | overflow beyond => exact absurd accounted beyond.not_accounted
    | ok value =>
      have known : ∀ {before lease after state' left}, s.held = before ++ lease :: after →
          transform control s.state memorySizes lease (.ok value) = some (state', left) →
          Transformed memorySizes (.budgeted control) batch value (left.map (·.batch)) := by
        intro before lease after state' left split done
        have mine : lease ∈ s.held := by simp [split]
        obtain ⟨rfl, exact'⟩ := holding lease mine
        have live : lease ∈ s.reservations := by simp [System.reservations, mine]
        exact transform_cases within (accounted.charged_le live) exact' done
      cases step with
      | transform split done =>
        cases returned
        exact known split done
      | failTransform split done =>
        cases returned
        exact known split done
      | overflow beyond => exact absurd accounted beyond.not_accounted

end Steps

end Datacrate.Bounded
