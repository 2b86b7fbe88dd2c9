import Datacrate.Bounded.Channel

namespace Datacrate.Bounded

section Charges

variable {β ε : Type} {memorySizes : β → List Nat} {control : Control} {state state' : State β ε}

/-- The errors the transport has of its own, or passes on from the reader. -/
def PipelineError.OfTransport : PipelineError ε → Prop
  | .remotePublication _ | .localPublication .. => False
  | .batchTooLarge .. | .batchGrowthExceedsBudget .. | .byteChargeOverflow | .io _ | .cancelled => True

theorem charge_fails {batch : β} {error : PipelineError ε} (failed : charge memorySizes batch = .error error) :
    error = .byteChargeOverflow := by
  unfold charge checkedCharge at failed
  generalize memorySizes batch = sizes, 0 = sum at failed
  induction sizes generalizing sum with
  | nil => cases failed
  | cons size sizes ih =>
    rw [List.foldlM_cons] at failed
    rcases added : Usize.checkedAdd sum size with _ | more
    · rw [added] at failed
      cases failed
      rfl
    · rw [added] at failed
      exact ih more failed

theorem sendCharge_fails {message : Except ε β} {error : PipelineError ε}
    (failed : sendCharge memorySizes control message = .error error) : error.OfTransport := by
  have limited : ∀ bytes, (if control.limit < bytes then .error (.batchTooLarge bytes control.limit) else .ok bytes :
      Except (PipelineError ε) Nat) = .error error → error.OfTransport := by
    intro bytes large
    split at large
    · cases large
      trivial
    · cases large
  rcases message with source | batch
  · exact limited 0 failed
  · rcases cost : (charge memorySizes batch : Except (PipelineError ε) Nat) with overflow | bytes
    · simp only [sendCharge, cost, bind, Except.bind, Except.error.injEq] at failed
      rw [← failed, charge_fails cost]
      trivial
    · simp only [sendCharge, cost, bind, Except.bind] at failed
      exact limited bytes failed

theorem grow_fails {retained bytes : Nat} {error : PipelineError ε}
    (refused : grow control state retained bytes = some (state', .error error)) : error.OfTransport := by
  simp only [grow, Option.bind_eq_bind, Option.bind_eq_some_iff] at refused
  obtain ⟨growth, _, available, _, rest⟩ := refused
  split at rest
  · obtain ⟨_, _, same⟩ := Option.bind_eq_some_iff.mp rest
    cases same
    trivial
  · obtain ⟨_, _, same⟩ := Option.bind_eq_some_iff.mp rest
    cases same

/-- A transformed lease holds what the callback returned, and a failure is
the callback's or the budget's. -/
theorem transform_result {lease : BatchLease β} {outcome : Except ε β}
    {result : Except (PipelineError ε) (BatchLease β)}
    (done : transform control state memorySizes lease outcome = some (state', result)) :
    (∀ lease', result = .ok lease' → outcome = .ok lease'.batch) ∧
      ∀ error, result = .error error → error.OfTransport := by
  unfold transform at done
  split at done
  · cases done
    simp [PipelineError.OfTransport]
  split at done
  · cases done
    simp
  split at done
  · rename_i error cost
    cases done
    simp [charge_fails cost, PipelineError.OfTransport]
  split at done
  · obtain ⟨⟨grownState, grown⟩, kept, same⟩ := Option.bind_eq_some_iff.mp done
    cases same
    rcases grown with refused | room
    · refine ⟨by simp [Except.map], fun error same => ?_⟩
      cases same
      exact grow_fails kept
    · simp [Except.map, eq_comm]
  · cases done
    simp

end Charges

section Channel

variable {β ε : Type} {memorySizes : β → List Nat} {kind : ChannelKind} {s t : System β ε} {action : Action β ε}

/-- Both calls on the channel fail with errors of the transport alone. -/
structure Attributed (s : System β ε) : Prop where
  sent : ∀ message error, s.sender = .returned message (.error error) → error.OfTransport
  got : ∀ error, s.receiver = .returned (.error error) → error.OfTransport

theorem attributed_initial : Attributed (System.initial : System β ε) where
  sent := by simp [System.initial]
  got := by simp [System.initial]

theorem settle_fails {control : Control} {state : State β ε} {message other : Except ε β} {error : PipelineError ε}
    (returned : settle control state message = .returned other (.error error)) : error.OfTransport := by
  unfold settle at returned
  split at returned
  · cases returned
  · simp only [SendPhase.returned.injEq, sendResult] at returned
    split at returned
    · rw [← Except.error.inj returned.2]
      trivial
    · cases returned.2

theorem delivery_fails {message : Except ε (BatchLease β)} {error : PipelineError ε}
    (failed : delivery message = .error error) : error.OfTransport := by
  rcases message with source | lease
  · cases failed
    trivial
  · cases failed

theorem Step.attributed {control : Control} (step : Step memorySizes control s action t) (old : Attributed s) :
    Attributed t := by
  obtain ⟨sent, got⟩ := old
  have sent' : ∀ message error, s.sender.notified = .returned message (.error error) → error.OfTransport := by
    intro message error
    rw [SendPhase.notified_returned_iff]
    exact sent message error
  have got' : ∀ error, s.receiver.notified = .returned (.error error) → error.OfTransport := by
    intro error
    rw [ReceivePhase.notified_returned_iff]
    exact got error
  cases step with
  | refuse _ failed =>
    refine ⟨fun message error same => ?_, got⟩
    cases same
    exact sendCharge_fails failed
  | close =>
    refine ⟨fun message error same => ?_, got⟩
    cases same
    trivial
  | send | park => exact ⟨by simp, got⟩
  | enqueue => exact ⟨fun _ _ => settle_fails, got'⟩
  | acknowledge => exact ⟨fun _ _ => settle_fails, got⟩
  | dropSender => exact ⟨by simp, got'⟩
  | wakeSender => exact ⟨sent', got⟩
  | recv | finish => exact ⟨sent, by simp⟩
  | interrupt =>
    refine ⟨sent, fun error same => ?_⟩
    cases same
    trivial
  | take =>
    refine ⟨sent', fun error same => ?_⟩
    exact delivery_fails (ReceivePhase.returned.inj same)
  | await | dropReceiver => exact ⟨sent', by simp⟩
  | wakeReceiver => exact ⟨sent, got'⟩
  | dropLease | expire | cancel | discard => exact ⟨sent', got'⟩
  | transform | failTransform | discardError | overflow => exact ⟨sent, got⟩

theorem SendPhase.answered_fails {phase : SendPhase β ε} {result : Except (PipelineError ε) Unit}
    {message : Except ε β} {error : PipelineError ε} (returned : phase.answered result = .returned message (.error error)) :
    phase = .returned message (.error error) ∨ result = .error error := by
  cases phase with
  | waitingForReceiver =>
    cases returned
    exact Or.inr rfl
  | _ => exact Or.inl returned

theorem CountStep.attributed {capacity : Nat} (step : CountStep capacity s action t) (old : Attributed s) :
    Attributed t := by
  obtain ⟨sent, got⟩ := old
  cases step with
  | send => exact ⟨by simp, got⟩
  | close =>
    refine ⟨fun message error same => ?_, got⟩
    cases same
    trivial
  | enqueue => exact ⟨by split <;> simp, got⟩
  | dropSender => exact ⟨by simp, got⟩
  | recv | finish => exact ⟨sent, by simp⟩
  | take =>
    refine ⟨fun message error same => ?_, fun error same => delivery_fails (ReceivePhase.returned.inj same)⟩
    rcases SendPhase.answered_fails same with earlier | failed
    · exact sent message error earlier
    · cases failed
  | dropReceiver =>
    refine ⟨fun message error same => ?_, by simp⟩
    rcases SendPhase.answered_fails same with earlier | failed
    · exact sent message error earlier
    · cases failed
      trivial
  | transform | failTransform | dropLease | expire => exact ⟨sent, got⟩

theorem reachable_attributed (reach : Transition.Reachable System.initial (ChannelMoves memorySizes kind) s) :
    Attributed s := by
  refine reach.invariant Attributed attributed_initial fun _ old ⟨action, _, step⟩ => ?_
  cases kind with
  | count capacity => exact CountStep.attributed step old
  | budgeted control => exact Step.attributed step old

/-- What a transformation leaves for its caller. -/
theorem ChannelStep.transformed {outcome : Except ε β}
    (step : ChannelStep memorySizes kind s (.transform outcome) t) (sound : Sound memorySizes s kind) :
    ∃ result, t.transformed = some result ∧ (∀ batch, result = .ok batch → outcome = .ok batch) ∧
      ∀ error, result = .error error → error.OfTransport := by
  cases kind with
  | count capacity =>
    cases step with
    | transform => exact ⟨_, rfl, by simp, by simp⟩
    | failTransform => exact ⟨_, rfl, by simp, by simp [PipelineError.OfTransport]⟩
  | budgeted control =>
    cases step with
    | transform _ done =>
      refine ⟨_, rfl, fun batch same => ?_, by simp⟩
      cases same
      exact (transform_result done).1 _ rfl
    | failTransform _ done =>
      refine ⟨_, rfl, by simp, fun error same => ?_⟩
      cases same
      exact (transform_result done).2 _ rfl
    | overflow beyond => exact absurd (Budgeted.accounted sound) beyond.not_accounted

end Channel

end Datacrate.Bounded
