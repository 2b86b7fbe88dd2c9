import Datacrate.Bounded.Transport

namespace Datacrate.Bounded

variable {β ε : Type} {memorySizes : β → List Nat} {control : Control} {state state' : State β ε}

theorem sendCharge_le {message : Except ε β} {bytes : Nat}
    (charged : sendCharge memorySizes control message = .ok bytes) : bytes ≤ control.limit := by
  rcases message with source | batch <;> simp only [sendCharge, bind, Except.bind] at charged
  · split at charged <;> cases charged
    omega
  · split at charged
    · cases charged
    · split at charged <;> cases charged
      omega

theorem sendCharge_batch_iff {batch : β} {bytes : Nat} :
    sendCharge memorySizes control (.ok batch : Except ε β) = .ok bytes ↔
      (charge memorySizes batch : Except (PipelineError ε) Nat) = .ok bytes ∧ bytes ≤ control.limit := by
  simp only [sendCharge, bind, Except.bind]
  rcases (charge memorySizes batch : Except (PipelineError ε) Nat) with error | charged
  · simp
  · dsimp only
    split
    · simp only [reduceCtorEq, Except.ok.injEq, false_iff, not_and]
      rintro rfl
      omega
    · simp only [Except.ok.injEq, iff_self_and]
      rintro rfl
      omega

theorem sendCharge_error {source : ε} {bytes : Nat}
    (charged : sendCharge memorySizes control (.error source : Except ε β) = .ok bytes) : bytes = 0 := by
  simp only [sendCharge, bind, Except.bind] at charged
  split at charged <;> cases charged
  rfl

theorem admission_eq (within : state.bytes ≤ control.limit) (bytes : Nat) :
    admission control state bytes = some (
      if state.cancelled || !state.receiverAlive then .closed
      else if countAvailable control state && decide (bytes ≤ control.limit - state.bytes) then .granted
      else .wait) := by
  unfold admission
  rw [Usize.checkedSub_of_le within]
  cases state.cancelled || !state.receiverAlive
  · cases countAvailable control state
    · rfl
    · by_cases fits : bytes ≤ control.limit - state.bytes <;> simp [fits]
  · rfl

theorem admission_admit (within : state.bytes ≤ control.limit) {bytes : Nat}
    (admitted : admission control state bytes = some .granted) :
    state.cancelled = false ∧ state.receiverAlive = true ∧ countAvailable control state = true ∧
      state.bytes + bytes ≤ control.limit := by
  rw [admission_eq within, Option.some.injEq] at admitted
  split at admitted
  · cases admitted
  · rename_i open'
    split at admitted
    · rename_i available
      simp only [Bool.or_eq_true, Bool.not_eq_true', not_or, Bool.not_eq_true, Bool.not_eq_false] at open'
      simp only [Bool.and_eq_true, decide_eq_true_eq] at available
      exact ⟨open'.1, open'.2, available.1, by omega⟩
    · cases admitted

theorem enqueue_eq_some_iff (message : Except ε β) (bytes : Nat) :
    enqueue state message bytes = some state' ↔ state.bytes + bytes < Usize.range ∧ state' =
      { state with
        bytes := state.bytes + bytes, peak := max state.peak (state.bytes + bytes),
        queue := state.queue ++ [message.map fun batch => { batch := batch, reservation := some bytes }] } := by
  unfold enqueue
  by_cases fits : state.bytes + bytes < Usize.range
  · simp [Usize.checkedAdd_of_lt fits, fits, eq_comm]
  · simp [Usize.checkedAdd, fits]

theorem release_eq_some_iff {lease : BatchLease β} :
    release state lease = some state' ↔
      lease.charged ≤ state.bytes ∧ state' = { state with bytes := state.bytes - lease.charged } := by
  unfold release BatchLease.charged
  cases lease.reservation with
  | none => exact ⟨fun same => ⟨Nat.zero_le _, (Option.some.inj same).symm⟩, fun same => congrArg some same.2.symm⟩
  | some bytes =>
    unfold Usize.checkedSub
    by_cases covers : bytes ≤ state.bytes <;> simp [covers, eq_comm]

/-- A growing reservation stays within the limit, or its growth is refused
and nothing changes. -/
theorem grow_eq (within : state.bytes ≤ control.limit) {retained bytes : Nat} (more : retained < bytes)
    (covered : retained ≤ state.bytes) :
    grow control state retained bytes = some (
      if bytes - retained ≤ control.limit - state.bytes then
        ({ state with
            bytes := state.bytes + (bytes - retained),
            peak := max state.peak (state.bytes + (bytes - retained)) }, .ok ())
      else (state, .error (.batchGrowthExceedsBudget bytes (retained + (control.limit - state.bytes))))) := by
  have fits := control.limit_fits
  unfold grow
  rw [Usize.checkedSub_of_le (Nat.le_of_lt more), Usize.checkedSub_of_le within]
  by_cases room : bytes - retained ≤ control.limit - state.bytes
  · have sum := Usize.checkedAdd_of_lt (by omega : state.bytes + (bytes - retained) < Usize.range)
    simp [room, sum, Nat.not_lt.mpr room]
  · have total := Usize.checkedAdd_of_lt (by omega : retained + (control.limit - state.bytes) < Usize.range)
    simp [room, total, Nat.lt_of_not_le room]

/-- What a transformation does to the state and to the reservation. -/
theorem transform_spec (within : state.bytes ≤ control.limit) {lease : BatchLease β}
    (covered : lease.charged ≤ state.bytes) (outcome : Except ε β) :
    ∃ state' result, transform control state memorySizes lease outcome = some (state', result) ∧
      ((state' = state ∧ ∀ lease', result = .ok lease' → lease'.charged = lease.charged) ∨
        ∃ growth batch, state.bytes + growth ≤ control.limit ∧
          state' = { state with
            bytes := state.bytes + growth, peak := max state.peak (state.bytes + growth) } ∧
          result = .ok { batch := batch, reservation := some (lease.charged + growth) }) := by
  unfold transform
  rcases outcome with source | batch
  · exact ⟨state, .error (.io source), rfl, Or.inl ⟨rfl, fun _ failed => nomatch failed⟩⟩
  rcases reserved : lease.reservation with _ | retained
  · refine ⟨state, .ok { batch := batch, reservation := none }, rfl, Or.inl ⟨rfl, fun lease' same => ?_⟩⟩
    cases same
    simp [BatchLease.charged, reserved]
  have charged : lease.charged = retained := by simp [BatchLease.charged, reserved]
  rw [charged] at covered
  rcases cost : charge memorySizes batch with error | bytes
  · exact ⟨state, .error error, by simp [cost], Or.inl ⟨rfl, fun _ failed => nomatch failed⟩⟩
  by_cases more : retained < bytes
  · by_cases room : bytes - retained ≤ control.limit - state.bytes
    · refine ⟨_, .ok { batch := batch, reservation := some bytes }, ?_, Or.inr
        ⟨bytes - retained, batch, by omega, rfl, ?_⟩⟩
      · simp only [cost, more, if_true, grow_eq within more covered, room]
        rfl
      · rw [charged, Nat.add_sub_cancel' (Nat.le_of_lt more)]
    · refine ⟨state, .error (.batchGrowthExceedsBudget bytes (retained + (control.limit - state.bytes))), ?_,
        Or.inl ⟨rfl, fun _ failed => nomatch failed⟩⟩
      simp only [cost, more, if_true, grow_eq within more covered, room, if_false]
      rfl
  · refine ⟨state, .ok { batch := batch, reservation := some retained }, by simp [cost, more],
      Or.inl ⟨rfl, fun lease' same => ?_⟩⟩
    cases same
    rw [charged]
    rfl

theorem grow_frame {retained bytes : Nat} {result : Except (PipelineError ε) Unit}
    (grown : grow control state retained bytes = some (state', result)) :
    state' = { state with bytes := state'.bytes, peak := state'.peak } := by
  simp only [grow, Option.bind_eq_bind, Option.bind_eq_some_iff] at grown
  obtain ⟨growth, _, available, _, rest⟩ := grown
  split at rest
  · obtain ⟨_, _, same⟩ := Option.bind_eq_some_iff.mp rest
    cases same
    rfl
  · obtain ⟨_, _, same⟩ := Option.bind_eq_some_iff.mp rest
    cases same
    rfl

/-- A transformation touches the budget alone. -/
theorem transform_frame {lease : BatchLease β} {outcome : Except ε β}
    {result : Except (PipelineError ε) (BatchLease β)}
    (done : transform control state memorySizes lease outcome = some (state', result)) :
    state' = { state with bytes := state'.bytes, peak := state'.peak } := by
  unfold transform at done
  split at done
  · cases done
    rfl
  split at done
  · cases done
    rfl
  split at done
  · cases done
    rfl
  split at done
  · obtain ⟨⟨grownState, grown⟩, kept, same⟩ := Option.bind_eq_some_iff.mp done
    cases same
    exact grow_frame kept
  · cases done
    rfl

theorem reception_cancelled_iff : reception state = .cancelled ↔ state.cancelled = true := by
  unfold reception
  cases state.cancelled
  · cases state.queue with
    | nil => cases state.senderAlive <;> simp
    | cons message rest => simp
  · simp

theorem reception_message_iff {message : Except ε (BatchLease β)} :
    reception state = .message message state' ↔ state.cancelled = false ∧ ∃ rest,
      state.queue = message :: rest ∧ state' = { state with queue := rest, receiverWaiting := false } := by
  unfold reception
  cases state.cancelled
  · cases state.queue with
    | nil => cases state.senderAlive <;> simp
    | cons first rest =>
      simp only [Bool.false_eq_true, if_false, Reception.message.injEq, List.cons.injEq, true_and]
      constructor
      · rintro ⟨rfl, rfl⟩
        exact ⟨rest, ⟨rfl, rfl⟩, rfl⟩
      · rintro ⟨_, ⟨rfl, rfl⟩, rfl⟩
        exact ⟨rfl, rfl⟩
  · simp

theorem reception_ended_iff : reception state = .ended ↔
    state.cancelled = false ∧ state.queue = [] ∧ state.senderAlive = false := by
  unfold reception
  cases state.cancelled
  · cases state.queue with
    | nil => cases state.senderAlive <;> simp
    | cons message rest => simp
  · simp

theorem reception_wait_iff : reception state = .wait state' ↔
    state.cancelled = false ∧ state.queue = [] ∧ state.senderAlive = true ∧
      state' = { state with receiverWaiting := true } := by
  unfold reception
  cases state.cancelled
  · cases state.queue with
    | nil => cases alive : state.senderAlive <;> simp [eq_comm]
    | cons message rest => simp
  · simp

end Datacrate.Bounded
