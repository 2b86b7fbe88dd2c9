import Datacrate.Bounded.System

namespace Datacrate.Bounded

variable {β ε : Type} {memorySizes : β → List Nat} {control : Control}

/-- The charges of a list of leases, added up. -/
def totalCharge (leases : List (BatchLease β)) : Nat :=
  (leases.map BatchLease.charged).sum

section Totals

variable (xs ys : List (BatchLease β)) (lease : BatchLease β)

@[simp] theorem totalCharge_nil : totalCharge ([] : List (BatchLease β)) = 0 := rfl

@[simp] theorem totalCharge_cons : totalCharge (lease :: xs) = lease.charged + totalCharge xs := by
  simp [totalCharge]

@[simp] theorem totalCharge_append : totalCharge (xs ++ ys) = totalCharge xs + totalCharge ys := by
  simp [totalCharge]

theorem System.load_eq (s : System β ε) :
    s.load = totalCharge (s.state.queue.filterMap leaseOf) + totalCharge (s.discarding.filterMap leaseOf) +
      totalCharge s.held + totalCharge s.expiring := by
  unfold System.load System.reservations
  rw [← totalCharge, totalCharge_append, totalCharge_append, totalCharge_append]

theorem System.reservations_length (s : System β ε) :
    s.reservations.length = (s.state.queue.filterMap leaseOf).length + (s.discarding.filterMap leaseOf).length +
      s.held.length + s.expiring.length := by
  simp only [System.reservations, List.length_append]

end Totals

def isBatch : Except ε β → Bool
  | .ok _ => true
  | .error _ => false

/-- The budget is the sum of the live reservations. Once the channel is
closed nothing stays queued. -/
structure Accounted (control : Control) (s : System β ε) : Prop where
  sound : s.overflowed = false
  bytes_eq : s.state.bytes = s.load
  within : s.load ≤ control.limit
  peak_ge : s.load ≤ s.state.peak
  closed : s.state.cancelled = true ∨ s.state.receiverAlive = false → s.state.queue = []
  released_eq : (s.enqueued.filter isBatch).length = s.released + s.reservations.length

theorem accounted_initial : Accounted control (System.initial : System β ε) where
  sound := rfl
  bytes_eq := rfl
  within := Nat.zero_le _
  peak_ge := Nat.zero_le _
  closed := fun _ => rfl
  released_eq := rfl

/-- The message that waits for admission carries its own charge. -/
def PendingCharged (memorySizes : β → List Nat) (control : Control) (s : System β ε) : Prop :=
  ∀ message bytes, s.sender.pending = some (message, bytes) → sendCharge memorySizes control message = .ok bytes

section Preservation

variable {s t : System β ε}

/-- A message that leaves the queue or the discards undropped moves its
reservation along. -/
theorem totalCharge_leaseOf (message : Except ε (BatchLease β)) (rest : List (Except ε (BatchLease β))) :
    totalCharge ((message :: rest).filterMap leaseOf) =
      totalCharge (leaseOf message).toList + totalCharge (rest.filterMap leaseOf) := by
  rcases message with source | lease <;> simp [leaseOf, List.filterMap_cons]

theorem length_leaseOf (message : Except ε (BatchLease β)) (rest : List (Except ε (BatchLease β))) :
    ((message :: rest).filterMap leaseOf).length =
      (leaseOf message).toList.length + (rest.filterMap leaseOf).length := by
  rcases message with source | lease <;> simp [leaseOf, List.filterMap_cons, Nat.add_comm]

/-- A step that leaves the bytes, the peak and the live reservations alone. -/
theorem Accounted.kept (old : Accounted control s) (sound : t.overflowed = s.overflowed)
    (bytes : t.state.bytes = s.state.bytes) (peak : t.state.peak = s.state.peak) (load : t.load = s.load)
    (count : t.reservations.length = s.reservations.length) (enqueued : t.enqueued = s.enqueued)
    (released : t.released = s.released)
    (closed : t.state.cancelled = true ∨ t.state.receiverAlive = false → t.state.queue = []) :
    Accounted control t ∧ t.state.peak = max t.load s.state.peak := by
  have room := old.peak_ge
  refine ⟨⟨sound.trans old.sound, ?_, ?_, ?_, closed, ?_⟩, ?_⟩
  · rw [bytes, load, old.bytes_eq]
  · exact load ▸ old.within
  · rw [load, peak]
    exact room
  · rw [enqueued, released, count]
    exact old.released_eq
  · rw [peak, load]
    omega

/-- A step that drops one reservation and gives its charge back. -/
theorem Accounted.dropped (old : Accounted control s) {charged : Nat} (sound : t.overflowed = s.overflowed)
    (state : t.state = { s.state with bytes := s.state.bytes - charged }) (load : t.load + charged = s.load)
    (count : t.reservations.length + 1 = s.reservations.length) (enqueued : t.enqueued = s.enqueued)
    (released : t.released = s.released + 1) :
    Accounted control t ∧ t.state.peak = max t.load s.state.peak := by
  obtain ⟨sound', bytes_eq, within, room, closed, released_eq⟩ := old
  refine ⟨⟨sound.trans sound', ?_, ?_, ?_, ?_, ?_⟩, ?_⟩
  · rw [state]
    show s.state.bytes - charged = t.load
    omega
  · omega
  · rw [state]
    show t.load ≤ s.state.peak
    omega
  · rw [state]
    exact closed
  · rw [enqueued, released]
    omega
  · rw [state]
    show s.state.peak = max t.load s.state.peak
    omega

theorem Accounted.charged_le (old : Accounted control s) {lease : BatchLease β}
    (live : lease ∈ s.reservations) : lease.charged ≤ s.state.bytes := by
  rw [old.bytes_eq]
  exact List.le_sum_of_mem (List.mem_map_of_mem live)

theorem Overflows.not_accounted {action : Action β ε} (beyond : Overflows memorySizes control s action) :
    ¬ Accounted control s := by
  intro old
  have fits : s.state.bytes ≤ control.limit := old.bytes_eq ▸ old.within
  have dropped : ∀ lease ∈ s.reservations, release s.state lease ≠ none := by
    intro lease live failed
    have given := release_eq_some_iff.mpr ⟨old.charged_le live, rfl⟩
    rw [failed] at given
    cases given
  cases action with
  | admission =>
    obtain ⟨message, bytes, _, failed | ⟨admitted, failed⟩⟩ := beyond
    · rw [admission_eq fits] at failed
      cases failed
    · obtain ⟨_, _, _, room⟩ := admission_admit fits admitted
      have pushed := (enqueue_eq_some_iff message bytes).mpr ⟨room.trans_lt control.limit_fits, rfl⟩
      rw [failed] at pushed
      cases pushed
  | transform outcome =>
    obtain ⟨lease, held, failed⟩ := beyond
    have live : lease ∈ s.reservations := by simp [System.reservations, held]
    obtain ⟨_, _, done, _⟩ := transform_spec fits (old.charged_le live) outcome
    rw [failed] at done
    cases done
  | dropLease =>
    obtain ⟨lease, held, failed⟩ := beyond
    exact dropped lease (by simp [System.reservations, held]) failed
  | expire =>
    obtain ⟨lease, expiring, failed⟩ := beyond
    exact dropped lease (by simp [System.reservations, expiring]) failed
  | discard =>
    obtain ⟨lease, discarding, failed⟩ := beyond
    refine dropped lease ?_ failed
    simp only [System.reservations, List.mem_append, List.mem_filterMap]
    exact Or.inl (Or.inl (Or.inr ⟨_, discarding, rfl⟩))
  | _ => exact beyond

theorem SendPhase.pending_notified (phase : SendPhase β ε) : phase.notified.pending = phase.pending := by
  cases phase <;> rfl

theorem pending_settle (state : State β ε) (message : Except ε β) :
    (settle control state message).pending = none := by
  unfold settle
  split <;> rfl

theorem Step.pending_charged {action : Action β ε} (step : Step memorySizes control s action t)
    (old : PendingCharged memorySizes control s) : PendingCharged memorySizes control t := by
  have notified : ∀ message bytes, s.sender.notified.pending = some (message, bytes) →
      sendCharge memorySizes control message = .ok bytes := by
    intro message bytes pending
    exact old message bytes (s.sender.pending_notified ▸ pending)
  cases step with
  | send _ charged =>
    intro message bytes pending
    cases pending
    exact charged
  | refuse | close | dropSender => exact fun _ _ pending => nomatch pending
  | park phase waits =>
    intro message bytes pending
    exact old message bytes (by rw [phase]; exact pending)
  | enqueue | acknowledge =>
    intro message bytes pending
    rw [pending_settle] at pending
    cases pending
  | wakeSender | take | await | dropReceiver | dropLease | expire | cancel | discard => exact notified
  | recv | interrupt | finish | wakeReceiver | transform | failTransform | discardError | overflow => exact old

theorem Accounted.enqueued (old : Accounted control s) {message : Except ε β} {bytes : Nat} {state : State β ε}
    {sender : SendPhase β ε} (charged : sendCharge memorySizes control message = .ok bytes)
    (admitted : admission control s.state bytes = some .granted)
    (pushed : enqueue s.state message bytes = some state) :
    let t := { s.notifyAll with state := state, sender := sender, enqueued := s.enqueued ++ [message] }
    Accounted control t ∧ t.state.peak = max t.load s.state.peak := by
  intro t
  obtain ⟨sound, bytes_eq, within, room, closed, released_eq⟩ := old
  obtain ⟨alive, receiver, _, fits⟩ := admission_admit (bytes_eq ▸ within) admitted
  obtain ⟨_, rfl⟩ := (enqueue_eq_some_iff message bytes).mp pushed
  have load : t.load = s.load + bytes := by
    simp only [System.load_eq, System.notifyAll, t, List.filterMap_append, totalCharge_append, totalCharge_leaseOf]
    rcases message with source | batch
    · have free := sendCharge_error charged
      simp [Except.map, leaseOf, free]
    · simp [Except.map, leaseOf, BatchLease.charged]
      omega
  have count : t.reservations.length = s.reservations.length + ([message].filter isBatch).length := by
    simp only [System.reservations_length, System.notifyAll, t, List.filterMap_append, List.length_append,
      length_leaseOf]
    rcases message with source | batch
    · simp [Except.map, leaseOf, isBatch]
    · simp only [Except.map, leaseOf, isBatch, Option.toList_some, List.length_singleton, List.filterMap_nil,
        List.length_nil, List.filter_cons, List.filter_nil, if_true]
      omega
  refine ⟨⟨sound, ?_, ?_, ?_, ?_, ?_⟩, ?_⟩
  · rw [load, ← bytes_eq]
  · omega
  · rw [load, ← bytes_eq]
    exact le_max_right _ _
  · rintro (cancelled | gone)
    · exact absurd (alive.symm.trans cancelled) Bool.false_ne_true
    · exact absurd (gone.symm.trans receiver) Bool.false_ne_true
  · show ((s.enqueued ++ [message]).filter isBatch).length = s.released + t.reservations.length
    rw [count, List.filter_append, List.length_append, released_eq, Nat.add_assoc]
  · rw [load, ← bytes_eq]
    exact max_comm _ _

/-- A step that empties the queue into the discards. -/
theorem Accounted.drained (old : Accounted control s) {state : State β ε} {receiver : ReceivePhase β ε}
    {discarded : List (Except ε β)} (queue : state.queue = []) (bytes : state.bytes = s.state.bytes)
    (peak : state.peak = s.state.peak) :
    let t := { s.notifyAll with
      state := state, receiver := receiver, discarding := s.discarding ++ s.state.queue, discarded := discarded }
    Accounted control t ∧ t.state.peak = max t.load s.state.peak := by
  intro t
  refine old.kept rfl bytes peak ?_ ?_ rfl rfl fun _ => queue
  · simp only [System.load_eq, System.notifyAll, queue, t, List.filterMap_append, totalCharge_append,
      List.filterMap_nil, totalCharge_nil]
    omega
  · simp only [System.reservations_length, System.notifyAll, queue, t, List.filterMap_append, List.length_append,
      List.filterMap_nil, List.length_nil]
    omega

theorem Accounted.transformed (old : Accounted control s) {before after : List (BatchLease β)}
    {lease lease' : BatchLease β} {outcome : Except ε β} {state : State β ε}
    {transformed : Option (Except (PipelineError ε) β)}
    (split : s.held = before ++ lease :: after)
    (done : transform control s.state memorySizes lease outcome = some (state, .ok lease')) :
    let t := { s with state := state, held := before ++ lease' :: after, transformed := transformed }
    Accounted control t ∧ t.state.peak = max t.load s.state.peak := by
  intro t
  have live : lease ∈ s.reservations := by simp [System.reservations, split]
  have bytes_eq := old.bytes_eq
  have fits : s.state.bytes ≤ control.limit := bytes_eq ▸ old.within
  have room := old.peak_ge
  have count : state.queue = s.state.queue → t.reservations.length = s.reservations.length := by
    intro queue
    simp only [System.reservations_length, t, split, queue, List.length_append, List.length_cons]
  have load : state.queue = s.state.queue → t.load + lease.charged = s.load + lease'.charged := by
    intro queue
    simp only [System.load_eq, t, split, queue, totalCharge_append, totalCharge_cons]
    omega
  obtain ⟨_, _, effect, same | ⟨growth, batch, more, rfl, rfl⟩⟩ :=
    transform_spec fits (old.charged_le live) outcome
  · obtain ⟨rfl, rfl⟩ := Prod.mk.inj (Option.some.inj (done.symm.trans effect))
    obtain ⟨rfl, charged⟩ := same
    have same := load rfl
    rw [charged lease' rfl] at same
    exact old.kept rfl rfl rfl (by omega) (count rfl) rfl rfl old.closed
  · obtain ⟨rfl, grown⟩ := Prod.mk.inj (Option.some.inj (done.symm.trans effect))
    cases grown
    have raised : t.load = s.load + growth := by
      have balance := load rfl
      simp only [BatchLease.charged, Option.getD_some] at balance
      omega
    refine ⟨⟨old.sound, ?_, ?_, ?_, old.closed, ?_⟩, ?_⟩
    · rw [raised, ← bytes_eq]
    · omega
    · rw [raised, ← bytes_eq]
      exact le_max_right _ _
    · show (s.enqueued.filter isBatch).length = s.released + t.reservations.length
      rw [count rfl, old.released_eq]
    · rw [raised, ← bytes_eq]
      exact max_comm _ _

theorem Step.accounted {action : Action β ε} (step : Step memorySizes control s action t)
    (charged : PendingCharged memorySizes control s) (old : Accounted control s) :
    Accounted control t ∧ t.state.peak = max t.load s.state.peak := by
  have fits : s.state.bytes ≤ control.limit := old.bytes_eq ▸ old.within
  cases step with
  | refuse | send | close | park | acknowledge | wakeSender | dropSender | recv | interrupt | finish
  | wakeReceiver => exact old.kept rfl rfl rfl rfl rfl rfl rfl old.closed
  | await _ waits =>
    obtain ⟨_, _, _, rfl⟩ := reception_wait_iff.mp waits
    exact old.kept rfl rfl rfl rfl rfl rfl rfl old.closed
  | enqueue phase admitted pushed => exact old.enqueued (charged _ _ (by rw [phase]; rfl)) admitted pushed
  | take _ received =>
    obtain ⟨_, rest, queue, rfl⟩ := reception_message_iff.mp received
    refine old.kept rfl rfl rfl ?_ ?_ rfl rfl ?_
    · simp only [System.load_eq, System.notifyAll, queue, totalCharge_leaseOf, totalCharge_append]
      omega
    · simp only [System.reservations_length, System.notifyAll, queue, length_leaseOf, List.length_append]
      omega
    · intro closed
      have empty := old.closed closed
      rw [queue] at empty
      cases empty
  | dropReceiver => exact old.drained rfl rfl rfl
  | cancel => exact old.drained rfl rfl rfl
  | transform split grown => exact old.transformed split grown
  | @failTransform before lease after outcome state error split failed =>
    have live : lease ∈ s.reservations := by simp [System.reservations, split]
    obtain ⟨_, _, done, same | ⟨_, _, _, _, kept⟩⟩ :=
      transform_spec fits (old.charged_le live) outcome
    · obtain ⟨rfl, rfl⟩ := Prod.mk.inj (Option.some.inj (failed.symm.trans done))
      rw [same.1]
      refine old.kept rfl rfl rfl ?_ ?_ rfl rfl old.closed
      · simp only [System.load_eq, split, totalCharge_append, totalCharge_cons]
        omega
      · simp only [System.reservations_length, split, List.length_append, List.length_cons]
        omega
    · obtain ⟨_, rfl⟩ := Prod.mk.inj (Option.some.inj (failed.symm.trans done))
      cases kept
  | dropLease split given | expire split given =>
    obtain ⟨_, rfl⟩ := release_eq_some_iff.mp given
    refine old.dropped rfl rfl ?_ ?_ rfl rfl
    · simp only [System.load_eq, System.notifyAll, split, totalCharge_append, totalCharge_cons]
      omega
    · simp only [System.reservations_length, System.notifyAll, split, List.length_append, List.length_cons]
      omega
  | discard split given =>
    obtain ⟨_, rfl⟩ := release_eq_some_iff.mp given
    refine old.dropped rfl rfl ?_ ?_ rfl rfl
    · simp only [System.load_eq, System.notifyAll, split, List.filterMap_append, totalCharge_append,
        totalCharge_leaseOf, leaseOf, Option.toList_some, totalCharge_cons, totalCharge_nil]
      omega
    · simp only [System.reservations_length, System.notifyAll, split, List.filterMap_append, List.length_append,
        length_leaseOf, leaseOf, Option.toList_some, List.length_singleton]
      omega
  | discardError split =>
    refine old.kept rfl rfl rfl ?_ ?_ rfl rfl old.closed
    · simp only [System.load_eq, split, List.filterMap_append, totalCharge_append, totalCharge_leaseOf, leaseOf,
        Option.toList_none, totalCharge_nil]
      omega
    · simp only [System.reservations_length, split, List.filterMap_append, List.length_append, length_leaseOf,
        leaseOf, Option.toList_none, List.length_nil]
      omega
  | overflow beyond => exact absurd old beyond.not_accounted

end Preservation

theorem reachable_accounted {s : System β ε}
    (reach : Transition.Reachable System.initial (Moves memorySizes control) s) :
    PendingCharged memorySizes control s ∧ Accounted control s := by
  have start : PendingCharged memorySizes control (System.initial : System β ε) :=
    fun _ _ pending => nomatch pending
  exact reach.invariant (fun s => PendingCharged memorySizes control s ∧ Accounted control s)
    ⟨start, accounted_initial⟩
    fun _ ⟨charged, old⟩ ⟨_, step⟩ => ⟨step.pending_charged charged, (step.accounted charged old).1⟩

/-- The recorded bytes are those of the live reservations, within the limit,
and the peak is their greatest sum so far. No arithmetic leaves `usize`,
every reservation made is live or was released once, and a closed channel
keeps nothing queued. -/
theorem transport_bytes_accounted {s : System β ε} {past : List (System β ε)}
    (run : Transition.Run System.initial (Moves memorySizes control) (s :: past)) :
    s.state.bytes = s.load ∧ s.load ≤ control.limit ∧
      s.state.peak = ((s :: past).map System.load).foldr max 0 ∧
      s.overflowed = false ∧ (∀ action, ¬ Overflows memorySizes control s action) ∧
      (s.enqueued.filter isBatch).length = s.released + s.reservations.length ∧
      (s.reservations = [] → s.state.bytes = 0) ∧
      (s.state.cancelled = true ∨ s.receiver = .dropped → s.state.queue = []) := by
  obtain ⟨_, now⟩ := reachable_accounted run.reachable
  have raises : ∀ {s t : System β ε}, Transition.Reachable System.initial (Moves memorySizes control) s →
      Moves memorySizes control s t → t.state.peak = max t.load s.state.peak := by
    rintro s t reach ⟨action, step⟩
    obtain ⟨charged, old⟩ := reachable_accounted reach
    exact (step.accounted charged old).2
  refine ⟨now.bytes_eq, now.within, run.mark_eq_max _ (fun s => s.state.peak) rfl raises, now.sound,
    fun _ beyond => beyond.not_accounted now, now.released_eq, fun gone => ?_,
    fun ended => now.closed (ended.imp_right (reachable_ends_agree run.reachable).2.mpr)⟩
  rw [now.bytes_eq, System.load, gone]
  rfl

theorem queuedFour_accounted :
    queuedFour.state.bytes = queuedFour.load ∧ queuedFour.load ≤ oneSlot.limit :=
  ⟨(transport_bytes_accounted queuedFour_run).1, (transport_bytes_accounted queuedFour_run).2.1⟩

end Datacrate.Bounded
