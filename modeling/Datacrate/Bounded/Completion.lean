import Datacrate.Bounded.Termination

namespace Datacrate.Bounded

section Channel

variable {β ε : Type} {memorySizes : β → List Nat} {kind : ChannelKind} {good : Except ε β → Prop}
  {s t : System β ε} {action : Action β ε}

/-- A channel on which nothing goes wrong: it carries good messages, no call
fails, and the receiver outlives the sender. -/
structure Smooth (good : Except ε β → Prop) (s : System β ε) : Prop where
  live : s.state.cancelled = false
  listening : s.receiver = .dropped → s.sender = .dropped
  sent : ∀ message result, s.sender = .returned message result → result = .ok ()
  got : ∀ error, s.receiver ≠ .returned (.error error)
  pending : ∀ message bytes, s.sender.pending = some (message, bytes) → good message
  enqueued : ∀ message ∈ s.enqueued, good message

/-- A message under way may be queued. -/
theorem Smooth.pushed {s : System β ε} {message : Except ε β} {bytes : Nat} (smooth : Smooth good s)
    (underway : s.sender.pending = some (message, bytes)) : ∀ other ∈ s.enqueued ++ [message], good other := by
  rw [List.forall_mem_append, List.forall_mem_singleton]
  exact ⟨smooth.enqueued, smooth.pending message bytes underway⟩

theorem smooth_initial : Smooth good (System.initial : System β ε) where
  live := rfl
  listening := by simp [System.initial]
  sent := by simp [System.initial]
  got := by simp [System.initial]
  pending := by simp [System.initial, SendPhase.pending]
  enqueued := by simp [System.initial]

theorem settle_live {control : Control} {state : State β ε} {message other : Except ε β}
    {result : Except (PipelineError ε) Unit} (live : state.cancelled = false) (alive : state.receiverAlive = true)
    (returned : settle control state message = .returned other result) : result = .ok () := by
  unfold settle at returned
  split at returned
  · cases returned
  · cases returned
    simp [sendResult, live, alive]

theorem SendPhase.pending_answered (phase : SendPhase β ε) (result : Except (PipelineError ε) Unit) :
    (phase.answered result).pending = phase.pending := by
  cases phase <;> rfl

theorem delivery_good (ok : ∀ message, good message → ∃ batch, message = .ok batch)
    {message : Except ε (BatchLease β)} (fine : good (payload message)) (error : PipelineError ε) :
    delivery message ≠ .error error := by
  obtain ⟨batch, same⟩ := ok _ fine
  rcases message with source | lease
  · cases same
  · exact fun failed => nomatch failed

theorem Smooth.alive (old : Smooth good s) (ends : EndsAgree s) (busy : s.sender ≠ .dropped) :
    s.state.receiverAlive = true := by
  rw [← Bool.not_eq_false, ends.2]
  exact fun gone => busy (old.listening gone)

theorem Smooth.queued (old : Smooth good s)
    (order : s.enqueued = s.taken ++ s.state.queue.map payload ++ s.discarded) {message : Except ε (BatchLease β)}
    {rest : List (Except ε (BatchLease β))} (queue : s.state.queue = message :: rest) : good (payload message) := by
  refine old.enqueued _ ?_
  rw [order, queue]
  simp

theorem Step.smooth {control : Control} (step : Step memorySizes control s action t)
    (sound : Budgeted memorySizes control s) (old : Smooth good s) (calm : action ≠ .cancel)
    (ok : ∀ message, good message → ∃ batch, message = .ok batch)
    (sends : ∀ message, action = .send message →
      good message ∧ ∃ bytes, sendCharge memorySizes control message = .ok bytes)
    (ended : action = .dropReceiver → s.sender = .dropped) : Smooth good t := by
  obtain ⟨live, listening, sent, got, pending, enqueued⟩ := id old
  have open' := old.alive sound.ends
  have listening' : s.receiver.notified = .dropped → s.sender.notified = .dropped := by
    rwa [ReceivePhase.notified_dropped_iff, SendPhase.notified_dropped_iff]
  have sent' : ∀ message result, s.sender.notified = .returned message result → result = .ok () := by
    intro message result
    rw [SendPhase.notified_returned_iff]
    exact sent message result
  have got' : ∀ error, s.receiver.notified ≠ .returned (.error error) := by
    intro error
    rw [ne_eq, ReceivePhase.notified_returned_iff]
    exact got error
  have pending' := pending
  rw [← s.sender.pending_notified] at pending'
  have busy : ∀ {phase : SendPhase β ε}, s.sender ≠ .dropped → s.receiver = .dropped → phase = .dropped :=
    fun before gone => absurd (listening gone) before
  cases step with
  | refuse _ failed =>
    obtain ⟨_, charged⟩ := (sends _ rfl).2
    rw [failed] at charged
    cases charged
  | send free =>
    refine ⟨live, busy (SendPhase.free_ne_dropped free), by simp, got, ?_, enqueued⟩
    intro message bytes same
    cases same
    exact (sends _ rfl).1
  | close phase closed =>
    have alive := open' (by simp [phase])
    rw [admission_eq (sound.accounted.bytes_eq ▸ sound.accounted.within)] at closed
    simp only [live, alive, Bool.not_true, Bool.or_self, Bool.false_eq_true, if_false] at closed
    split at closed <;> cases closed
  | park phase =>
    exact ⟨live, busy (by simp [phase]), by simp, got, by simpa [phase, SendPhase.pending] using pending, enqueued⟩
  | @enqueue message bytes state phase _ pushed =>
    have alive := open' (by simp [phase])
    have waiting : s.receiver ≠ .dropped := fun gone => by simp [phase] at listening; exact listening gone
    obtain ⟨_, rfl⟩ := (enqueue_eq_some_iff _ _).mp pushed
    refine ⟨live, ?_, fun other result => settle_live live alive, got', ?_, ?_⟩
    · exact fun gone => absurd ((s.receiver.notified_dropped_iff).mp gone) waiting
    · simp [pending_settle]
    · exact old.pushed (by rw [phase]; rfl)
  | acknowledge phase =>
    have alive := open' (by simp [phase])
    exact ⟨live, busy (by simp [phase]), fun other result => settle_live live alive, got, by simp [pending_settle],
      enqueued⟩
  | wakeSender =>
    exact ⟨live, fun gone => (s.sender.notified_dropped_iff).mpr (listening gone), sent', got, pending', enqueued⟩
  | dropSender => exact ⟨live, fun _ => rfl, by simp, got', by simp [SendPhase.pending], enqueued⟩
  | recv => exact ⟨live, by simp, sent, by simp, pending, enqueued⟩
  | interrupt _ cancelled => exact absurd (live.symm.trans (reception_cancelled_iff.mp cancelled)) (by simp)
  | take _ received =>
    obtain ⟨_, rest, queue, rfl⟩ := reception_message_iff.mp received
    have fine := old.queued sound.delivered.order queue
    refine ⟨live, by simp, sent', fun error => ?_, pending', enqueued⟩
    rw [ne_eq, ReceivePhase.returned.injEq]
    exact delivery_good ok fine error
  | finish => exact ⟨live, by simp, sent, by simp, pending, enqueued⟩
  | await _ waits =>
    obtain ⟨_, _, _, rfl⟩ := reception_wait_iff.mp waits
    exact ⟨live, by simp, sent', by simp, pending', enqueued⟩
  | wakeReceiver =>
    exact ⟨live, fun gone => listening ((s.receiver.notified_dropped_iff).mp gone), sent, got', pending, enqueued⟩
  | dropReceiver =>
    exact ⟨live, fun _ => (s.sender.notified_dropped_iff).mpr (ended rfl), sent', by simp, pending', enqueued⟩
  | transform _ done | failTransform _ done =>
    rw [transform_frame done]
    exact ⟨live, listening, sent, got, pending, enqueued⟩
  | dropLease _ given | expire _ given | discard _ given =>
    obtain ⟨_, rfl⟩ := release_eq_some_iff.mp given
    exact ⟨live, listening', sent', got', pending', enqueued⟩
  | cancel => exact absurd rfl calm
  | discardError => exact ⟨live, listening, sent, got, pending, enqueued⟩
  | overflow => exact ⟨live, listening, sent, got, pending, enqueued⟩

theorem CountStep.smooth {capacity : Nat} (step : CountStep capacity s action t) (counted : Counted s)
    (old : Smooth good s) (ok : ∀ message, good message → ∃ batch, message = .ok batch)
    (sends : ∀ message, action = .send message → good message)
    (ended : action = .dropReceiver → s.sender = .dropped) : Smooth good t := by
  obtain ⟨live, listening, sent, got, pending, enqueued⟩ := id old
  have open' := old.alive counted.ends
  have busy : ∀ {phase : SendPhase β ε}, s.sender ≠ .dropped → s.receiver = .dropped → phase = .dropped :=
    fun before gone => absurd (listening gone) before
  cases step with
  | send free =>
    refine ⟨live, busy (SendPhase.free_ne_dropped free), by simp, got, ?_, enqueued⟩
    intro message bytes same
    cases same
    exact sends _ rfl
  | close phase closed => exact absurd ((open' (by simp [phase])).symm.trans closed) (by simp)
  | @enqueue message bytes phase =>
    refine ⟨live, busy (by simp [phase]), ?_, got, ?_, ?_⟩
    · intro other result
      split
      · simp
      · rintro same
        cases same
        rfl
    · split <;> simp [SendPhase.pending]
    · exact old.pushed (by rw [phase]; rfl)
  | dropSender => exact ⟨live, fun _ => rfl, by simp, got, by simp [SendPhase.pending], enqueued⟩
  | recv => exact ⟨live, by simp, sent, by simp, pending, enqueued⟩
  | take phase queue =>
    have fine := old.queued counted.order queue
    refine ⟨live, by simp, ?_, fun error => ?_, ?_, enqueued⟩
    · intro message result
      cases waiting : s.sender <;> simp_all [SendPhase.answered]
    · rw [ne_eq, ReceivePhase.returned.injEq]
      exact delivery_good ok fine error
    · rwa [SendPhase.pending_answered]
  | finish => exact ⟨live, by simp, sent, by simp, pending, enqueued⟩
  | dropReceiver =>
    have gone := ended rfl
    simp only [gone, SendPhase.answered]
    exact ⟨live, fun _ => rfl, by simp, by simp, by simp [SendPhase.pending], enqueued⟩
  | transform | failTransform | dropLease | expire => exact ⟨live, listening, sent, got, pending, enqueued⟩

/-- A calm action keeps the channel smooth if what it sends fits. -/
theorem ChannelStep.smooth (step : ChannelStep memorySizes kind s action t) (sound : Sound memorySizes s kind)
    (old : Smooth good s) (calm : action ≠ .cancel) (ok : ∀ message, good message → ∃ batch, message = .ok batch)
    (sends : ∀ message, action = .send message → good message ∧ Fits memorySizes kind message)
    (ended : action = .dropReceiver → s.sender = .dropped) : Smooth good t := by
  cases kind with
  | count capacity => exact CountStep.smooth step sound old ok (fun message same => (sends message same).1) ended
  | budgeted control => exact Step.smooth step sound old calm ok sends ended

end Channel

open Datacrate.Ingest Chunks

variable {env : Setting} {s t : Pipeline} {cause : Cause} {rows : List Row}

/-- A batch of rows that fits the limit. -/
def GoodBatch (env : Setting) (message : IngestMessage) : Prop :=
  ∃ group, message = batchOf group ∧ WithinLimit env (rowBatch group)

/-- A well-formed input whose batches fit the limit and the offsets of a
string array, with room for the rows of a batch and for the slots of the
channel. -/
structure Feasible (env : Setting) (rows : List Row) : Prop where
  parsed : parseRows env.file = .ok rows
  within : ∀ group ∈ chunksOf env.config.batchSize rows, WithinLimit env (rowBatch group)
  text : ∀ group ∈ chunksOf env.config.batchSize rows, TextFits group
  batch : Allocates env env.config.batchSize env.rowBytes
  slots : SlotsAllocate env

/-- No cancellation and no fault. -/
def CalmMoves (env : Setting) (s t : Pipeline) : Prop :=
  ∃ cause, (cause = .work ∨ cause = .spurious) ∧ PipelineStep env none s cause t

def ProducerCalm (env : Setting) : Producer → Prop
  | .start | .reading _ _ _ => True
  | .sending message _ => GoodBatch env message
  | .returning outcome | .finished outcome => outcome = some (.ok ())

def ConsumerCalm : Consumer → Prop
  | .unwinding result | .finished result => ∃ report, result = .ok report
  | _ => True

def MainCalm : Main → Prop
  | .deciding result | .done result => ∃ report, result = .ok report
  | .panicked => False
  | _ => True

/-- So far nothing has gone wrong. -/
structure Calm (env : Setting) (s : Pipeline) : Prop where
  flag : s.flag = false
  smooth : Smooth (GoodBatch env) s.channel
  producer : ProducerCalm env s.producer
  consumer : ConsumerCalm s.consumer
  main : MainCalm s.main

theorem calm_initial : Calm env .initial :=
  ⟨rfl, smooth_initial, trivial, trivial, trivial⟩

theorem GoodBatch.fits {message : IngestMessage} (good : GoodBatch env message) :
    Fits env.memorySizes env.config.kind message := by
  obtain ⟨group, rfl, within⟩ := good
  exact fits_batch_iff.mpr within

theorem GoodBatch.ok (message : IngestMessage) (good : GoodBatch env message) : ∃ batch, message = .ok batch := by
  obtain ⟨group, rfl, _⟩ := good
  exact ⟨rowBatch group, rfl⟩

theorem readRows_split {index : Nat} {before after : List (Except String StringRecord)} {rows start : List Row}
    (whole : readRows index (before ++ after) = .ok rows) (read : readRows index before = .ok start) :
    ∃ rest, readRows (index + before.length) after = .ok rest ∧ rows = start ++ rest := by
  induction before generalizing index rows start with
  | nil =>
    cases read
    exact ⟨rows, whole, rfl⟩
  | cons record before ih =>
    simp only [readRows, bind, Except.bind, List.cons_append] at whole read
    rcases head : readRow index record with error | row
    · simp [head] at read
    rcases more : readRows (index + 1) before with error | tail
    · simp [head, more] at read
    rcases all : readRows (index + 1) (before ++ after) with error | complete
    · simp [head, all] at whole
    simp only [head, more, all, pure, Except.pure, Except.ok.injEq] at read whole
    obtain ⟨rest, next, same⟩ := ih all more
    refine ⟨rest, ?_, ?_⟩
    · rw [List.length_cons, Nat.add_comm before.length, ← Nat.add_assoc]
      exact next
    · rw [← whole, ← read, same, List.cons_append]

/-- On a feasible input the reader meets no error, and what it sends fits. -/
theorem Feasible.produce {index : Nat} {records : List (Except String StringRecord)} {chunk : List Row}
    {log : List IngestMessage} (feasible : Feasible env rows) (read : Read env index records chunk log) (flag : Bool) :
    match produce env flag index chunk records with
    | .panic => False
    | .send message _ => GoodBatch env message
    | _ => True := by
  obtain ⟨before, groups, opened, length, start, full, short, _⟩ := read
  have parsed := feasible.parsed
  simp only [parseRows, opened] at parsed
  obtain ⟨rest, tail, rfl⟩ := readRows_split parsed start
  have cut := chunksOf_flatten_append env.config.batchSize_pos full (chunk ++ rest)
  rw [← List.append_assoc] at cut
  have sent : ∀ group ∈ chunksOf env.config.batchSize (chunk ++ rest), ∀ next,
      match sendChunk env group next with
      | .panic => False
      | .send message _ => GoodBatch env message
      | _ => True := by
    intro group member next
    have inside : group ∈ chunksOf env.config.batchSize (groups.flatten ++ chunk ++ rest) := by
      rw [cut]
      exact List.mem_append_right _ member
    rw [sendChunk_eq, if_pos (feasible.text group inside)]
    exact ⟨group, rfl, feasible.within group inside⟩
  rw [Nat.zero_add, length] at tail
  cases records with
  | nil =>
    cases tail
    by_cases left : chunk ≠ [] ∧ flag = false
    · simp only [Bounded.produce, if_pos left]
      refine sent chunk ?_ none
      rw [List.append_nil, chunksOf_short left.1 short.le]
      exact List.mem_singleton_self _
    · simp only [Bounded.produce, if_neg left]
  | cons record records =>
    simp only [readRows, bind, Except.bind] at tail
    rcases head : readRow index record with error | row
    · simp [head] at tail
    rcases more : readRows (index + 1) records with error | others
    · simp [head, more] at tail
    simp only [head, more, pure, Except.pure, Except.ok.injEq] at tail
    cases flag with
    | true => simp only [Bounded.produce, if_true]
    | false =>
      simp only [Bounded.produce, head, Bool.false_eq_true, if_false]
      by_cases filled : (chunk ++ [row]).length = env.config.batchSize
      · rw [if_pos filled]
        refine sent (chunk ++ [row]) ?_ _
        rw [← tail, ← List.singleton_append, ← List.append_assoc, chunksOf_append env.config.batchSize_pos filled]
        exact List.mem_cons_self
      · rw [if_neg filled]
        trivial

theorem joined_calm {channel : System RecordBatch PipelineIoError} {base : PipelineReport} :
    ∃ report, joined env.config channel (.ok base) (.ok ()) = .ok report := by
  simp only [joined, bind, Except.bind, pure, Except.pure]
  split
  · exact ⟨_, rfl⟩
  · exact ⟨_, rfl⟩

theorem Controls.calm (step : Controls env s cause t) (calm : cause = .work ∨ cause = .spurious)
    (feasible : Feasible env rows) (old : Calm env s) : MainCalm t.main := by
  obtain ⟨flag, _, producer, consumer, main⟩ := old
  cases step with
  | refuse _ raised | abandon _ raised => exact absurd (flag.symm.trans raised) (by simp)
  | failCreate | failWriter | failSync | failRename | failParent => simp at calm
  | enter | create | connect | decide | sync | rename => trivial
  | overflow _ full => exact absurd feasible.slots full
  | join _ produced consumed =>
    rw [produced] at producer
    rw [consumed] at consumer
    obtain ⟨base, rfl⟩ := consumer
    cases producer
    exact joined_calm
  | panic _ produced =>
    rw [produced] at producer
    cases producer
  | fail phase =>
    rw [phase] at main
    obtain ⟨_, same⟩ := main
    cases same
  | publish => exact ⟨_, rfl⟩

theorem Produces.calm (step : Produces env s t) (feasible : Feasible env rows)
    (sound : Sound env.memorySizes s.channel env.config.kind)
    (holds : ProducerHolds env s.flag s.channel s.producer) (old : Calm env s) :
    Smooth (GoodBatch env) t.channel ∧ ProducerCalm env t.producer := by
  obtain ⟨flag, smooth, producer, _, _⟩ := old
  cases step with
  | openFail _ _ opened =>
    have parsed := feasible.parsed
    simp [parseRows, opened] at parsed
  | allocate | proceed => exact ⟨smooth, trivial⟩
  | overflow _ _ _ full => exact absurd feasible.batch full
  | finish => exact ⟨smooth, rfl⟩
  | panic phase turn =>
    rw [phase] at holds
    have good := feasible.produce holds.2 s.flag
    rw [turn] at good
    exact good.elim
  | keep => exact ⟨smooth, trivial⟩
  | @send index records chunk message next channel phase turn moved =>
    rw [phase] at holds
    have good : GoodBatch env message := by
      have sent := feasible.produce holds.2 s.flag
      rwa [turn] at sent
    refine ⟨moved.smooth sound smooth (by simp) GoodBatch.ok ?_ (by simp), good⟩
    intro other same
    cases same
    exact ⟨good, good.fits⟩
  | fail _ returned => cases smooth.sent _ _ returned
  | last _ returned => exact ⟨smooth, congrArg some (smooth.sent _ _ returned)⟩
  | drop phase moved =>
    rw [phase] at producer
    exact ⟨moved.smooth sound smooth (by simp) GoodBatch.ok (by simp) (by simp), producer⟩

theorem Consumes.calm (step : Consumes env none s cause t) (calm : cause = .work ∨ cause = .spurious)
    (sound : Sound env.memorySizes s.channel env.config.kind)
    (holds : ConsumerHolds env s.written s.closed s.channel s.consumer) (old : Calm env s) :
    Smooth (GoodBatch env) t.channel ∧ ConsumerCalm t.consumer := by
  obtain ⟨flag, smooth, _, consumer, _⟩ := old
  cases step with
  | refuse _ _ raised | interrupt _ raised | abandon _ raised => exact absurd (flag.symm.trans raised) (by simp)
  | start _ _ _ moved | next _ moved => exact ⟨moved.smooth sound smooth (by simp) GoodBatch.ok (by simp) (by simp), trivial⟩
  | fail _ returned => exact absurd returned (smooth.got _)
  | exhaust | receive | check | skip | accept | write | drain => exact ⟨smooth, trivial⟩
  | transform _ given | failTransform _ given => cases given
  | @reject report batch source phase rejected =>
    rw [phase] at holds
    obtain ⟨group, same, _⟩ : GoodBatch env (.ok batch) := by
      refine smooth.enqueued _ ?_
      rw [sound.order, holds.2.1]
      simp
    cases same
    rw [tryNew_rowBatch] at rejected
    cases rejected
  | failWrite | failClose => simp at calm
  | release phase moved =>
    refine ⟨moved.smooth sound smooth (by simp) GoodBatch.ok (by simp) (by simp), ?_⟩
    rwa [phase] at consumer ⊢
  | close => exact ⟨smooth, _, rfl⟩
  | unwindLease phase moved | unwindExpired phase moved =>
    refine ⟨moved.smooth sound smooth (by simp) GoodBatch.ok (by simp) (by simp), ?_⟩
    rwa [phase] at consumer ⊢
  | drop phase _ moved =>
    rw [phase] at consumer holds
    obtain ⟨report, rfl⟩ := consumer
    obtain ⟨⟨gone, _⟩, _⟩ := holds.2 report rfl
    exact ⟨moved.smooth sound smooth (by simp) GoodBatch.ok (by simp) (fun _ => gone), report, rfl⟩

theorem PipelineStep.calm (step : PipelineStep env none s cause t) (calm : cause = .work ∨ cause = .spurious)
    (feasible : Feasible env rows) (sound : Sound env.memorySizes s.channel env.config.kind)
    (holds : PipelineHolds env s) (old : Calm env s) : Calm env t := by
  obtain ⟨flag, smooth, producer, consumer, main⟩ := id old
  cases step with
  | control moved =>
    have next := moved.calm calm feasible old
    cases moved <;> exact ⟨flag, smooth, producer, consumer, next⟩
  | produce moved =>
    obtain ⟨smooth', producer'⟩ := moved.calm feasible sound holds.producer old
    cases moved <;> exact ⟨flag, smooth', producer', consumer, main⟩
  | consume moved =>
    obtain ⟨smooth', consumer'⟩ := moved.calm calm sound holds.consumer old
    cases moved <;> exact ⟨flag, smooth', producer, consumer', main⟩
  | channel internal moved =>
    refine ⟨flag, moved.smooth sound smooth ?_ GoodBatch.ok ?_ ?_, producer, consumer, main⟩
    · rintro rfl
      exact internal
    · rintro _ rfl
      exact internal.elim
    · rintro rfl
      exact internal.elim
  | wake woken moved =>
    refine ⟨flag, moved.smooth sound smooth ?_ GoodBatch.ok ?_ ?_, producer, consumer, main⟩ <;>
      rcases woken with rfl | rfl <;> simp
  | requestCancel | cancelTransport => simp at calm

theorem CalmMoves.moves (step : CalmMoves env s t) : PipelineMoves env none s t := by
  obtain ⟨cause, _, move⟩ := step
  exact ⟨cause, move⟩

theorem reachable_calm (feasible : Feasible env rows)
    (reach : Transition.Reachable .initial (CalmMoves env) s) : Calm env s := by
  refine reach.invariant (Calm env) calm_initial fun before old ⟨_, calm, step⟩ => ?_
  have free := before.mono CalmMoves.moves
  exact step.calm calm feasible (reachable_sound_channel free) (reachable_pipeline free) old

/-- A feasible run that is neither cancelled nor hit by a fault ends well,
however its threads are scheduled. -/
theorem Feasible.completes (feasible : Feasible env rows)
    (reach : Transition.Reachable .initial (CalmMoves env) s) :
    Transition.Inevitable (PipelineStep env none · .work ·) (fun s => ∃ report, s.main = .done (.ok report)) s := by
  refine reach.inevitable (Pipeline.rank env) (fun move => ⟨.work, Or.inl rfl, move⟩) (fun before => ?_)
    fun before move => move.lowers (Or.inl rfl) (before.mono CalmMoves.moves)
  have main := (reachable_calm feasible before).main
  rcases pipeline_moves (before.mono CalmMoves.moves) responsive_none with (panicked | ⟨result, done⟩) | moves
  · rw [panicked] at main
    exact main.elim
  · rw [done] at main
    obtain ⟨report, rfl⟩ := main
    exact Or.inl ⟨report, done⟩
  · exact Or.inr moves

/-- The calling thread has made the channel. -/
def Main.Entered : Main → Prop
  | .running | .deciding _ | .syncing _ | .renaming _ | .syncingParent _ | .done (.ok _) => True
  | _ => False

/-- The calling thread has the outcome of a producer that did not panic. -/
def Main.Joined : Main → Prop
  | .deciding _ | .syncing _ | .renaming _ | .syncingParent _ | .done (.ok _) => True
  | _ => False

/-- The producer has its chunk, unless the input could not be opened. -/
def Producer.Begun : Producer → Prop
  | .reading _ _ _ | .sending _ _ | .returning (some _) | .finished (some _) => True
  | _ => False

/-- A run that gets past an allocation had room for it. -/
structure Roomy (env : Setting) (s : Pipeline) : Prop where
  slots : s.main.Entered → SlotsAllocate env
  producer : s.producer.Begun → ∀ records, env.file.opened = .ok records →
    Allocates env env.config.batchSize env.rowBytes
  main : s.main.Joined → ∀ records, env.file.opened = .ok records →
    Allocates env env.config.batchSize env.rowBytes

theorem Controls.roomy (step : Controls env s cause t) (old : Roomy env s) : Roomy env t := by
  obtain ⟨slots, producer, main⟩ := old
  cases step with
  | connect _ room => exact ⟨fun _ => room, producer, False.elim⟩
  | join running produced =>
    rw [running] at slots
    rw [produced] at producer
    exact ⟨fun _ => slots trivial, by rwa [produced], fun _ => producer trivial⟩
  | decide phase | sync phase | rename phase | publish phase =>
    rw [phase] at slots main
    exact ⟨slots, producer, main⟩
  | refuse | enter | failCreate | failWriter | create | overflow | panic | fail | abandon | failSync | failRename
  | failParent => exact ⟨False.elim, producer, False.elim⟩

theorem Produces.roomy (step : Produces env s t) (old : Roomy env s) : Roomy env t := by
  obtain ⟨slots, producer, main⟩ := old
  cases step with
  | openFail _ _ failed =>
    refine ⟨slots, fun _ records opened => ?_, main⟩
    rw [failed] at opened
    cases opened
  | allocate _ _ _ fits => exact ⟨slots, fun _ _ _ => fits, main⟩
  | overflow | panic => exact ⟨slots, False.elim, main⟩
  | finish phase | keep phase | send phase | proceed phase | fail phase | last phase =>
    rw [phase] at producer
    exact ⟨slots, fun _ => producer trivial, main⟩
  | @drop outcome channel phase =>
    rw [phase] at producer
    refine ⟨slots, fun begun => producer ?_, main⟩
    cases outcome with
    | none => exact begun
    | some => trivial

theorem reachable_roomy {transform : Option Callback} (reach : Transition.Reachable .initial (PipelineMoves env transform) s) :
    Roomy env s := by
  refine reach.invariant (Roomy env) ⟨False.elim, False.elim, False.elim⟩ ?_
  rintro s t before old ⟨_, step⟩
  cases step with
  | control moved => exact moved.roomy old
  | produce moved => exact moved.roomy old
  | consume moved => cases moved <;> exact ⟨old.slots, old.producer, old.main⟩
  | channel | wake | requestCancel | cancelTransport => exact ⟨old.slots, old.producer, old.main⟩

/-- What a run that ends well has to do with the whole input: it published
its rows in batches, and its report is about these. -/
def Faithful (env : Setting) (s : Pipeline) (report : PipelineReport) : Prop :=
  ∃ rows whole checked batches, parseRows env.file = .ok rows ∧
    fixtureToRecordBatch env.arrow env.file = some (.ok whole) ∧ CheckedIngestBatch.tryNew whole = .ok checked ∧
    s.published = some (batches, true) ∧ batches = (chunksOf env.config.batchSize rows).map rowBatch ∧
    (batches.map RecordBatch.rows).flatten = whole.rows ∧ (∀ batch ∈ batches, WithinLimit env batch) ∧
    report.rowsWritten = whole.numRows ∧
    report.batchesWritten = (whole.numRows + env.config.batchSize - 1) / env.config.batchSize ∧
    report.contentDigest = accumulateBatchDigest env.hashRow 0 checked

/-- The outcome of an untransformed run does not depend on its tuning or on
the schedule of its threads: success publishes the whole input, and a run that
nothing disturbs succeeds on a well-formed input whose batches fit the limit. -/
structure Independent (env : Setting) : Prop where
  faithful : ∀ s report, Transition.Reachable .initial (PipelineMoves env none) s → s.main = .done (.ok report) →
    Faithful env s report
  completes : ∀ rows, parseRows env.file = .ok rows →
    (∀ group ∈ chunksOf env.config.batchSize rows, WithinLimit env (rowBatch group)) →
    ∀ s, Transition.Reachable .initial (CalmMoves env) s →
      Transition.Inevitable (PipelineStep env none · .work ·) (fun s => ∃ report, s.main = .done (.ok report)) s

/-- That is so exactly where there is room for what is allocated up front, and
the text of the whole input fits the offsets of a string array. -/
theorem bounded_pipeline_independent_iff (env : Setting) : Independent env ↔ ∀ rows, parseRows env.file = .ok rows →
    (∀ group ∈ chunksOf env.config.batchSize rows, WithinLimit env (rowBatch group)) →
    Allocates env env.config.batchSize env.rowBytes ∧ SlotsAllocate env ∧ TextFits rows := by
  constructor
  · rintro ⟨faithful, completes⟩ rows parsed within
    obtain ⟨s, worked, report, done⟩ := (completes rows parsed within .initial .start).occurs .start
    have reach : Transition.Reachable .initial (PipelineMoves env none) s := worked.mono fun step => ⟨_, step⟩
    have roomy := reachable_roomy reach
    obtain ⟨_, whole, _, _, _, read, _⟩ := faithful s report reach done
    simp only [fixtureToRecordBatch, parsed] at read
    refine ⟨?_, roomy.slots (by rw [done]; trivial), (batchFromRows_eq_some.mp read).1⟩
    cases opened : env.file.opened with
    | error source => simp [parseRows, opened] at parsed
    | ok records => exact roomy.main (by rw [done]; trivial) records opened
  · intro room
    refine ⟨fun s report reach done => ?_, fun rows parsed within s reach => ?_⟩
    · obtain ⟨rows, parsed, published, within, batches, count, digest⟩ := (reachable_pipeline reach).faithful done
      obtain ⟨_, _, text⟩ := room rows parsed within
      refine ⟨rows, rowBatch rows, checkedRows rows, _, parsed, ?_, tryNew_rowBatch rows, published, rfl, ?_, ?_, count,
        batches, ?_⟩
      · simp only [fixtureToRecordBatch, parsed]
        exact batchFromRows_eq_some.mpr ⟨text, rfl⟩
      · rw [List.map_map, rowBatch_rows]
        have each : RecordBatch.rows ∘ rowBatch = List.map Row.cells := funext rowBatch_rows
        rw [each, ← List.map_flatten, flatten_chunksOf env.config.batchSize_pos]
      · intro batch member
        obtain ⟨group, inside, rfl⟩ := List.mem_map.mp member
        exact within group inside
      · rw [accumulateBatchDigest_checkedRows]
        exact digest
    · obtain ⟨batch, slots, text⟩ := room rows parsed within
      refine Feasible.completes ⟨parsed, within, fun group member => ?_, batch, slots⟩ reach
      exact text.part (infix_of_mem_chunksOf env.config.batchSize_pos member)

/-- Two rows, in batches of `usize::MAX` rows of 56 bytes, on a machine that
grants every allocation that Rust asks for. -/
def vastBatch : Setting where
  file := { path := "input.csv", opened := .ok [.ok ["1", "ada", ""], .ok ["2", "bob", "x"]] }
  output := "output.parquet"
  config :=
    { batchSize := 2 ^ 64 - 1, channelCapacity := 4, maxAdmittedBytes := none, batchSize_pos := by decide }
  arrow := .documented
  memorySizes := fun _ => []
  hashRow := fun _ _ _ => 0
  rowBytes := 56
  slotBytes := 56
  heap := 2 ^ 63

/-- The two rows are well formed, nothing limits their bytes and they are
read at once, yet no run on them ends well: the producer cannot reserve its
chunk. -/
theorem vastBatch_dependent :
    parseRows vastBatch.file = .ok [⟨1, "ada", none⟩, ⟨2, "bob", some "x"⟩] ∧
      (∀ batch, WithinLimit vastBatch batch) ∧
      fixtureToRecordBatch vastBatch.arrow vastBatch.file =
        some (.ok (rowBatch [⟨1, "ada", none⟩, ⟨2, "bob", some "x"⟩])) ∧
      ¬ Independent vastBatch := by
  have parsed : parseRows vastBatch.file = .ok [⟨1, "ada", none⟩, ⟨2, "bob", some "x"⟩] := by decide
  refine ⟨parsed, fun batch limit given => (nomatch given), ?_, fun independent => ?_⟩
  · simp only [fixtureToRecordBatch, parsed]
    exact batchFromRows_eq_some.mpr ⟨by decide, rfl⟩
  · obtain ⟨s, worked, report, done⟩ :=
      (independent.completes _ parsed (fun _ _ _ given => nomatch given) .initial .start).occurs .start
    have reach : Transition.Reachable .initial (PipelineMoves vastBatch none) s := worked.mono fun step => ⟨_, step⟩
    have room := (reachable_roomy reach).main (by rw [done]; trivial) _ rfl
    simp [Allocates, vastBatch, Usize.range] at room

end Datacrate.Bounded
