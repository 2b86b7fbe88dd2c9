import Datacrate.Bounded.Termination

namespace Datacrate.Bounded

open Datacrate.Ingest

variable {env : Setting} {transform : Option Callback} {s t : Pipeline} {cause : Cause}

/-- A thread of the run gets on, or fails at what it does. -/
def Advances (env : Setting) (transform : Option Callback) (s t : Pipeline) : Prop :=
  ∃ cause, (cause = .work ∨ cause = .fault) ∧ PipelineStep env transform s cause t

/-- There is no room for the slots of the channel, or for the rows of a batch
of an input that could be opened; or one of its batches has more text than the
offsets of a string array reach. -/
def Cramped (env : Setting) : Prop :=
  ¬ SlotsAllocate env ∨ (∃ records, env.file.opened = .ok records) ∧ ¬ Allocates env env.config.batchSize env.rowBytes ∨
    none ∈ sends env

/-- What is left to the producer is left of the input, and it panics only
where it has no room. -/
def Remaining (env : Setting) : Producer → Prop
  | .reading index records chunk => sendsFrom env index chunk records <:+ sends env
  | .sending _ next => following env next <:+ sends env
  | .returning none | .finished none => Cramped env
  | _ => True

/-- A thread that panics had no room. -/
structure PanicHolds (env : Setting) (s : Pipeline) : Prop where
  producer : Remaining env s.producer
  main : s.main = .panicked → Cramped env

theorem Produces.panics (step : Produces env s t) (old : Remaining env s.producer) : Remaining env t.producer := by
  have turned : ∀ {index chunk records}, sendsFrom env index chunk records <:+ sends env →
      match produce env s.flag index chunk records with
      | .panic => Cramped env
      | .keep more => ∃ record rest, records = record :: rest ∧ sendsFrom env (index + 1) more rest <:+ sends env
      | .send _ next => following env next <:+ sends env
      | .finish => True := by
    intro index chunk records left
    cases s.flag with
    | true => simp only [produce_raised]
    | false =>
      have next := sendsFrom_produce env index chunk records
      revert next
      cases produce env false index chunk records with
      | finish => exact fun _ => trivial
      | panic =>
        rintro ⟨rest, same⟩
        exact Or.inr (Or.inr (left.subset (by rw [same]; exact List.mem_cons_self)))
      | keep more =>
        rintro ⟨record, rest, rfl, same⟩
        exact ⟨record, rest, rfl, same ▸ left⟩
      | send message next =>
        intro same
        rw [same] at left
        exact (List.suffix_cons _ _).trans left
  cases step with
  | openFail => exact List.nil_suffix
  | @allocate records _ _ opened =>
    have all : sends env = sendsFrom env 0 [] records := by
      unfold sends
      rw [opened]
    show sendsFrom env 0 [] records <:+ sends env
    exact all ▸ List.suffix_rfl
  | overflow _ _ opened full => exact Or.inr (Or.inl ⟨⟨_, opened⟩, full⟩)
  | finish => trivial
  | panic phase turn =>
    rw [phase] at old
    have next := turned old
    rwa [turn] at next
  | keep phase turn =>
    rw [phase] at old
    have next := turned old
    rw [turn] at next
    obtain ⟨_, _, same, left⟩ := next
    cases same
    exact left
  | send phase turn =>
    rw [phase] at old
    have next := turned old
    rwa [turn] at next
  | proceed phase =>
    rw [phase] at old
    exact old
  | fail | last => trivial
  | @drop outcome _ phase =>
    rw [phase] at old
    cases outcome <;> exact old

theorem Controls.panics (step : Controls env s cause t) (old : PanicHolds env s) : t.main = .panicked → Cramped env := by
  cases step with
  | overflow _ full => exact fun _ => Or.inl full
  | panic _ produced =>
    have panicked := old.producer
    rw [produced] at panicked
    exact fun _ => panicked
  | refuse | enter | failCreate | failWriter | create | connect | join | fail | abandon | decide | failSync | sync
  | failRename | rename | failParent | publish => exact fun ended => nomatch ended

theorem reachable_panics (reach : Transition.Reachable .initial (PipelineMoves env transform) s) : PanicHolds env s := by
  refine reach.invariant (PanicHolds env) ⟨trivial, by simp [Pipeline.initial]⟩ ?_
  intro s t before old ⟨_, step⟩
  have producer : Remaining env t.producer := by
    rcases step.unsent with moved | ⟨same, _⟩
    · exact moved.panics old.producer
    · rw [same]
      exact old.producer
  rcases step.undecided with moved | ⟨same, _⟩
  · exact ⟨producer, moved.panics old⟩
  · refine ⟨producer, fun ended => old.main ?_⟩
    rwa [← same]

/-- Whatever the input is, whatever its callback makes of the batches and
whenever it is cancelled or hit by faults, a run ends: it returns, and panics
only for want of room. -/
theorem run_inevitably_ends (answers : Responsive transform)
    (reach : Transition.Reachable .initial (PipelineMoves env transform) s) :
    Transition.Inevitable (Advances env transform)
      (fun t => (∃ result, t.main = .done result) ∨ t.main = .panicked ∧ Cramped env) s := by
  refine reach.inevitable (Pipeline.rank env) ?_ ?_ ?_
  · intro s t ⟨cause, _, move⟩
    exact ⟨cause, move⟩
  · intro s before
    rcases pipeline_moves before answers with (panicked | returned) | ⟨t, move⟩
    · exact Or.inl (Or.inr ⟨panicked, (reachable_panics before).main panicked⟩)
    · exact Or.inl (Or.inl returned)
    · exact Or.inr ⟨t, .work, Or.inl rfl, move⟩
  · intro s t before ⟨cause, forward, move⟩
    exact move.lowers forward before

theorem oneRow_inevitably_ends :
    Transition.Inevitable (Advances oneRow (some keepBatch))
      (fun t => (∃ result, t.main = .done result) ∨ t.main = .panicked ∧ Cramped oneRow) .initial := by
  refine run_inevitably_ends ?_ .start
  intro callback given batch
  cases given
  exact ⟨.ok batch, rfl⟩

/-- The batches in hand that the consumer will still write once the token is
cancelled. -/
def Consumer.unwritten : Consumer → Nat
  | .transforming _ _ | .validating _ _ | .writing _ _ => 1
  | _ => 0

/-- The messages that the producer will still send once the token is
cancelled. -/
def Pipeline.unsent (s : Pipeline) : Nat :=
  match s.producer with
  | .start => 1
  | _ => s.channel.sender.pending.toList.length

/-- The calling thread has gone on to publish. -/
def Main.Decided : Main → Prop
  | .syncing _ | .renaming _ | .syncingParent _ | .done (.ok _) => True
  | _ => False

theorem Consumes.unwritten (step : Consumes env transform s cause t) (raised : s.flag = true) :
    t.written.length + t.consumer.unwritten ≤ s.written.length + s.consumer.unwritten := by
  cases step with
  | start _ _ lowered | check _ lowered | drain _ lowered => cases raised.symm.trans lowered
  | write phase =>
    rw [phase, List.length_append, List.length_singleton]
    exact le_rfl
  | skip phase | transform phase | accept phase =>
    rw [phase]
    exact le_rfl
  | refuse | fail | exhaust | receive | interrupt | failTransform | reject | failWrite | next | abandon | failClose
  | close | drop => simp [Consumer.unwritten]
  | release | unwindLease | unwindExpired => exact le_rfl

/-- A sender that sends nothing new has no more than its message to queue. -/
theorem SenderMove.owed {β ε : Type} {log log' : List (Except ε β)} {phase phase' : SendPhase β ε} {action : Action β ε}
    (move : SenderMove log phase action phase' log') (quiet : ∀ message, action ≠ .send message) :
    log'.length + phase'.pending.toList.length ≤ log.length + phase.pending.toList.length := by
  cases move with
  | same => exact le_rfl
  | notified => rw [SendPhase.pending_notified]
  | begin | refuse => exact absurd rfl (quiet _)
  | park => exact le_rfl
  | close => simp [SendPhase.pending]
  | push next =>
    rcases next with rfl | ⟨result, rfl⟩ <;> simp [SendPhase.pending]
  | settle _ _ inside next =>
    rcases next with rfl | ⟨result, rfl⟩ <;> simp [SendPhase.pending]
  | drop => simp [SendPhase.pending]

theorem SenderMove.begun {β ε : Type} {log log' : List (Except ε β)} {phase phase' : SendPhase β ε}
    {message : Except ε β} (move : SenderMove log phase (.send message) phase' log') : log' = log := by
  cases move with
  | same quiet | notified quiet | settle quiet => exact absurd rfl (quiet message)
  | begin | refuse => rfl

theorem Produces.unsent (step : Produces env s t) (raised : s.flag = true) :
    t.channel.enqueued.length + t.unsent ≤ s.channel.enqueued.length + s.unsent := by
  have one : ∀ pending : Option (IngestMessage × Nat), pending.toList.length ≤ 1 := by
    intro pending
    cases pending <;> simp
  unfold Pipeline.unsent
  cases step with
  | @openFail _ channel _ phase _ sent =>
    have same := congrArg List.length sent.sender_move.begun
    have owed := one channel.sender.pending
    simp only [phase]
    omega
  | allocate _ phase | overflow _ phase =>
    have owed := one s.channel.sender.pending
    simp only [phase]
    omega
  | finish phase | panic phase | keep phase | proceed phase | fail phase | last phase =>
    simp only [phase]
    exact le_rfl
  | send _ turn =>
    rw [raised, produce_raised] at turn
    cases turn
  | drop phase moved =>
    have owed := moved.sender_move.owed (by simp)
    simp only [phase]
    exact owed

theorem PipelineStep.unsent_le (step : PipelineStep env transform s cause t) (raised : s.flag = true)
    (holds : ProducerHolds env s.flag s.channel s.producer) :
    t.channel.enqueued.length + t.unsent ≤ s.channel.enqueued.length + s.unsent := by
  rcases step.unsent with moved | ⟨producer, _, same | ⟨action, quiet, _, moved⟩⟩
  · exact moved.unsent raised
  · unfold Pipeline.unsent
    rw [producer, same]
  · have owed := moved.sender_move.owed quiet
    unfold Pipeline.unsent
    rw [producer]
    cases phase : s.producer with
    | start =>
      rw [phase] at holds
      have idle : s.channel.sender.pending.toList.length = 0 := by
        have free := holds.1
        cases sender : s.channel.sender <;> simp_all [SendPhase.free, SendPhase.pending]
      dsimp only
      omega
    | reading | sending | returning | finished => exact owed

/-- Nothing is published, and the run has not ended well. -/
def Withheld (s : Pipeline) : Prop :=
  s.flag = true ∧ s.published = none ∧ ¬ s.main.Decided

theorem Controls.withheld (step : Controls env s cause t) (old : Withheld s) : Withheld t := by
  obtain ⟨raised, unpublished, undecided⟩ := old
  cases step with
  | decide _ lowered => cases raised.symm.trans lowered
  | failSync phase | sync phase | failRename phase | rename phase | failParent phase | publish phase =>
    exact absurd (by rw [phase]; trivial) undecided
  | refuse | enter | failCreate | failWriter | create | connect | overflow | join | panic | fail | abandon =>
    exact ⟨raised, unpublished, id⟩

/-- Once its token is cancelled a run sends at most the message in hand and
writes at most the batch in hand, and it publishes nothing unless the calling
thread had already gone on to publish. -/
theorem cancelled_run_stops (reach : Transition.Reachable .initial (PipelineMoves env transform) s)
    (raised : s.flag = true) (later : Transition.Reachable s (PipelineMoves env transform) t) :
    t.channel.enqueued.length ≤ s.channel.enqueued.length + 1 ∧ t.written.length ≤ s.written.length + 1 ∧
      (s.published = none → ¬ s.main.Decided → t.published = none ∧ ∀ report, t.main ≠ .done (.ok report)) := by
  have known : ∀ {u}, Transition.Reachable s (PipelineMoves env transform) u →
      Transition.Reachable .initial (PipelineMoves env transform) u ∧ u.flag = true := by
    intro u later
    induction later with
    | start => exact ⟨reach, raised⟩
    | next _ move ih =>
      obtain ⟨_, step⟩ := id move
      refine ⟨.next ih.1 move, ?_⟩
      rcases step.unsent with moved | ⟨_, flag, _⟩
      · cases moved <;> exact ih.2
      · exact flag ih.2
  have sent : t.channel.enqueued.length + t.unsent ≤ s.channel.enqueued.length + s.unsent := by
    refine later.invariant (fun u => u.channel.enqueued.length + u.unsent ≤ s.channel.enqueued.length + s.unsent)
      le_rfl ?_
    intro u v before old ⟨_, step⟩
    obtain ⟨reached, up⟩ := known before
    exact (step.unsent_le up (reachable_atomic reached).producer).trans old
  have wrote : t.written.length + t.consumer.unwritten ≤ s.written.length + s.consumer.unwritten := by
    refine later.invariant
      (fun u => u.written.length + u.consumer.unwritten ≤ s.written.length + s.consumer.unwritten) le_rfl ?_
    intro u v before old ⟨_, step⟩
    rcases step.unreceived with moved | ⟨⟨consumer, written, _⟩, _⟩
    · exact (moved.unwritten (known before).2).trans old
    · rw [consumer, written]
      exact old
  have held : s.unsent ≤ 1 := by
    unfold Pipeline.unsent
    cases s.producer <;> cases s.channel.sender.pending <;> simp
  have inHand : s.consumer.unwritten ≤ 1 := by
    cases s.consumer <;> simp [Consumer.unwritten]
  refine ⟨by omega, by omega, fun unpublished undecided => ?_⟩
  have withheld : Withheld t := by
    refine later.invariant Withheld ⟨raised, unpublished, undecided⟩ ?_
    intro u v before old ⟨_, step⟩
    rcases step.undecided with moved | ⟨main, published, flag⟩
    · exact moved.withheld old
    · exact ⟨flag old.1, published.trans old.2.1, main ▸ old.2.2⟩
  refine ⟨withheld.2.1, fun report done => withheld.2.2 ?_⟩
  rw [done]
  trivial

/-- Two rows, in batches of one. -/
def twoRows : Setting where
  file := { path := "input.csv", opened := .ok [.ok ["1", "ada", ""], .ok ["2", "bob", "x"]] }
  output := "output.parquet"
  config := { batchSize := 1, channelCapacity := 4, maxAdmittedBytes := none, batchSize_pos := Nat.one_pos }
  arrow := .documented
  memorySizes := fun _ => []
  hashRow := fun _ _ _ => 0
  rowBytes := 56
  slotBytes := 56
  heap := 2 ^ 30

def bob : Row where
  id := 2
  name := "bob"
  note := some "x"

/-- A run is cancelled with one batch in the consumer's hand and one in the
producer's, and both are still handled. -/
theorem twoRows_run : ∃ s t : Pipeline, Transition.Reachable .initial (PipelineMoves twoRows none) s ∧ s.flag = true ∧
    s.published = none ∧ ¬ s.main.Decided ∧ Transition.Reachable s (PipelineMoves twoRows none) t ∧
    t.channel.enqueued.length = s.channel.enqueued.length + 1 ∧ t.written.length = s.written.length + 1 := by
  have slots : SlotsAllocate twoRows := fun _ => by simp [Allocates, twoRows, Usize.range]
  have room : Allocates twoRows twoRows.config.batchSize twoRows.rowBytes := by simp [Allocates, twoRows, Usize.range]
  have turn : ∀ {index record row next}, readRow index record = .ok row → TextFits [row] →
      produce twoRows false index [] (record :: next) = .send (batchOf [row]) (some (index + 1, next)) := by
    intro index record row next parsed fits
    simp only [produce, parsed, sendChunk_eq, List.nil_append, if_pos fits]
    rfl
  have first : Transition.Reachable .initial (PipelineMoves twoRows none) .initial := .start
  have running := ((first.next ⟨.work, .control (.enter rfl rfl)⟩).next ⟨.work, .control (.create rfl)⟩).next
    ⟨.work, .control (.connect rfl slots)⟩
  have sent := ((running.next ⟨.work, .produce (.allocate rfl rfl rfl room)⟩).next
    ⟨.work, .produce (.send rfl (@turn 0 _ ada _ (by decide) (by decide)) (CountStep.send rfl))⟩).next
    ⟨.work, .channel (show Internal .admission from trivial) (CountStep.enqueue rfl rfl (by decide))⟩
  have received := ((sent.next ⟨.work, .consume (.start rfl rfl rfl (CountStep.recv rfl) ⟨rfl, rfl⟩)⟩).next
    ⟨.work, .channel (show Internal .poll from trivial) (CountStep.take rfl rfl)⟩).next
    ⟨.work, .consume (.receive rfl rfl)⟩
  have held := ((received.next ⟨.work, .consume (.check rfl rfl)⟩).next ⟨.work, .produce (.proceed rfl rfl)⟩).next
    ⟨.work, .produce (.send rfl (@turn 1 _ bob _ (by decide) (by decide)) (CountStep.send rfl))⟩
  have cancelled := held.next ⟨.cancellation, .requestCancel⟩
  exact ⟨_, _, cancelled, rfl, rfl, id, (((Transition.Reachable.start.next
    ⟨.work, .channel (show Internal .admission from trivial) (CountStep.enqueue rfl rfl (by decide))⟩).next
    ⟨.work, .consume (.skip rfl rfl)⟩).next ⟨.work, .consume (.accept rfl (tryNew_rowBatch [ada]))⟩).next
    ⟨.work, .consume (.write rfl)⟩, rfl, rfl⟩

/-- After the two batches in hand nothing is sent, written or published. -/
theorem twoRows_cancelled :
    ∃ s t : Pipeline, Transition.Reachable .initial (PipelineMoves twoRows none) s ∧ s.flag = true ∧
      Transition.Reachable s (PipelineMoves twoRows none) t ∧
      t.channel.enqueued.length = s.channel.enqueued.length + 1 ∧ t.written.length = s.written.length + 1 ∧
      ∀ u, Transition.Reachable t (PipelineMoves twoRows none) u → u.channel.enqueued.length ≤ t.channel.enqueued.length ∧
        u.written.length ≤ t.written.length ∧ u.published = none ∧ ∀ report, u.main ≠ .done (.ok report) := by
  obtain ⟨s, t, reach, raised, unpublished, undecided, handled, enqueued, written⟩ := twoRows_run
  refine ⟨s, t, reach, raised, handled, enqueued, written, fun u later => ?_⟩
  obtain ⟨sent, wrote, stopped⟩ := cancelled_run_stops reach raised (handled.trans later)
  exact ⟨enqueued ▸ sent, written ▸ wrote, stopped unpublished undecided⟩

end Datacrate.Bounded
