import Datacrate.Bounded.Failures
import Datacrate.Bounded.Producing

namespace Datacrate.Bounded

open Datacrate.Ingest Chunks

variable {env : Setting}

/-- The report and the written batches after some checked batches. -/
def Recorded (env : Setting) (written : List RecordBatch) (report : PipelineReport) : Prop :=
  ∃ checked : List CheckedIngestBatch, written = checked.map (·.batch) ∧
    report = checked.foldl (accumulateBatchStats env.hashRow) .default ∧
    ∀ one ∈ checked, CheckedIngestBatch.tryNew one.batch = .ok one

theorem Recorded.nothing : Recorded env [] .default :=
  ⟨[], rfl, rfl, by simp⟩

theorem Recorded.more {written : List RecordBatch} {report : PipelineReport} {checked : CheckedIngestBatch}
    (recorded : Recorded env written report) (valid : CheckedIngestBatch.tryNew checked.batch = .ok checked) :
    Recorded env (written ++ [checked.batch]) (accumulateBatchStats env.hashRow report checked) := by
  obtain ⟨earlier, rfl, rfl, each⟩ := recorded
  refine ⟨earlier ++ [checked], by simp, by simp, fun one member => ?_⟩
  rcases List.mem_append.mp member with before | last
  · exact each one before
  · rwa [List.mem_singleton.mp last]

/-- Received batches that have been written, as they were sent. -/
def sentBatches (written : List RecordBatch) : List IngestMessage :=
  written.map .ok

/-- The sender is gone and everything it sent was written. -/
def Exhausted (written : List RecordBatch) (channel : System RecordBatch PipelineIoError) : Prop :=
  channel.sender = .dropped ∧ channel.enqueued = sentBatches written

/-- Where the consumer of an untransformed run stands with the channel and
the staged file. -/
def ConsumerHolds (env : Setting) (written : List RecordBatch) (closed : Bool)
    (channel : System RecordBatch PipelineIoError) : Consumer → Prop
  | .start => channel.receiver.free = true ∧ channel.taken = [] ∧ written = []
  | .receiving report => Receiving (sentBatches written) channel ∧ Recorded env written report
  | .checking report batch | .transforming report batch | .validating report batch =>
    channel.receiver.free = true ∧ channel.taken = sentBatches written ++ [.ok batch] ∧ Recorded env written report
  | .writing report checked => channel.receiver.free = true ∧
    channel.taken = sentBatches written ++ [.ok checked.batch] ∧ Recorded env written report ∧
    CheckedIngestBatch.tryNew checked.batch = .ok checked
  | .releasing report =>
    channel.receiver.free = true ∧ channel.taken = sentBatches written ∧ Recorded env written report
  | .draining report | .closing report =>
    channel.receiver.free = true ∧ Exhausted written channel ∧ Recorded env written report ∧
      channel.taken = channel.enqueued
  | .unwinding result => channel.receiver.free = true ∧ ∀ report, result = .ok report →
    Exhausted written channel ∧ Recorded env written report ∧ closed = true ∧ channel.taken = channel.enqueued
  | .finished result => channel.receiver = .dropped ∧ ∀ report, result = .ok report →
    Exhausted written channel ∧ Recorded env written report ∧ closed = true

/-- What a configured transformation may make of a batch. -/
def Transforms (transform : Option Callback) (batch result : RecordBatch) : Prop :=
  match transform with
  | none => batch = result
  | some callback => callback batch (.ok result)

/-- Where the consumer of any run stands. `sent` are the batches it received
and whose results it wrote. -/
def Handled (env : Setting) (transform : Option Callback) (sent written : List RecordBatch) (closed : Bool)
    (channel : System RecordBatch PipelineIoError) : Consumer → Prop
  | .start => channel.receiver.free = true ∧ channel.taken = [] ∧ sent = []
  | .receiving report => Receiving (sentBatches sent) channel ∧ Recorded env written report
  | .checking report batch | .transforming report batch =>
    channel.receiver.free = true ∧ channel.taken = sentBatches sent ++ [.ok batch] ∧ Recorded env written report
  | .validating report batch => ∃ given, Transforms transform given batch ∧ channel.receiver.free = true ∧
    channel.taken = sentBatches sent ++ [.ok given] ∧ Recorded env written report
  | .writing report checked => ∃ given, Transforms transform given checked.batch ∧ channel.receiver.free = true ∧
    channel.taken = sentBatches sent ++ [.ok given] ∧ Recorded env written report ∧
    CheckedIngestBatch.tryNew checked.batch = .ok checked
  | .releasing report =>
    channel.receiver.free = true ∧ channel.taken = sentBatches sent ∧ Recorded env written report
  | .draining report | .closing report =>
    channel.receiver.free = true ∧ Exhausted sent channel ∧ Recorded env written report ∧
      channel.taken = channel.enqueued
  | .unwinding result => channel.receiver.free = true ∧ ∀ report, result = .ok report →
    Exhausted sent channel ∧ Recorded env written report ∧ closed = true ∧ channel.taken = channel.enqueued
  | .finished result => channel.receiver = .dropped ∧ ∀ report, result = .ok report →
    Exhausted sent channel ∧ Recorded env written report ∧ closed = true

theorem consumerHolds_iff {written : List RecordBatch} {closed : Bool}
    {channel : System RecordBatch PipelineIoError} {consumer : Consumer} :
    ConsumerHolds env written closed channel consumer ↔
      Handled env none written written closed channel consumer := by
  cases consumer <;> simp [ConsumerHolds, Handled, Transforms]

section Steps

variable {transform : Option Callback} {s t : Pipeline} {consumer : Consumer} {sent written : List RecordBatch}
  {closed : Bool}
  {channel channel' : System RecordBatch PipelineIoError} {action : Action RecordBatch PipelineIoError}

theorem Exhausted.kept (exhausted : Exhausted written channel)
    (step : ChannelStep env.memorySizes env.config.kind channel action channel') : Exhausted written channel' := by
  obtain ⟨gone, enqueued⟩ := exhausted
  obtain ⟨gone', enqueued'⟩ := step.sender_gone gone
  exact ⟨gone', enqueued'.trans enqueued⟩

/-- The consumer's invariant survives whatever the other threads do to the
channel. -/
theorem Handled.kept (holds : Handled env transform sent written closed channel consumer)
    (step : ChannelStep env.memorySizes env.config.kind channel action channel')
    (sound : Sound env.memorySizes channel env.config.kind) (quiet : action ≠ .recv) (kept : action ≠ .dropReceiver) :
    Handled env transform sent written closed channel' consumer := by
  have outside := step.outside_recv sound quiet kept
  have free : channel.receiver.free = true →
      channel'.receiver.free = true ∧ channel'.taken = channel.taken := by
    intro free
    obtain ⟨receiver, taken⟩ := outside (Or.inl free)
    exact ⟨by rw [receiver]; exact free, taken⟩
  have exhausted : Exhausted sent channel → channel'.enqueued = channel.enqueued :=
    fun exhausted => (step.sender_gone exhausted.1).2
  cases consumer with
  | receiving report => exact ⟨step.inside_recv sound quiet kept holds.1, holds.2⟩
  | start | checking | transforming | releasing =>
    obtain ⟨outside, taken, rest⟩ := holds
    exact ⟨(free outside).1, (free outside).2.trans taken, rest⟩
  | validating | writing =>
    obtain ⟨given, made, outside, taken, rest⟩ := holds
    exact ⟨given, made, (free outside).1, (free outside).2.trans taken, rest⟩
  | draining | closing =>
    obtain ⟨outside, done, recorded, taken⟩ := holds
    exact ⟨(free outside).1, done.kept step, recorded,
      by rw [(free outside).2, exhausted done, taken]⟩
  | unwinding result =>
    refine ⟨(free holds.1).1, fun report ended => ?_⟩
    obtain ⟨done, recorded, whole, taken⟩ := holds.2 report ended
    exact ⟨done.kept step, recorded, whole, by rw [(free holds.1).2, exhausted done, taken]⟩
  | finished result =>
    refine ⟨(outside (Or.inr holds.1)).1.trans holds.1, fun report ended => ?_⟩
    obtain ⟨done, recorded, whole⟩ := holds.2 report ended
    exact ⟨done.kept step, recorded, whole⟩

theorem ConsumerHolds.kept (holds : ConsumerHolds env written closed channel consumer)
    (step : ChannelStep env.memorySizes env.config.kind channel action channel')
    (sound : Sound env.memorySizes channel env.config.kind) (quiet : action ≠ .recv) (kept : action ≠ .dropReceiver) :
    ConsumerHolds env written closed channel' consumer :=
  consumerHolds_iff.mpr ((consumerHolds_iff.mp holds).kept step sound quiet kept)

/-- A call of `recv` that has returned gives the next message, its error, or
the end. -/
theorem Receiving.returned_cases {base : List IngestMessage}
    {result : Except (PipelineError PipelineIoError) (Option RecordBatch)} (receiving : Receiving base channel)
    (returned : channel.receiver = .returned result) :
    (∃ message, result = delivery message ∧ channel.taken = base ++ [payload message]) ∨ result = .error .cancelled ∨
      result = .ok none ∧ channel.taken = base ∧ channel.sender = .dropped ∧ channel.taken = channel.enqueued := by
  rcases receiving with ⟨inside | inside, _⟩ | ⟨message, phase, taken⟩ | phase | ⟨phase, ended⟩
  · cases inside.symm.trans returned
  · cases inside.symm.trans returned
  · cases phase.symm.trans returned
    exact Or.inl ⟨message, rfl, taken⟩
  · cases phase.symm.trans returned
    exact Or.inr (Or.inl rfl)
  · cases phase.symm.trans returned
    exact Or.inr (Or.inr ⟨rfl, ended⟩)

theorem Receiving.got {base : List IngestMessage} {batch : RecordBatch} (receiving : Receiving base channel)
    (returned : channel.receiver = .returned (.ok (some batch))) : channel.taken = base ++ [.ok batch] := by
  rcases receiving.returned_cases returned with ⟨message, delivered, taken⟩ | cancelled | ⟨ended, _⟩
  · cases message with
    | error source => cases delivered
    | ok lease =>
      cases delivered
      exact taken
  · cases cancelled
  · cases ended

theorem Receiving.ended {base : List IngestMessage} (receiving : Receiving base channel)
    (returned : channel.receiver = .returned (.ok none)) :
    channel.taken = base ∧ channel.sender = .dropped ∧ channel.taken = channel.enqueued := by
  rcases receiving.returned_cases returned with ⟨message, delivered, _⟩ | cancelled | ⟨_, ended⟩
  · cases message <;> cases delivered
  · cases cancelled
  · exact ended

theorem callbackOutcome_ok {report : PipelineReport} {outcome : Except PipelineIoError RecordBatch}
    {batch : RecordBatch} (same : callbackOutcome report outcome = .ok batch) : outcome = .ok batch := by
  rcases outcome with source | other
  · cases same
  · exact congrArg Except.ok (Except.ok.inj same)

/-- Each turn of the consumer keeps its record of what it took and wrote. -/
theorem Consumes.handled {cause : Cause} (step : Consumes env transform s cause t)
    (sound : Sound env.memorySizes s.channel env.config.kind)
    (made : List.Forall₂ (Transforms transform) sent s.written)
    (holds : Handled env transform sent s.written s.closed s.channel s.consumer) :
    ∃ sent', List.Forall₂ (Transforms transform) sent' t.written ∧
      Handled env transform sent' t.written t.closed t.channel t.consumer := by
  cases step with
  | refuse _ start =>
    rw [start] at holds
    exact ⟨sent, made, holds.1, fun _ ended => nomatch ended⟩
  | start _ start _ asked =>
    rw [start] at holds
    obtain ⟨_, taken, rfl⟩ := holds
    have receiving := asked.begin_recv sound
    rw [taken] at receiving
    have nothing := List.forall₂_nil_left_iff.mp made
    refine ⟨[], made, receiving, ?_⟩
    rw [nothing]
    exact Recorded.nothing
  | fail receiving returned =>
    exact ⟨sent, made, by rw [returned]; rfl, fun _ ended => nomatch ended⟩
  | exhaust receiving returned =>
    rw [receiving] at holds
    obtain ⟨taken, gone, all⟩ := holds.1.ended returned
    exact ⟨sent, made, by rw [returned]; rfl, ⟨gone, all.symm.trans taken⟩, holds.2, all⟩
  | receive receiving returned =>
    rw [receiving] at holds
    exact ⟨sent, made, by rw [returned]; rfl, holds.1.got returned, holds.2⟩
  | interrupt checking =>
    rw [checking] at holds
    exact ⟨sent, made, holds.1, fun _ ended => nomatch ended⟩
  | check checking =>
    rw [checking] at holds
    exact ⟨sent, made, holds⟩
  | skip transforming absent =>
    rw [transforming] at holds
    rw [absent] at made ⊢
    exact ⟨sent, made, _, rfl, holds⟩
  | transform transforming given called moved returned =>
    rw [transforming] at holds
    obtain ⟨free, taken, recorded⟩ := holds
    obtain ⟨receiver, kept⟩ := moved.outside_recv sound (by simp) (by simp) (Or.inl free)
    obtain ⟨result, known, success, _⟩ := moved.transformed sound
    have outcome := callbackOutcome_ok (success _ (Option.some.inj (known.symm.trans returned)))
    refine ⟨sent, made, _, ?_, by rw [receiver]; exact free, kept.trans taken, recorded⟩
    rw [outcome] at called
    rw [given]
    exact called
  | failTransform transforming _ _ moved =>
    rw [transforming] at holds
    obtain ⟨receiver, _⟩ := moved.outside_recv sound (by simp) (by simp) (Or.inl holds.1)
    exact ⟨sent, made, by rw [receiver]; exact holds.1, fun _ ended => nomatch ended⟩
  | reject validating =>
    rw [validating] at holds
    obtain ⟨_, _, free, _⟩ := holds
    exact ⟨sent, made, free, fun _ ended => nomatch ended⟩
  | accept validating valid =>
    rw [validating] at holds
    have same := CheckedIngestBatch.tryNew_batch valid
    obtain ⟨given, result, free, taken, recorded⟩ := holds
    rw [← same] at result valid
    exact ⟨sent, made, given, result, free, taken, recorded, valid⟩
  | failWrite writing =>
    rw [writing] at holds
    obtain ⟨_, _, free, _⟩ := holds
    exact ⟨sent, made, free, fun _ ended => nomatch ended⟩
  | write writing =>
    rw [writing] at holds
    obtain ⟨given, result, free, taken, recorded, valid⟩ := holds
    refine ⟨sent ++ [given], List.rel_append made (.cons result .nil), free, ?_, recorded.more valid⟩
    simpa [sentBatches] using taken
  | next releasing asked =>
    rw [releasing] at holds
    obtain ⟨_, taken, recorded⟩ := holds
    have receiving := asked.begin_recv sound
    rw [taken] at receiving
    exact ⟨sent, made, receiving, recorded⟩
  | abandon draining =>
    rw [draining] at holds
    exact ⟨sent, made, holds.1, fun _ ended => nomatch ended⟩
  | drain draining =>
    rw [draining] at holds
    exact ⟨sent, made, holds⟩
  | failClose closing =>
    rw [closing] at holds
    exact ⟨sent, made, holds.1, fun _ ended => nomatch ended⟩
  | close closing =>
    rw [closing] at holds
    obtain ⟨free, done, recorded, taken⟩ := holds
    refine ⟨sent, made, free, fun _ ended => ?_⟩
    cases ended
    exact ⟨done, recorded, rfl, taken⟩
  | release _ moved | unwindLease _ moved | unwindExpired _ moved =>
    exact ⟨sent, made, holds.kept moved sound (by simp) (by simp)⟩
  | drop unwinding _ dropped =>
    rw [unwinding] at holds
    refine ⟨sent, made, (dropped.drop_receiver sound).1, fun report ended => ?_⟩
    obtain ⟨done, recorded, whole, _⟩ := holds.2 report ended
    exact ⟨done.kept dropped, recorded, whole⟩

theorem forall₂_transforms_none : List.Forall₂ (Transforms none) sent written ↔ sent = written := by
  have plain : Transforms none = Eq := rfl
  rw [plain, List.forall₂_eq_eq_eq]

/-- Without a transformation the consumer writes what it took. -/
theorem Consumes.holds {cause : Cause} (step : Consumes env none s cause t)
    (sound : Sound env.memorySizes s.channel env.config.kind)
    (holds : ConsumerHolds env s.written s.closed s.channel s.consumer) :
    ConsumerHolds env t.written t.closed t.channel t.consumer := by
  obtain ⟨sent, made, handled⟩ :=
    step.handled sound (forall₂_transforms_none.mpr rfl) (consumerHolds_iff.mp holds)
  rw [forall₂_transforms_none] at made
  rw [made] at handled
  exact consumerHolds_iff.mpr handled

end Steps

end Datacrate.Bounded
