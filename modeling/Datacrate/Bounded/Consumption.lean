import Datacrate.Bounded.Result
import Datacrate.Ingest.Digest

namespace Datacrate.Bounded

open Datacrate.Ingest

/-- A consumer whose receiver may say anything: where it stands, the batches
it received, and the batches that the writer took. -/
structure Consumption where
  consumer : Consumer
  received : List RecordBatch
  written : List RecordBatch
  closed : Bool

def Consumption.initial : Consumption where
  consumer := .start
  received := []
  written := []
  closed := false

section

variable (env : Setting) (transform : Option Callback)

/-- The steps of the consumer. What `recv` returns, what `is_cancelled` reads,
what the callback does, what is left of the byte budget and whether the writer
fails are all open. -/
inductive ConsumeStep : Consumption → Consumption → Prop
  | refuse {s : Consumption} : s.consumer = .start →
      ConsumeStep s { s with consumer := .unwinding (.error .cancelled) }
  | start {s : Consumption} : s.consumer = .start → ConsumeStep s { s with consumer := .receiving .default }
  | fail {s : Consumption} {report error} : s.consumer = .receiving report →
      ConsumeStep s { s with consumer := .unwinding (.error error) }
  | exhaust {s : Consumption} {report} : s.consumer = .receiving report →
      ConsumeStep s { s with consumer := .draining report }
  | receive {s : Consumption} {report batch} : s.consumer = .receiving report →
      ConsumeStep s { s with consumer := .checking report batch, received := s.received ++ [batch] }
  | interrupt {s : Consumption} {report batch} : s.consumer = .checking report batch →
      ConsumeStep s { s with consumer := .unwinding (.error .cancelled) }
  | check {s : Consumption} {report batch} : s.consumer = .checking report batch →
      ConsumeStep s { s with consumer := .transforming report batch }
  | skip {s : Consumption} {report batch} : s.consumer = .transforming report batch → transform = none →
      ConsumeStep s { s with consumer := .validating report batch }
  | transform {s : Consumption} {report batch callback outcome control state state' lease lease'} :
      s.consumer = .transforming report batch → transform = some callback → callback batch outcome →
      Bounded.transform control state env.memorySizes lease (callbackOutcome report outcome) =
        some (state', .ok lease') →
      ConsumeStep s { s with consumer := .validating report lease'.batch }
  | failTransform {s : Consumption} {report batch callback outcome control state state' lease error} :
      s.consumer = .transforming report batch → transform = some callback → callback batch outcome →
      Bounded.transform control state env.memorySizes lease (callbackOutcome report outcome) =
        some (state', .error error) →
      ConsumeStep s { s with consumer := .unwinding (.error error) }
  | reject {s : Consumption} {report batch source} : s.consumer = .validating report batch →
      CheckedIngestBatch.tryNew batch = .error source →
      ConsumeStep s { s with consumer := .unwinding (.error (.io source)) }
  | accept {s : Consumption} {report batch checked} : s.consumer = .validating report batch →
      CheckedIngestBatch.tryNew batch = .ok checked →
      ConsumeStep s { s with consumer := .writing report checked }
  | failWrite {s : Consumption} {report checked source} : s.consumer = .writing report checked →
      ConsumeStep s { s with consumer := .unwinding (.error (failure env.output .write (.writeParquet source))) }
  | write {s : Consumption} {report checked} : s.consumer = .writing report checked →
      ConsumeStep s { s with
        consumer := .releasing (accumulateBatchStats env.hashRow report checked),
        written := s.written ++ [checked.batch] }
  | next {s : Consumption} {report} : s.consumer = .releasing report →
      ConsumeStep s { s with consumer := .receiving report }
  | abandon {s : Consumption} {report} : s.consumer = .draining report →
      ConsumeStep s { s with consumer := .unwinding (.error .cancelled) }
  | drain {s : Consumption} {report} : s.consumer = .draining report →
      ConsumeStep s { s with consumer := .closing report }
  | failClose {s : Consumption} {report source} : s.consumer = .closing report →
      ConsumeStep s { s with consumer := .unwinding (.error (failure env.output .close (.writeParquet source))) }
  | close {s : Consumption} {report} : s.consumer = .closing report →
      ConsumeStep s { s with consumer := .unwinding (.ok report), closed := true }
  | drop {s : Consumption} {result} : s.consumer = .unwinding result →
      ConsumeStep s { s with consumer := .finished result }

end

/-- What the consumer returns, once that is settled. -/
def Consumer.result : Consumer → Option (Except IngestError PipelineReport)
  | .unwinding result | .finished result => some result
  | _ => none

/-- The report counts the batches, counts their rows and sums the hashes of
their rows. -/
structure Certifies (hashRow : Int → String → Option String → UInt64) (written : List RecordBatch)
    (report : PipelineReport) : Prop where
  batches : report.batchesWritten = written.length
  rows : report.rowsWritten = (written.map (·.numRows)).sum
  digest : ∃ rows : List Row, written.flatMap RecordBatch.rows = rows.map Row.cells ∧
    report.contentDigest = digest hashRow rows

variable {env : Setting} {transform : Option Callback} {s t : Consumption}

theorem foldl_accumulateBatchStats (checked : List CheckedIngestBatch) (report : PipelineReport) :
    checked.foldl (accumulateBatchStats env.hashRow) report =
      { report with
        batchesWritten := report.batchesWritten + checked.length
        rowsWritten := report.rowsWritten + (checked.map (·.batch.numRows)).sum
        contentDigest := checked.foldl (accumulateBatchDigest env.hashRow) report.contentDigest } := by
  induction checked generalizing report with
  | nil => rfl
  | cons one rest ih =>
    rw [List.foldl_cons, ih]
    simp only [accumulateBatchStats, List.length_cons, List.map_cons, List.sum_cons, List.foldl_cons,
      PipelineReport.mk.injEq, and_true]
    omega

theorem Recorded.certifies {written : List RecordBatch} {report : PipelineReport}
    (recorded : Recorded env written report) : Certifies env.hashRow written report := by
  obtain ⟨checked, rfl, rfl, valid⟩ := recorded
  rw [foldl_accumulateBatchStats]
  refine ⟨?_, ?_, checked.flatMap CheckedIngestBatch.rows, ?_, ?_⟩
  · rw [List.length_map]
    exact Nat.zero_add _
  · rw [List.map_map]
    exact Nat.zero_add _
  · rw [List.map_flatMap, List.flatMap_map]
    exact List.flatMap_congr fun one member => CheckedIngestBatch.rows_cells (valid one member)
  · rw [foldl_accumulateBatchDigest]
    exact zero_add _

/-- The batch was received last, and those before it were written. -/
def Pending (transform : Option Callback) (s : Consumption) (batch : RecordBatch) : Prop :=
  ∃ earlier, s.received = earlier ++ [batch] ∧ List.Forall₂ (Transforms transform) earlier s.written

/-- What is known at each point of the loop. -/
def ConsumptionHolds (env : Setting) (transform : Option Callback) (s : Consumption) : Prop :=
  match s.consumer with
  | .start => s.received = [] ∧ s.written = []
  | .receiving report | .releasing report | .draining report | .closing report =>
    Recorded env s.written report ∧ List.Forall₂ (Transforms transform) s.received s.written
  | .checking report batch | .transforming report batch => Recorded env s.written report ∧ Pending transform s batch
  | .validating report batch =>
    Recorded env s.written report ∧ ∃ given, Transforms transform given batch ∧ Pending transform s given
  | .writing report checked => Recorded env s.written report ∧ CheckedIngestBatch.tryNew checked.batch = .ok checked ∧
    ∃ given, Transforms transform given checked.batch ∧ Pending transform s given
  | .unwinding result | .finished result => ∀ report, result = .ok report →
    Recorded env s.written report ∧ List.Forall₂ (Transforms transform) s.received s.written ∧ s.closed = true

theorem ConsumeStep.holds (step : ConsumeStep env transform s t) (holds : ConsumptionHolds env transform s) :
    ConsumptionHolds env transform t := by
  unfold ConsumptionHolds at holds ⊢
  cases step with
  | refuse | fail | interrupt | failTransform | reject | failWrite | abandon | failClose =>
    intro report ended
    cases ended
  | start at_start =>
    rw [at_start] at holds
    obtain ⟨received, written⟩ := holds
    rw [received, written]
    exact ⟨Recorded.nothing, .nil⟩
  | exhaust receiving =>
    rw [receiving] at holds
    exact holds
  | receive receiving =>
    rw [receiving] at holds
    exact ⟨holds.1, _, rfl, holds.2⟩
  | check checking =>
    rw [checking] at holds
    exact holds
  | skip transforming absent =>
    rw [transforming] at holds
    rw [absent] at holds ⊢
    exact ⟨holds.1, _, rfl, holds.2⟩
  | transform transforming given called done =>
    rw [transforming] at holds
    have outcome := callbackOutcome_ok ((transform_result done).1 _ rfl)
    rw [outcome] at called
    refine ⟨holds.1, _, ?_, holds.2⟩
    rw [given]
    exact called
  | accept validating valid =>
    rw [validating] at holds
    have same := CheckedIngestBatch.tryNew_batch valid
    rw [← same] at valid holds
    exact ⟨holds.1, valid, holds.2⟩
  | write writing =>
    rw [writing] at holds
    obtain ⟨recorded, valid, given, made, earlier, received, each⟩ := holds
    refine ⟨recorded.more valid, ?_⟩
    show List.Forall₂ _ s.received _
    rw [received]
    exact List.rel_append each (.cons made .nil)
  | next releasing =>
    rw [releasing] at holds
    exact holds
  | drain draining =>
    rw [draining] at holds
    exact holds
  | close closing =>
    rw [closing] at holds
    intro report ended
    cases ended
    exact ⟨holds.1, holds.2, rfl⟩
  | drop unwinding =>
    rw [unwinding] at holds
    exact holds

theorem reachable_consumption (reach : Transition.Reachable .initial (ConsumeStep env transform) s) :
    ConsumptionHolds env transform s :=
  reach.invariant _ ⟨rfl, rfl⟩ fun _ holds step => step.holds holds

theorem ConsumptionHolds.returned {report : PipelineReport} (holds : ConsumptionHolds env transform s)
    (returned : s.consumer.result = some (.ok report)) :
    Recorded env s.written report ∧ List.Forall₂ (Transforms transform) s.received s.written ∧ s.closed = true := by
  unfold ConsumptionHolds at holds
  cases ended : s.consumer with
  | unwinding result | finished result =>
    rw [ended] at returned holds
    exact holds report (Option.some.inj returned)
  | _ =>
    rw [ended] at returned
    cases returned

/-- Once the result is settled, nothing is received or written. -/
theorem ConsumeStep.settled {result : Except IngestError PipelineReport} (step : ConsumeStep env transform s t)
    (settled : s.consumer.result = some result) :
    t.consumer.result = some result ∧ t.received = s.received ∧ t.written = s.written := by
  cases step with
  | drop unwinding =>
    rw [unwinding] at settled
    exact ⟨settled, rfl, rfl⟩
  | refuse at_stage | start at_stage | fail at_stage | exhaust at_stage | receive at_stage | interrupt at_stage
  | check at_stage | skip at_stage | transform at_stage | failTransform at_stage | reject at_stage | accept at_stage
  | failWrite at_stage | write at_stage | next at_stage | abandon at_stage | drain at_stage | failClose at_stage
  | close at_stage =>
    rw [at_stage] at settled
    cases settled

theorem settled_forever {result : Except IngestError PipelineReport} {u : Consumption}
    (settled : s.consumer.result = some result) (later : Transition.Reachable s (ConsumeStep env transform) u) :
    u.consumer.result = some result ∧ u.received = s.received ∧ u.written = s.written :=
  later.invariant (fun u => u.consumer.result = some result ∧ u.received = s.received ∧ u.written = s.written)
    ⟨settled, rfl, rfl⟩ fun _ kept step => by
      obtain ⟨same, received, written⟩ := step.settled kept.1
      exact ⟨same, received.trans kept.2.1, written.trans kept.2.2⟩

/-- The batch failed with this error. It was received after the batches that
were written, and from here on nothing else is received or written. -/
def Stopped (env : Setting) (transform : Option Callback) (s t : Consumption) (batch : RecordBatch)
    (error : IngestError) : Prop :=
  Pending transform s batch ∧ ∀ u, Transition.Reachable t (ConsumeStep env transform) u →
    u.consumer.result = some (.error error) ∧ u.received = s.received ∧ u.written = s.written

theorem ConsumeStep.stopped {batch : RecordBatch} {error : IngestError} (pending : Pending transform s batch)
    (failed : t = { s with consumer := .unwinding (.error error) }) : Stopped env transform s t batch error := by
  refine ⟨pending, fun u later => ?_⟩
  rw [failed] at later
  exact @settled_forever env transform { s with consumer := .unwinding (.error error) } _ u rfl later

/-- Either the callback failed, and the error names the batches written so
far, or the budget refused what it returned. -/
theorem ConsumeStep.transform_fails {report : PipelineReport} {batch : RecordBatch} {error : IngestError}
    (reach : Transition.Reachable .initial (ConsumeStep env transform) s) (step : ConsumeStep env transform s t)
    (transforming : s.consumer = .transforming report batch) (failed : t.consumer = .unwinding (.error error)) :
    Stopped env transform s t batch error ∧ ∃ callback outcome, transform = some callback ∧ callback batch outcome ∧
      ∀ source, outcome = .error source → error = .io (.callback .transform s.written.length source) := by
  have holds := reachable_consumption reach
  unfold ConsumptionHolds at holds
  rw [transforming] at holds
  cases step with
  | failTransform at_stage given called done =>
    rw [transforming] at at_stage
    cases at_stage
    cases failed
    refine ⟨ConsumeStep.stopped holds.2 rfl, _, _, given, called, fun source known => ?_⟩
    rw [known] at done
    cases done
    rw [holds.1.certifies.batches]
  | skip at_stage =>
    cases failed
  | transform at_stage =>
    cases failed
  | refuse at_stage | start at_stage | fail at_stage | exhaust at_stage | receive at_stage | interrupt at_stage
  | check at_stage | reject at_stage | accept at_stage | failWrite at_stage | write at_stage | next at_stage
  | abandon at_stage | drain at_stage | failClose at_stage | close at_stage | drop at_stage =>
    rw [transforming] at at_stage
    cases at_stage

theorem ConsumeStep.validation_fails {report : PipelineReport} {batch : RecordBatch} {source : PipelineIoError}
    (reach : Transition.Reachable .initial (ConsumeStep env transform) s) (step : ConsumeStep env transform s t)
    (validating : s.consumer = .validating report batch) (invalid : CheckedIngestBatch.tryNew batch = .error source) :
    ∃ given, Transforms transform given batch ∧ Stopped env transform s t given (.io source) := by
  have holds := reachable_consumption reach
  unfold ConsumptionHolds at holds
  rw [validating] at holds
  obtain ⟨_, given, made, pending⟩ := holds
  cases step with
  | reject at_stage found =>
    rw [validating] at at_stage
    cases at_stage
    rw [invalid] at found
    cases found
    exact ⟨given, made, ConsumeStep.stopped pending rfl⟩
  | accept at_stage found =>
    rw [validating] at at_stage
    cases at_stage
    rw [invalid] at found
    cases found
  | refuse at_stage | start at_stage | fail at_stage | exhaust at_stage | receive at_stage | interrupt at_stage
  | check at_stage | skip at_stage | transform at_stage | failTransform at_stage | failWrite at_stage
  | write at_stage | next at_stage | abandon at_stage | drain at_stage | failClose at_stage | close at_stage
  | drop at_stage =>
    rw [validating] at at_stage
    cases at_stage

/-- A returned report certifies the written batches, which are what the
callback made of the received ones, in order. A batch that fails to transform
or to validate is the last received and is not written. -/
theorem consume_batches_certified (env : Setting) (transform : Option Callback) :
    (∀ s report, Transition.Reachable .initial (ConsumeStep env transform) s →
      s.consumer.result = some (.ok report) → Certifies env.hashRow s.written report ∧
        List.Forall₂ (Transforms transform) s.received s.written ∧ s.closed = true) ∧
    (∀ s t report batch error, Transition.Reachable .initial (ConsumeStep env transform) s →
      ConsumeStep env transform s t → s.consumer = .transforming report batch →
      t.consumer = .unwinding (.error error) → Stopped env transform s t batch error ∧
        ∃ callback outcome, transform = some callback ∧ callback batch outcome ∧
          ∀ source, outcome = .error source → error = .io (.callback .transform s.written.length source)) ∧
    ∀ s t report batch source, Transition.Reachable .initial (ConsumeStep env transform) s →
      ConsumeStep env transform s t → s.consumer = .validating report batch →
      CheckedIngestBatch.tryNew batch = .error source →
      ∃ given, Transforms transform given batch ∧ Stopped env transform s t given (.io source) := by
  refine ⟨fun s report reach returned => ?_, fun s t report batch error reach step transforming failed =>
    step.transform_fails reach transforming failed, fun s t report batch source reach step validating invalid =>
    step.validation_fails reach validating invalid⟩
  obtain ⟨recorded, each, closed⟩ := (reachable_consumption reach).returned returned
  exact ⟨recorded.certifies, each, closed⟩

/-- Every transformation in a channel is one of a lease, charged or not. -/
theorem ChannelStep.lease_transformed {memorySizes : RecordBatch → List Nat} {kind : ChannelKind}
    {s t : System RecordBatch PipelineIoError} {outcome : Except PipelineIoError RecordBatch}
    (step : ChannelStep memorySizes kind s (.transform outcome) t) (sound : Sound memorySizes s kind) :
    ∃ control state state' lease result,
      Bounded.transform control state memorySizes lease outcome = some (state', result) ∧
        t.transformed = some (result.map BatchLease.batch) := by
  have room : 0 < Usize.range := by decide
  cases kind with
  | count capacity =>
    cases step with
    | @transform _ lease _ batch held =>
      exact ⟨⟨0, 0, room⟩, .channel, .channel, { lease with reservation := none }, .ok ⟨batch, none⟩, rfl, rfl⟩
    | @failTransform _ lease _ source held =>
      exact ⟨⟨0, 0, room⟩, .channel, .channel, { lease with reservation := none }, .error (.io source), rfl, rfl⟩
  | budgeted control =>
    cases step with
    | transform _ done => exact ⟨control, _, _, _, _, done, rfl⟩
    | failTransform _ done => exact ⟨control, _, _, _, _, done, rfl⟩
    | overflow beyond => exact absurd (Budgeted.accounted sound) beyond.not_accounted

/-- The consumer of the pipeline takes these steps. -/
theorem Consumes.consumeStep {s t : Pipeline} {cause : Cause} (step : Consumes env transform s cause t)
    (sound : Sound env.memorySizes s.channel env.config.kind) (received : List RecordBatch) :
    (t.consumer = s.consumer ∧ t.written = s.written ∧ t.closed = s.closed) ∨
      ∃ received', ConsumeStep env transform ⟨s.consumer, received, s.written, s.closed⟩
        ⟨t.consumer, received', t.written, t.closed⟩ := by
  cases step with
  | refuse _ start => exact Or.inr ⟨_, .refuse start⟩
  | start _ start => exact Or.inr ⟨_, .start start⟩
  | fail receiving => exact Or.inr ⟨_, .fail receiving⟩
  | exhaust receiving => exact Or.inr ⟨_, .exhaust receiving⟩
  | receive receiving => exact Or.inr ⟨_, .receive receiving⟩
  | interrupt checking => exact Or.inr ⟨_, .interrupt checking⟩
  | check checking => exact Or.inr ⟨_, .check checking⟩
  | skip transforming absent => exact Or.inr ⟨_, .skip transforming absent⟩
  | transform transforming given called moved returned =>
    obtain ⟨control, state, state', lease, result, done, transformed⟩ := moved.lease_transformed sound
    rw [returned, Option.some.injEq] at transformed
    cases result with
    | error failure => cases transformed
    | ok lease' =>
      cases transformed
      exact Or.inr ⟨_, .transform transforming given called done⟩
  | failTransform transforming given called moved returned =>
    obtain ⟨control, state, state', lease, result, done, transformed⟩ := moved.lease_transformed sound
    rw [returned, Option.some.injEq] at transformed
    cases result with
    | error failure =>
      cases transformed
      exact Or.inr ⟨_, .failTransform transforming given called done⟩
    | ok lease' => cases transformed
  | reject validating invalid => exact Or.inr ⟨_, .reject validating invalid⟩
  | accept validating valid => exact Or.inr ⟨_, .accept validating valid⟩
  | failWrite writing => exact Or.inr ⟨_, .failWrite writing⟩
  | write writing => exact Or.inr ⟨_, .write writing⟩
  | release | unwindLease | unwindExpired => exact Or.inl ⟨rfl, rfl, rfl⟩
  | next releasing => exact Or.inr ⟨_, .next releasing⟩
  | abandon draining => exact Or.inr ⟨_, .abandon draining⟩
  | drain draining => exact Or.inr ⟨_, .drain draining⟩
  | failClose closing => exact Or.inr ⟨_, .failClose closing⟩
  | close closing => exact Or.inr ⟨_, .close closing⟩
  | drop unwinding => exact Or.inr ⟨_, .drop unwinding⟩

/-- In every run of the pipeline the consumer goes through states of its own
machine. -/
theorem reachable_consumer {s : Pipeline} (reach : Transition.Reachable .initial (PipelineMoves env transform) s) :
    ∃ received, Transition.Reachable .initial (ConsumeStep env transform)
      ⟨s.consumer, received, s.written, s.closed⟩ := by
  induction reach with
  | start => exact ⟨[], .start⟩
  | @next s t before move ih =>
    obtain ⟨received, reached⟩ := ih
    have kept : t.consumer = s.consumer ∧ t.written = s.written ∧ t.closed = s.closed →
        ∃ received, Transition.Reachable .initial (ConsumeStep env transform)
          ⟨t.consumer, received, t.written, t.closed⟩ := by
      rintro ⟨consumer, written, closed⟩
      rw [consumer, written, closed]
      exact ⟨received, reached⟩
    obtain ⟨cause, step⟩ := move
    cases step with
    | control control => cases control <;> exact kept ⟨rfl, rfl, rfl⟩
    | produce produced => cases produced <;> exact kept ⟨rfl, rfl, rfl⟩
    | channel | wake | requestCancel | cancelTransport => exact kept ⟨rfl, rfl, rfl⟩
    | consume consumed =>
      rcases consumed.consumeStep (reachable_sound_channel before) received with same | ⟨received', step⟩
      · exact kept same
      · exact ⟨received', .next reached step⟩

/-- A pipeline whose consumer returns a report has written what it certifies. -/
theorem pipeline_report_certified {s : Pipeline} {report : PipelineReport}
    (reach : Transition.Reachable .initial (PipelineMoves env transform) s)
    (returned : s.consumer.result = some (.ok report)) : Certifies env.hashRow s.written report ∧ s.closed = true := by
  obtain ⟨received, reached⟩ := reachable_consumer reach
  obtain ⟨recorded, _, closed⟩ := (reachable_consumption reached).returned returned
  exact ⟨recorded.certifies, closed⟩

end Datacrate.Bounded
