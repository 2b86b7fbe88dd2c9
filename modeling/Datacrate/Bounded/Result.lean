import Datacrate.Bounded.Consuming

namespace Datacrate.Bounded

open Datacrate.Ingest Chunks

variable {env : Setting} {transform : Option Callback} {s t : Pipeline} {cause : Cause}

section Channel

theorem Disciplined.of_ne {channel : System RecordBatch PipelineIoError} {action : Action RecordBatch PipelineIoError}
    (quiet : action ≠ .recv) : Disciplined channel action := by
  cases action with
  | recv => exact absurd rfl quiet
  | _ => exact trivial

/-- What a step does to the channel is an action of a disciplined receiver,
and a transformation only where one is configured. -/
theorem PipelineStep.channel_moves (step : PipelineStep env transform s cause t) :
    t.channel = s.channel ∨ ∃ action, Disciplined s.channel action ∧
      (transform = none → ∀ outcome, action ≠ .transform outcome) ∧
      ChannelStep env.memorySizes env.config.kind s.channel action t.channel := by
  cases step with
  | control moved => cases moved <;> exact Or.inl rfl
  | produce moved =>
    cases moved with
    | openFail _ _ _ moved | send _ _ moved | drop _ moved =>
      exact Or.inr ⟨_, .of_ne (by simp), by simp, moved⟩
    | _ => exact Or.inl rfl
  | consume moved =>
    cases moved with
    | start _ _ _ moved idle | next _ moved idle => exact Or.inr ⟨.recv, idle, by simp, moved⟩
    | transform _ given _ moved | failTransform _ given _ moved =>
      exact Or.inr ⟨_, .of_ne (by simp), fun absent => (nomatch absent.symm.trans given), moved⟩
    | release _ moved | unwindLease _ moved | unwindExpired _ moved | drop _ _ moved =>
      exact Or.inr ⟨_, .of_ne (by simp), by simp, moved⟩
    | _ => exact Or.inl rfl
  | channel internal moved =>
    refine Or.inr ⟨_, .of_ne ?_, ?_, moved⟩
    · rintro rfl
      exact internal
    · rintro _ _ rfl
      exact internal
  | wake woken moved => rcases woken with rfl | rfl <;> exact Or.inr ⟨_, .of_ne (by simp), by simp, moved⟩
  | requestCancel => exact Or.inl rfl
  | cancelTransport _ moved => exact Or.inr ⟨_, .of_ne (by simp), by simp, moved⟩

theorem reachable_channel (reach : Transition.Reachable .initial (PipelineMoves env transform) s) :
    Transition.Reachable System.initial (ChannelMoves env.memorySizes env.config.kind) s.channel :=
  reach.view Pipeline.channel rfl fun _ ⟨_, step⟩ =>
    step.channel_moves.imp_right fun ⟨action, disciplined, _, moved⟩ => ⟨action, disciplined, moved⟩

theorem reachable_sound_channel (reach : Transition.Reachable .initial (PipelineMoves env transform) s) :
    Sound env.memorySizes s.channel env.config.kind :=
  reachable_sound (reachable_channel reach)

/-- Every step that is not the producer's leaves the sending end to it. -/
theorem PipelineStep.unsent (step : PipelineStep env transform s cause t) :
    Produces env s t ∨ t.producer = s.producer ∧ (s.flag = true → t.flag = true) ∧
      (t.channel = s.channel ∨ ∃ action, (∀ message, action ≠ .send message) ∧ action ≠ .dropSender ∧
        ChannelStep env.memorySizes env.config.kind s.channel action t.channel) := by
  cases step with
  | control moved => cases moved <;> exact Or.inr ⟨rfl, id, Or.inl rfl⟩
  | produce moved => exact Or.inl moved
  | consume moved =>
    right
    cases moved with
    | start _ _ _ moved | next _ moved => exact ⟨rfl, id, Or.inr ⟨_, by simp, by simp, moved⟩⟩
    | transform _ _ _ moved | failTransform _ _ _ moved =>
      exact ⟨rfl, id, Or.inr ⟨_, by simp, by simp, moved⟩⟩
    | release _ moved | unwindLease _ moved | unwindExpired _ moved | drop _ _ moved =>
      exact ⟨rfl, id, Or.inr ⟨_, by simp, by simp, moved⟩⟩
    | _ => exact ⟨rfl, id, Or.inl rfl⟩
  | @channel action _ internal moved =>
    refine Or.inr ⟨rfl, id, Or.inr ⟨action, ?_, ?_, moved⟩⟩
    · rintro _ rfl
      exact internal
    · rintro rfl
      exact internal
  | wake woken moved =>
    rcases woken with rfl | rfl <;> exact Or.inr ⟨rfl, id, Or.inr ⟨_, by simp, by simp, moved⟩⟩
  | requestCancel => exact Or.inr ⟨rfl, fun _ => rfl, Or.inl rfl⟩
  | cancelTransport _ moved => exact Or.inr ⟨rfl, id, Or.inr ⟨_, by simp, by simp, moved⟩⟩

/-- Every step that is not the consumer's leaves the receiving end, and the
staged file, to it. -/
theorem PipelineStep.unreceived (step : PipelineStep env transform s cause t) :
    Consumes env transform s cause t ∨ (t.consumer = s.consumer ∧ t.written = s.written ∧ t.closed = s.closed) ∧
      (t.channel = s.channel ∨ ∃ action, action ≠ .recv ∧ action ≠ .dropReceiver ∧
        ChannelStep env.memorySizes env.config.kind s.channel action t.channel) := by
  cases step with
  | control moved => cases moved <;> exact Or.inr ⟨⟨rfl, rfl, rfl⟩, Or.inl rfl⟩
  | produce moved =>
    right
    cases moved with
    | openFail _ _ _ moved | send _ _ moved | drop _ moved =>
      exact ⟨⟨rfl, rfl, rfl⟩, Or.inr ⟨_, by simp, by simp, moved⟩⟩
    | _ => exact ⟨⟨rfl, rfl, rfl⟩, Or.inl rfl⟩
  | consume moved => exact Or.inl moved
  | @channel action _ internal moved =>
    refine Or.inr ⟨⟨rfl, rfl, rfl⟩, Or.inr ⟨action, ?_, ?_, moved⟩⟩
    · rintro rfl
      exact internal
    · rintro rfl
      exact internal
  | wake woken moved =>
    rcases woken with rfl | rfl <;> exact Or.inr ⟨⟨rfl, rfl, rfl⟩, Or.inr ⟨_, by simp, by simp, moved⟩⟩
  | requestCancel => exact Or.inr ⟨⟨rfl, rfl, rfl⟩, Or.inl rfl⟩
  | cancelTransport _ moved => exact Or.inr ⟨⟨rfl, rfl, rfl⟩, Or.inr ⟨_, by simp, by simp, moved⟩⟩

/-- The calling thread alone decides and publishes. -/
theorem PipelineStep.undecided (step : PipelineStep env transform s cause t) :
    Controls env s cause t ∨ t.main = s.main ∧ t.published = s.published ∧ (s.flag = true → t.flag = true) := by
  cases step with
  | control moved => exact Or.inl moved
  | produce moved => cases moved <;> exact Or.inr ⟨rfl, rfl, id⟩
  | consume moved => cases moved <;> exact Or.inr ⟨rfl, rfl, id⟩
  | channel | wake | cancelTransport => exact Or.inr ⟨rfl, rfl, id⟩
  | requestCancel => exact Or.inr ⟨rfl, rfl, fun _ => rfl⟩

end Channel

/-- The consumer succeeded, and the report is its own with the accounting of
the transport. -/
def Reported (s : Pipeline) (report : PipelineReport) : Prop :=
  ∃ base admitted peak, s.consumer = .finished (.ok base) ∧
    report = { base with admittedBytes := admitted, peakAdmittedBytes := peak }

/-- The whole input was written. -/
def Whole (env : Setting) (s : Pipeline) : Prop :=
  Complete env (sentBatches s.written)

/-- What the calling thread knows at each point after the threads ended. -/
def MainHolds (env : Setting) (s : Pipeline) : Prop :=
  match s.main with
  | .start | .creating | .connecting | .running | .panicked => True
  | .deciding result => ∀ report, result = .ok report → Reported s report ∧ (s.flag = true ∨ Whole env s)
  | .syncing report | .renaming report => Reported s report ∧ Whole env s
  | .syncingParent report => Reported s report ∧ Whole env s ∧ s.published = some (s.written, true)
  | .done result => ∀ report, result = .ok report →
    Reported s report ∧ Whole env s ∧ s.published = some (s.written, true)

structure PipelineHolds (env : Setting) (s : Pipeline) : Prop where
  producer : ProducerHolds env s.flag s.channel s.producer
  consumer : ConsumerHolds env s.written s.closed s.channel s.consumer
  fitting : ∀ message ∈ s.channel.enqueued, Fits env.memorySizes env.config.kind message
  main : MainHolds env s

theorem MainHolds.kept (old : MainHolds env s) (main : t.main = s.main) (published : t.published = s.published)
    (flag : s.flag = true → t.flag = true)
    (ended : ∀ base, s.consumer = .finished (.ok base) → t.consumer = s.consumer ∧ t.written = s.written) :
    MainHolds env t := by
  have reported : ∀ report, Reported s report → Reported t report ∧ t.written = s.written := by
    rintro report ⟨base, admitted, peak, finished, rfl⟩
    obtain ⟨consumer, written⟩ := ended base finished
    exact ⟨⟨base, admitted, peak, consumer.trans finished, rfl⟩, written⟩
  unfold MainHolds Whole at old ⊢
  rw [main, published]
  generalize s.main = here at old ⊢
  cases here with
  | deciding =>
    intro report same
    obtain ⟨was, whole⟩ := old report same
    obtain ⟨now, written⟩ := reported report was
    rw [written]
    exact ⟨now, whole.imp_left flag⟩
  | syncing | «renaming» | syncingParent =>
    obtain ⟨now, written⟩ := reported _ old.1
    rw [written]
    exact ⟨now, old.2⟩
  | done =>
    intro report same
    obtain ⟨was, whole⟩ := old report same
    obtain ⟨now, written⟩ := reported report was
    rw [written]
    exact ⟨now, whole⟩
  | _ => trivial

theorem Consumes.unfinished {result : Except IngestError PipelineReport}
    (step : Consumes env transform s cause t) : s.consumer ≠ .finished result := by
  intro finished
  cases step <;> simp_all

/-- The report of a successful join, when both threads ended. -/
theorem joined_ok {channel : System RecordBatch PipelineIoError} {result : Except IngestError PipelineReport}
    {production : Except IngestError Unit} {report : PipelineReport}
    (ok : joined env.config channel result production = .ok report) :
    production = .ok () ∧ ∃ base admitted peak, result = .ok base ∧
      report = { base with admittedBytes := admitted, peakAdmittedBytes := peak } := by
  rcases result with error | base
  · cases ok
  rcases production with error | done
  · cases ok
  refine ⟨rfl, base, ?_⟩
  simp only [joined, bind, Except.bind, pure, Except.pure] at ok
  split at ok
  · cases ok
    exact ⟨_, _, rfl, rfl⟩
  · cases ok
    exact ⟨_, _, rfl, rfl⟩

theorem Controls.main_holds (step : Controls env s cause t) (old : PipelineHolds env s) : MainHolds env t := by
  have main := old.main
  cases step with
  | refuse | failCreate | failWriter | failSync | failRename | failParent | fail | abandon =>
    exact fun _ same => nomatch same
  | enter | create | connect | overflow | panic => trivial
  | @join production result _ produced consumed =>
    intro report same
    obtain ⟨rfl, base, admitted, peak, rfl, reported⟩ := joined_ok same
    have producer := old.producer
    have consumer := old.consumer
    rw [produced] at producer
    rw [consumed] at consumer
    obtain ⟨⟨_, enqueued⟩, _, _⟩ := consumer.2 base rfl
    refine ⟨⟨base, admitted, peak, consumed, reported⟩, ?_⟩
    rcases producer.2 rfl with flag | complete | ⟨source, member⟩
    · exact Or.inl flag
    · exact Or.inr (by rw [enqueued] at complete; exact complete)
    · rw [enqueued] at member
      simp [sentBatches] at member
  | @decide report deciding calm =>
    simp only [MainHolds, deciding] at main
    obtain ⟨reported, flag | whole⟩ := main report rfl
    · exact absurd (flag.symm.trans calm) (by simp)
    · exact ⟨reported, whole⟩
  | sync syncing =>
    simp only [MainHolds, syncing] at main
    exact main
  | rename moving =>
    simp only [MainHolds, moving] at main
    obtain ⟨⟨base, admitted, peak, finished, reported⟩, whole⟩ := main
    have consumer := old.consumer
    rw [finished] at consumer
    refine ⟨⟨base, admitted, peak, finished, reported⟩, whole, ?_⟩
    rw [(consumer.2 base rfl).2.2]
  | @publish report publishing =>
    simp only [MainHolds, publishing] at main
    intro other same
    cases same
    exact main

theorem PipelineStep.producer_holds (step : PipelineStep env transform s cause t)
    (old : ProducerHolds env s.flag s.channel s.producer) : ProducerHolds env t.flag t.channel t.producer := by
  rcases step.unsent with moved | ⟨same, flag, moved⟩
  · exact moved.holds old
  · have kept : ProducerHolds env s.flag t.channel t.producer := by
      rw [same]
      rcases moved with channel | ⟨action, quiet, kept, moved⟩
      · rw [channel]
        exact old
      · exact old.kept moved quiet kept
    cases raised : s.flag with
    | true => rwa [flag raised, ← raised]
    | false =>
      rw [raised] at kept
      cases t.flag with
      | true => exact kept.raised
      | false => exact kept

theorem PipelineStep.holds (step : PipelineStep env none s cause t)
    (sound : Sound env.memorySizes s.channel env.config.kind) (old : PipelineHolds env s) : PipelineHolds env t where
  producer := step.producer_holds old.producer
  consumer := by
    rcases step.unreceived with moved | ⟨⟨same, written, closed⟩, moved⟩
    · exact moved.holds sound old.consumer
    · rw [same, written, closed]
      rcases moved with channel | ⟨action, quiet, kept, moved⟩
      · rw [channel]
        exact old.consumer
      · exact old.consumer.kept moved sound quiet kept
  fitting := by
    rcases step.channel_moves with same | ⟨_, _, _, moved⟩
    · rw [same]
      exact old.fitting
    · exact moved.fitting sound old.fitting
  main := by
    have ended : ∀ base, s.consumer = .finished (.ok base) → t.consumer = s.consumer ∧ t.written = s.written := by
      intro base finished
      rcases step.unreceived with moved | ⟨⟨same, written, _⟩, _⟩
      · exact absurd finished moved.unfinished
      · exact ⟨same, written⟩
    rcases step.undecided with moved | ⟨main, published, flag⟩
    · exact moved.main_holds old
    · exact old.main.kept main published flag ended

theorem reachable_pipeline (reach : Transition.Reachable .initial (PipelineMoves env none) s) :
    PipelineHolds env s := by
  refine reach.invariant (PipelineHolds env) ⟨⟨rfl, rfl⟩, ⟨rfl, rfl, rfl⟩, ?_, trivial⟩ ?_
  · intro message member
    cases member
  · intro s t before old ⟨_, step⟩
    exact step.holds (reachable_sound_channel before) old

/-- The charge of the batch fits the byte limit, where there is one. -/
def WithinLimit (env : Setting) (batch : RecordBatch) : Prop :=
  ∀ limit, env.config.maxAdmittedBytes = some limit →
    ∃ bytes, (charge env.memorySizes batch : Except IngestError Nat) = .ok bytes ∧ bytes ≤ limit

theorem fits_batch_iff {batch : RecordBatch} :
    Fits env.memorySizes env.config.kind (.ok batch : IngestMessage) ↔ WithinLimit env batch := by
  unfold Fits WithinLimit PipelineConfig.kind
  rcases env.config.maxAdmittedBytes with _ | limit
  · simp
  · simp only [sendCharge_batch_iff, Option.some.injEq, forall_eq']

theorem foldl_checkedRows (groups : List (List Row)) (report : PipelineReport) :
    (groups.map checkedRows).foldl (accumulateBatchStats env.hashRow) report =
      { report with
        batchesWritten := report.batchesWritten + groups.length
        rowsWritten := report.rowsWritten + groups.flatten.length
        contentDigest := rowsDigest env.hashRow report.contentDigest groups.flatten } := by
  induction groups generalizing report with
  | nil => rfl
  | cons group groups ih =>
    rw [List.map_cons, List.foldl_cons, ih]
    simp only [accumulateBatchStats, accumulateBatchDigest_checkedRows, List.flatten_cons, rowsDigest_append,
      List.length_cons, List.length_append, PipelineReport.mk.injEq, and_true]
    refine ⟨by omega, ?_⟩
    show report.rowsWritten + group.length + _ = _
    omega

theorem Recorded.rows {report : PipelineReport} {groups : List (List Row)}
    (recorded : Recorded env (groups.map rowBatch) report) :
    report.batchesWritten = groups.length ∧ report.rowsWritten = groups.flatten.length ∧
      report.contentDigest = rowsDigest env.hashRow 0 groups.flatten := by
  obtain ⟨checked, batches, rfl, valid⟩ := recorded
  have typed : checked = groups.map checkedRows := by
    have each : checked.map (fun one => CheckedIngestBatch.tryNew one.batch) = checked.map .ok :=
      List.map_congr_left valid
    have same : (checked.map (·.batch)).map CheckedIngestBatch.tryNew =
        (groups.map rowBatch).map CheckedIngestBatch.tryNew := by rw [batches]
    have all : (groups.map rowBatch).map CheckedIngestBatch.tryNew = (groups.map checkedRows).map .ok := by
      simp [Function.comp_def, tryNew_rowBatch]
    rw [List.map_map, all] at same
    exact List.map_injective_iff.mpr (fun _ _ => Except.ok.inj) (each.symm.trans same)
  rw [typed, foldl_checkedRows]
  simp [PipelineReport.default]

theorem map_ok_inj {left right : List RecordBatch} (same : sentBatches left = sentBatches right) :
    left = right :=
  List.map_injective_iff.mpr (fun _ _ => Except.ok.inj) same

/-- A run that ends well published the whole input in batches, each of which
fits the limit, and reports it. -/
theorem PipelineHolds.faithful {report : PipelineReport} (holds : PipelineHolds env s)
    (done : s.main = .done (.ok report)) :
    ∃ rows, parseRows env.file = .ok rows ∧
      s.published = some ((chunksOf env.config.batchSize rows).map rowBatch, true) ∧
      (∀ group ∈ chunksOf env.config.batchSize rows, WithinLimit env (rowBatch group)) ∧
      report.batchesWritten = (rows.length + env.config.batchSize - 1) / env.config.batchSize ∧
      report.rowsWritten = rows.length ∧ report.contentDigest = rowsDigest env.hashRow 0 rows := by
  have main := holds.main
  simp only [MainHolds, done] at main
  obtain ⟨⟨base, admitted, peak, finished, rfl⟩, ⟨rows, parsed, sent⟩, published⟩ := main report rfl
  have consumer := holds.consumer
  rw [finished] at consumer
  obtain ⟨⟨_, enqueued⟩, recorded, _⟩ := consumer.2 base rfl
  have written : s.written = (chunksOf env.config.batchSize rows).map rowBatch := by
    refine map_ok_inj (sent.trans ?_)
    simp [sentBatches, batchOf, Function.comp_def]
  rw [written] at recorded published
  obtain ⟨batches, count, digest⟩ := recorded.rows
  rw [flatten_chunksOf env.config.batchSize_pos] at count digest
  rw [length_chunksOf env.config.batchSize_pos] at batches
  refine ⟨rows, parsed, published, fun group member => ?_, batches, count, digest⟩
  refine fits_batch_iff.mp (holds.fitting _ ?_)
  rw [enqueued, written]
  exact List.mem_map_of_mem (List.mem_map_of_mem member)

end Datacrate.Bounded
