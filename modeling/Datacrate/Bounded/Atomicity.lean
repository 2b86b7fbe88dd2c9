import Datacrate.Bounded.Result

namespace Datacrate.Bounded

open Datacrate.Ingest Chunks

variable {env : Setting} {transform : Option Callback} {s t : Pipeline} {cause : Cause} {error : IngestError}

/-- An error of a run that has yet to rename its file. -/
def Unpublished : IngestError → Prop
  | .localPublication phase outcome .. => phase ≠ .parentSync ∧ outcome = .notPublished
  | _ => True

/-- The failure that follows the rename. -/
def AtParentSync : IngestError → Prop
  | .localPublication phase .. => phase = .parentSync
  | _ => False

theorem PipelineError.OfTransport.unpublished (error : IngestError) (known : error.OfTransport) :
    Unpublished error := by
  cases error with
  | localPublication => exact known.elim
  | _ => trivial

theorem failure_unpublished {phase : LocalPublicationPhase} (early : phase ≠ .parentSync) (output : String)
    (source : PipelineIoError) : Unpublished (failure output phase source) :=
  ⟨early, if_neg early⟩

theorem Unpublished.early (early : Unpublished error) : ¬ AtParentSync error := by
  intro late
  cases error with
  | localPublication => exact early.1 late
  | _ => exact late

def Producer.Fails (error : IngestError) : Producer → Prop
  | .returning outcome | .finished outcome => outcome = some (.error error)
  | _ => False

def Consumer.Fails (error : IngestError) : Consumer → Prop
  | .unwinding result | .finished result => result = .error error
  | _ => False

/-- Neither thread ends with an error of a publication. -/
structure Blamed (s : Pipeline) : Prop where
  producer : ∀ error, s.producer.Fails error → Unpublished error
  consumer : ∀ error, s.consumer.Fails error → Unpublished error

theorem Produces.blamed (step : Produces env s t) (attributed : Attributed s.channel)
    (old : ∀ error, s.producer.Fails error → Unpublished error) :
    ∀ error, t.producer.Fails error → Unpublished error := by
  intro error failed
  cases step with
  | fail _ returned =>
    cases failed
    exact (attributed.sent _ _ returned).unpublished
  | last _ returned =>
    cases failed
    exact (attributed.sent _ _ returned).unpublished
  | drop returning =>
    refine old error ?_
    rw [returning]
    exact failed
  | overflow | panic | finish => cases failed
  | _ => exact failed.elim

theorem Consumes.blamed (step : Consumes env transform s cause t)
    (sound : Sound env.memorySizes s.channel env.config.kind) (attributed : Attributed s.channel)
    (old : ∀ error, s.consumer.Fails error → Unpublished error) :
    ∀ error, t.consumer.Fails error → Unpublished error := by
  intro error failed
  cases step with
  | refuse | interrupt | reject | abandon =>
    cases failed
    trivial
  | fail _ returned =>
    cases failed
    exact (attributed.got _ returned).unpublished
  | failTransform _ _ _ moved returned =>
    cases failed
    obtain ⟨result, known, _, errors⟩ := moved.transformed sound
    exact (errors _ (Option.some.inj (known.symm.trans returned))).unpublished
  | failWrite | failClose =>
    cases failed
    exact failure_unpublished (by decide) _ _
  | close => cases failed
  | drop unwinding =>
    refine old error ?_
    rw [unwinding]
    exact failed
  | release | unwindLease | unwindExpired => exact old error failed
  | _ => exact failed.elim

theorem PipelineStep.blamed (step : PipelineStep env transform s cause t)
    (sound : Sound env.memorySizes s.channel env.config.kind) (attributed : Attributed s.channel)
    (old : Blamed s) : Blamed t where
  producer := by
    rcases step.unsent with moved | ⟨same, _⟩
    · exact moved.blamed attributed old.producer
    · rw [same]
      exact old.producer
  consumer := by
    rcases step.unreceived with moved | ⟨⟨same, _⟩, _⟩
    · exact moved.blamed sound attributed old.consumer
    · rw [same]
      exact old.consumer

theorem joined_error {channel : System RecordBatch PipelineIoError} {result : Except IngestError PipelineReport}
    {production : Except IngestError Unit} (failed : joined env.config channel result production = .error error) :
    result = .error error ∨ production = .error error := by
  rcases result with early | base
  · exact Or.inl (congrArg Except.error (Except.error.inj failed))
  rcases production with late | done
  · exact Or.inr (congrArg Except.error (Except.error.inj failed))
  simp only [joined, bind, Except.bind, pure, Except.pure] at failed
  split at failed <;> cases failed

/-- A closed file of the whole input, batch after batch as transformed. -/
def NewFile (env : Setting) (transform : Option Callback) (file : List RecordBatch × Bool) : Prop :=
  file.2 = true ∧ ∃ rows, parseRows env.file = .ok rows ∧
    List.Forall₂ (Transforms transform) ((chunksOf env.config.batchSize rows).map rowBatch) file.1

/-- The consumer is done with the staged file, which is the new one. -/
def Staged (env : Setting) (transform : Option Callback) (s : Pipeline) : Prop :=
  (∃ result, s.consumer = .finished result) ∧ NewFile env transform (s.written, s.closed)

def Replaced (env : Setting) (transform : Option Callback) (s : Pipeline) : Prop :=
  ∃ file, s.published = some file ∧ NewFile env transform file

/-- What the output path holds at each point of the calling thread. -/
def PublicationHolds (env : Setting) (transform : Option Callback) (s : Pipeline) : Prop :=
  match s.main with
  | .start | .creating | .connecting | .running | .panicked => s.published = none
  | .deciding result => s.published = none ∧ (∀ error, result = .error error → Unpublished error) ∧
    ∀ report, result = .ok report → s.flag = true ∨ Staged env transform s
  | .syncing _ | .renaming _ => s.published = none ∧ Staged env transform s
  | .syncingParent _ | .done (.ok _) => Replaced env transform s
  | .done (.error error) => s.published = none ∧ Unpublished error ∨
    Replaced env transform s ∧ ∃ source, error = ioFailure env.output .parentSync source

/-- What a run of any transformation keeps. -/
structure Atomic (env : Setting) (transform : Option Callback) (s : Pipeline) : Prop where
  producer : ProducerHolds env s.flag s.channel s.producer
  consumer : ∃ sent, List.Forall₂ (Transforms transform) sent s.written ∧
    Handled env transform sent s.written s.closed s.channel s.consumer
  blamed : Blamed s
  publication : PublicationHolds env transform s

theorem Staged.kept (step : PipelineStep env transform s cause t) (old : Staged env transform s) :
    Staged env transform t := by
  obtain ⟨⟨result, finished⟩, file⟩ := old
  rcases step.unreceived with moved | ⟨⟨same, written, closed⟩, _⟩
  · exact absurd finished moved.unfinished
  · exact ⟨⟨result, same.trans finished⟩, by rwa [written, closed]⟩

theorem PublicationHolds.kept (old : PublicationHolds env transform s) (main : t.main = s.main)
    (published : t.published = s.published) (flag : s.flag = true → t.flag = true)
    (staged : Staged env transform s → Staged env transform t) : PublicationHolds env transform t := by
  unfold PublicationHolds Replaced at old ⊢
  rw [main, published]
  generalize s.main = here at old ⊢
  cases here with
  | deciding => exact ⟨old.1, old.2.1, fun report same => (old.2.2 report same).imp flag staged⟩
  | syncing | «renaming» => exact ⟨old.1, staged old.2⟩
  | done result => cases result <;> exact old
  | _ => exact old

/-- Both threads ended well: the staged file is the new one, unless a
cancellation was seen. -/
theorem Atomic.staged (old : Atomic env transform s) {base : PipelineReport}
    (produced : s.producer = .finished (some (.ok ()))) (consumed : s.consumer = .finished (.ok base)) :
    s.flag = true ∨ Staged env transform s := by
  have producer := old.producer
  rw [produced] at producer
  obtain ⟨sent, made, handled⟩ := old.consumer
  rw [consumed] at handled
  obtain ⟨⟨_, enqueued⟩, _, closed⟩ := handled.2 base rfl
  rcases producer.2 rfl with flag | ⟨rows, parsed, complete⟩ | ⟨source, member⟩
  · exact Or.inl flag
  · have batches : sent = (chunksOf env.config.batchSize rows).map rowBatch := by
      refine map_ok_inj (enqueued.symm.trans (complete.trans ?_))
      simp [sentBatches, batchOf, Function.comp_def]
    rw [batches] at made
    exact Or.inr ⟨⟨_, consumed⟩, closed, rows, parsed, made⟩
  · rw [enqueued] at member
    simp [sentBatches] at member

theorem Controls.publication (step : Controls env s cause t) (old : Atomic env transform s) :
    PublicationHolds env transform t := by
  have here := old.publication
  unfold PublicationHolds at here
  cases step with
  | refuse main =>
    rw [main] at here
    exact Or.inl ⟨here, trivial⟩
  | enter main | create main | connect main | overflow main | panic main =>
    rw [main] at here
    exact here
  | failCreate main | failWriter main =>
    rw [main] at here
    exact Or.inl ⟨here, failure_unpublished (by decide) _ _⟩
  | join main produced consumed =>
    rw [main] at here
    refine ⟨here, fun error failed => ?_, fun report same => ?_⟩
    · rcases joined_error failed with early | late
      · refine old.blamed.consumer error ?_
        rw [consumed]
        exact early
      · refine old.blamed.producer error ?_
        rw [produced]
        exact congrArg some late
    · obtain ⟨rfl, base, _, _, rfl, _⟩ := joined_ok same
      exact old.staged produced consumed
  | fail main =>
    rw [main] at here
    exact Or.inl ⟨here.1, here.2.1 _ rfl⟩
  | abandon main =>
    rw [main] at here
    exact Or.inl ⟨here.1, trivial⟩
  | decide main calm =>
    rw [main] at here
    refine ⟨here.1, (here.2.2 _ rfl).resolve_left fun raised => ?_⟩
    rw [calm] at raised
    cases raised
  | failSync main | failRename main =>
    rw [main] at here
    exact Or.inl ⟨here.1, failure_unpublished (by decide) _ _⟩
  | sync main =>
    rw [main] at here
    exact here
  | rename main =>
    rw [main] at here
    exact ⟨_, rfl, here.2.2⟩
  | failParent main =>
    rw [main] at here
    exact Or.inr ⟨here, _, rfl⟩
  | publish main =>
    rw [main] at here
    exact here

theorem PipelineStep.atomic (step : PipelineStep env transform s cause t)
    (sound : Sound env.memorySizes s.channel env.config.kind) (attributed : Attributed s.channel)
    (old : Atomic env transform s) : Atomic env transform t where
  producer := step.producer_holds old.producer
  consumer := by
    obtain ⟨sent, made, handled⟩ := old.consumer
    rcases step.unreceived with moved | ⟨⟨same, written, closed⟩, moved⟩
    · exact moved.handled sound made handled
    · rw [same, written, closed]
      rcases moved with channel | ⟨action, quiet, kept, moved⟩
      · rw [channel]
        exact ⟨sent, made, handled⟩
      · exact ⟨sent, made, handled.kept moved sound quiet kept⟩
  blamed := step.blamed sound attributed old.blamed
  publication := by
    rcases step.undecided with moved | ⟨main, published, flag⟩
    · exact moved.publication old
    · exact old.publication.kept main published flag (.kept step)

theorem reachable_atomic (reach : Transition.Reachable .initial (PipelineMoves env transform) s) :
    Atomic env transform s := by
  refine reach.invariant (Atomic env transform) ⟨⟨rfl, rfl⟩, ⟨[], .nil, rfl, rfl, rfl⟩, ?_, rfl⟩ ?_
  · exact ⟨fun _ failed => failed.elim, fun _ failed => failed.elim⟩
  · intro s t before old ⟨_, step⟩
    exact step.atomic (reachable_sound_channel before) (reachable_attributed (reachable_channel before)) old

/-- What stands at the output path, given what stood there before the run. -/
def Pipeline.visible {α : Type} (previous : Option α) (s : Pipeline) : Option (α ⊕ List RecordBatch × Bool) :=
  match s.published with
  | none => previous.map .inl
  | some file => some (.inr file)

section Visible

variable {α : Type} {previous : Option α}

theorem visible_unchanged_iff : s.visible previous = previous.map .inl ↔ s.published = none := by
  unfold Pipeline.visible
  rcases s.published with _ | file
  · simp
  · cases previous <;> simp

theorem Replaced.visible (replaced : Replaced env transform s) :
    ∃ file, s.visible previous = some (.inr file) ∧ NewFile env transform file := by
  obtain ⟨file, published, whole⟩ := replaced
  refine ⟨file, ?_, whole⟩
  unfold Pipeline.visible
  rw [published]

theorem Replaced.changed (replaced : Replaced env transform s) : s.visible previous ≠ previous.map .inl := by
  obtain ⟨file, published, _⟩ := replaced
  rw [ne_eq, visible_unchanged_iff, published]
  simp

/-- At every moment the path holds what it held, or the whole new file. -/
theorem PublicationHolds.whole (holds : PublicationHolds env transform s) :
    s.published = none ∨ Replaced env transform s := by
  unfold PublicationHolds at holds
  generalize s.main = here at holds
  cases here with
  | deciding | syncing | «renaming» => exact Or.inl holds.1
  | syncingParent => exact Or.inr holds
  | done result =>
    cases result with
    | ok => exact Or.inr holds
    | error => exact holds.imp And.left And.left
  | _ => exact Or.inl holds

/-- The output path is replaced as a whole or not at all, at every moment of
every run: success and a failure of the last directory sync leave the whole
new file, every other error what was there, and the outcome of a local
failure says which. -/
theorem local_output_atomic (reach : Transition.Reachable .initial (PipelineMoves env transform) s) (previous : Option α) :
    (s.visible previous = previous.map .inl ∨
      ∃ file, s.visible previous = some (.inr file) ∧ NewFile env transform file) ∧
    (∀ report, s.main = .done (.ok report) →
      ∃ file, s.visible previous = some (.inr file) ∧ NewFile env transform file) ∧
    ∀ error, s.main = .done (.error error) →
      (AtParentSync error → ∃ file, s.visible previous = some (.inr file) ∧ NewFile env transform file) ∧
      (¬ AtParentSync error → s.visible previous = previous.map .inl) ∧
      ∀ phase outcome output source, error = .localPublication phase outcome output source →
        (outcome = .notPublished ↔ s.visible previous = previous.map .inl) := by
  have holds := (reachable_atomic reach).publication
  refine ⟨?_, fun report done => ?_, fun error done => ?_⟩
  · exact holds.whole.imp visible_unchanged_iff.mpr Replaced.visible
  · simp only [PublicationHolds, done] at holds
    exact holds.visible
  · simp only [PublicationHolds, done] at holds
    rcases holds with ⟨unchanged, early⟩ | ⟨replaced, source, rfl⟩
    · have same := (@visible_unchanged_iff s α previous).mpr unchanged
      refine ⟨fun late => absurd late early.early, fun _ => same, ?_⟩
      rintro phase outcome output source rfl
      exact iff_of_true early.2 same
    · refine ⟨fun _ => replaced.visible, fun early => absurd rfl early, ?_⟩
      intro phase outcome output source' late
      cases late
      exact iff_of_false (by simp) replaced.changed

end Visible

/-- One row in a batch of its own. -/
def oneRow : Setting where
  file := { path := "input.csv", opened := .ok [.ok ["1", "ada", ""]] }
  output := "output.parquet"
  config := { batchSize := 1, channelCapacity := 1, maxAdmittedBytes := none, batchSize_pos := by decide }
  arrow := .documented
  memorySizes := fun _ => []
  hashRow := fun _ _ _ => 0
  rowBytes := 56
  slotBytes := 56
  heap := 2 ^ 30

/-- The same for other paths. -/
def oneRowAt (path output : String) : Setting :=
  { oneRow with file := { oneRow.file with path }, output }

def keepBatch : Callback :=
  fun batch outcome => outcome = .ok batch

def ada : Row where
  id := 1
  name := "ada"
  note := none

variable {path output : String}

theorem oneRow_turn :
    produce (oneRowAt path output) false 0 [] [.ok ["1", "ada", ""]] = .send (.ok (rowBatch [ada])) (some (1, [])) := by
  have parsed : readRow 0 (.ok ["1", "ada", ""]) = .ok ada := by decide
  have fits : TextFits ([] ++ [ada]) := by decide
  simp only [produce, parsed, sendChunk_eq, if_pos fits]
  rfl

/-- A run of its own: the row is produced, then consumed, and the file is
renamed. -/
theorem oneRow_renamed : ∃ s report,
    Transition.Reachable .initial (PipelineMoves (oneRowAt path output) (some keepBatch)) s ∧
      s.main = .syncingParent report ∧ report.rowsWritten = 1 := by
  have slots : SlotsAllocate (oneRowAt path output) := fun _ => by simp [Allocates, oneRowAt, oneRow, Usize.range]
  have room : Allocates (oneRowAt path output) (oneRowAt path output).config.batchSize
      (oneRowAt path output).rowBytes := by simp [Allocates, oneRowAt, oneRow, Usize.range]
  have first : Transition.Reachable .initial (PipelineMoves (oneRowAt path output) (some keepBatch)) .initial := .start
  have running := ((first.next ⟨.work, .control (.enter rfl rfl)⟩).next ⟨.work, .control (.create rfl)⟩).next
    ⟨.work, .control (.connect rfl slots)⟩
  have sent := ((running.next ⟨.work, .produce (.allocate rfl rfl rfl room)⟩).next
    ⟨.work, .produce (.send rfl oneRow_turn (CountStep.send rfl))⟩).next
    ⟨.work, .channel (show Internal .admission from trivial) (CountStep.enqueue rfl rfl Nat.zero_lt_one)⟩
  have produced := ((sent.next ⟨.work, .produce (.proceed rfl rfl)⟩).next ⟨.work, .produce (.finish rfl rfl)⟩).next
    ⟨.work, .produce (.drop rfl (CountStep.dropSender rfl))⟩
  have received := ((produced.next ⟨.work, .consume (.start rfl rfl rfl (CountStep.recv rfl) ⟨rfl, rfl⟩)⟩).next
    ⟨.work, .channel (show Internal .poll from trivial) (CountStep.take rfl rfl)⟩).next
    ⟨.work, .consume (.receive rfl rfl)⟩
  have transformed := (received.next ⟨.work, .consume (.check rfl rfl)⟩).next
    ⟨.work, .consume (.transform rfl rfl rfl (@CountStep.transform _ _ 1 _ [] _ _ _ rfl) rfl)⟩
  have written := (transformed.next ⟨.work, .consume (.accept rfl (tryNew_rowBatch [ada]))⟩).next
    ⟨.work, .consume (.write rfl)⟩
  have again := (written.next ⟨.work, .consume (.release rfl (@CountStep.dropLease _ _ 1 _ [] _ _ rfl))⟩).next
    ⟨.work, .consume (.next rfl (CountStep.recv rfl) ⟨rfl, rfl⟩)⟩
  have drained := ((again.next
    ⟨.work, .channel (show Internal .poll from trivial) (CountStep.finish rfl rfl rfl)⟩).next
    ⟨.work, .consume (.exhaust rfl rfl)⟩).next ⟨.work, .consume (.drain rfl rfl)⟩
  have ended := (drained.next ⟨.work, .consume (.close rfl)⟩).next
    ⟨.work, .consume (.drop rfl ⟨rfl, rfl⟩ (CountStep.dropReceiver rfl))⟩
  have decided := (ended.next ⟨.work, .control (.join rfl rfl rfl)⟩).next ⟨.work, .control (.decide rfl rfl)⟩
  have renamed := (decided.next ⟨.work, .control (.sync rfl)⟩).next ⟨.work, .control (.rename rfl)⟩
  exact ⟨_, _, renamed, rfl, rfl⟩

/-- The directory fails to sync after the rename. -/
theorem oneRow_run : ∃ s, Transition.Reachable .initial (PipelineMoves oneRow (some keepBatch)) s ∧
    s.main = .done (.error (ioFailure "output.parquet" .parentSync "unplugged")) := by
  obtain ⟨s, report, renamed, syncing, _⟩ := @oneRow_renamed "input.csv" "output.parquet"
  exact ⟨_, renamed.next ⟨.fault, .control (@Controls.failParent _ _ _ "unplugged" syncing)⟩, rfl⟩

theorem oneRow_succeeds : ∃ s report,
    Transition.Reachable .initial (PipelineMoves (oneRowAt path output) (some keepBatch)) s ∧
      s.main = .done (.ok report) ∧ report.rowsWritten = 1 := by
  obtain ⟨s, report, renamed, syncing, one⟩ := @oneRow_renamed path output
  exact ⟨_, report, renamed.next ⟨.work, .control (.publish syncing)⟩, rfl, one⟩

theorem oneRow_replaced :
    ∃ s, Transition.Reachable .initial (PipelineMoves oneRow (some keepBatch)) s ∧
      s.main = .done (.error (ioFailure "output.parquet" .parentSync "unplugged")) ∧
      ∃ file, s.visible (some "old") = some (.inr file) ∧ NewFile oneRow (some keepBatch) file := by
  obtain ⟨s, reach, done⟩ := oneRow_run
  exact ⟨s, reach, done, ((local_output_atomic reach (some "old")).2.2 _ done).1 rfl⟩

end Datacrate.Bounded
