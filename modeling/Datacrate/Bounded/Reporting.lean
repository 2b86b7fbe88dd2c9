import Datacrate.Bounded.Atomicity
import Datacrate.Bounded.Consumption

namespace Datacrate.Bounded

open Datacrate.Ingest

variable {env : Setting} {transform : Option Callback} {s t : Pipeline} {cause : Cause}

/-- The report that the calling thread has in hand is the consumer's, and what
it published is the file that the consumer wrote. -/
def ReportHolds (s : Pipeline) : Prop :=
  match s.main with
  | .start | .creating | .connecting | .running | .panicked => True
  | .deciding result => ∀ report, result = .ok report → Reported s report
  | .syncing report | .renaming report => Reported s report
  | .syncingParent report => Reported s report ∧ s.published = some (s.written, s.closed)
  | .done result => ∀ report, result = .ok report → Reported s report ∧ s.published = some (s.written, s.closed)

theorem ReportHolds.kept (old : ReportHolds s) (main : t.main = s.main) (published : t.published = s.published)
    (ended : ∀ base, s.consumer = .finished (.ok base) →
      t.consumer = s.consumer ∧ t.written = s.written ∧ t.closed = s.closed) : ReportHolds t := by
  have reported : ∀ report, Reported s report → Reported t report ∧ t.written = s.written ∧ t.closed = s.closed := by
    rintro report ⟨base, admitted, peak, finished, rfl⟩
    obtain ⟨consumer, file⟩ := ended base finished
    exact ⟨⟨base, admitted, peak, consumer.trans finished, rfl⟩, file⟩
  unfold ReportHolds at old ⊢
  rw [main, published]
  generalize s.main = here at old ⊢
  cases here with
  | deciding result => exact fun report same => (reported report (old report same)).1
  | syncing report | «renaming» report => exact (reported report old).1
  | syncingParent report =>
    obtain ⟨now, written, closed⟩ := reported report old.1
    rw [written, closed]
    exact ⟨now, old.2⟩
  | done result =>
    intro report same
    obtain ⟨now, written, closed⟩ := reported report (old report same).1
    rw [written, closed]
    exact ⟨now, (old report same).2⟩
  | _ => trivial

theorem Controls.report_holds (step : Controls env s cause t) (old : ReportHolds s) : ReportHolds t := by
  cases step with
  | refuse | failCreate | failWriter | failSync | failRename | failParent | fail | abandon =>
    exact fun _ same => nomatch same
  | enter | create | connect | overflow | panic => trivial
  | join running produced consumed =>
    intro report same
    obtain ⟨_, base, admitted, peak, rfl, reported⟩ := joined_ok same
    exact ⟨base, admitted, peak, consumed, reported⟩
  | @decide report deciding calm =>
    simp only [ReportHolds, deciding] at old
    exact old report rfl
  | sync syncing =>
    simp only [ReportHolds, syncing] at old
    exact old
  | rename moving =>
    simp only [ReportHolds, moving] at old
    exact ⟨old, rfl⟩
  | publish publishing =>
    simp only [ReportHolds, publishing] at old
    intro other same
    cases same
    exact old

theorem reachable_report (reach : Transition.Reachable .initial (PipelineMoves env transform) s) : ReportHolds s := by
  refine reach.invariant ReportHolds trivial fun before old ⟨_, step⟩ => ?_
  rcases step.undecided with moved | ⟨main, published, _⟩
  · exact moved.report_holds old
  · refine old.kept main published fun base finished => ?_
    rcases step.unreceived with moved | ⟨same, _⟩
    · exact absurd finished moved.unfinished
    · exact same

/-- A run that ends well has put the transformed input to its output, and its
report certifies what it has put there. -/
theorem pipeline_done_certified {report : PipelineReport}
    (reach : Transition.Reachable .initial (PipelineMoves env transform) s) (done : s.main = .done (.ok report)) :
    ∃ file, s.published = some file ∧ NewFile env transform file ∧ Certifies env.hashRow file.1 report := by
  have publication := (reachable_atomic reach).publication
  have reports := reachable_report reach
  simp only [PublicationHolds, done] at publication
  simp only [ReportHolds, done] at reports
  obtain ⟨file, published, whole⟩ := publication
  obtain ⟨⟨base, admitted, peak, finished, rfl⟩, written⟩ := reports report rfl
  cases published.symm.trans written
  obtain ⟨certified, _⟩ := pipeline_report_certified reach (by rw [finished]; rfl)
  exact ⟨_, published, whole, certified.batches, certified.rows, certified.digest⟩

/-- An error that no remote publication made. -/
def IsLocal : IngestError → Prop
  | .remotePublication _ => False
  | _ => True

theorem PipelineError.OfTransport.isLocal {error : IngestError} (known : error.OfTransport) : IsLocal error := by
  cases error with
  | remotePublication => exact known
  | _ => trivial

/-- No thread of the local pipeline ends with a remote error. -/
structure Localised (s : Pipeline) : Prop where
  producer : ∀ error, s.producer.Fails error → IsLocal error
  consumer : ∀ error, s.consumer.Fails error → IsLocal error
  main : ∀ error, s.main = .deciding (.error error) ∨ s.main = .done (.error error) → IsLocal error

theorem Produces.localised (step : Produces env s t) (attributed : Attributed s.channel)
    (old : ∀ error, s.producer.Fails error → IsLocal error) : ∀ error, t.producer.Fails error → IsLocal error := by
  intro error failed
  cases step with
  | fail _ returned | last _ returned =>
    cases failed
    exact (attributed.sent _ _ returned).isLocal
  | drop returning =>
    refine old error ?_
    rw [returning]
    exact failed
  | overflow | panic | finish => cases failed
  | _ => exact failed.elim

theorem Consumes.localised (step : Consumes env transform s cause t)
    (sound : Sound env.memorySizes s.channel env.config.kind) (attributed : Attributed s.channel)
    (old : ∀ error, s.consumer.Fails error → IsLocal error) : ∀ error, t.consumer.Fails error → IsLocal error := by
  intro error failed
  cases step with
  | refuse | interrupt | reject | abandon | failWrite | failClose =>
    cases failed
    trivial
  | fail _ returned =>
    cases failed
    exact (attributed.got _ returned).isLocal
  | failTransform _ _ _ moved returned =>
    cases failed
    obtain ⟨result, known, _, errors⟩ := moved.transformed sound
    exact (errors _ (Option.some.inj (known.symm.trans returned))).isLocal
  | close => cases failed
  | drop unwinding =>
    refine old error ?_
    rw [unwinding]
    exact failed
  | release | unwindLease | unwindExpired => exact old error failed
  | _ => exact failed.elim

theorem Controls.localised (step : Controls env s cause t) (old : Localised s) :
    ∀ error, t.main = .deciding (.error error) ∨ t.main = .done (.error error) → IsLocal error := by
  intro error failed
  cases step with
  | refuse | failCreate | failWriter | failSync | failRename | failParent | abandon =>
    rcases failed with failed | failed <;> cases failed
    trivial
  | fail deciding =>
    rcases failed with failed | failed <;> cases failed
    exact old.main _ (Or.inl deciding)
  | join running produced consumed =>
    rcases failed with failed | failed
    · rcases joined_error (Main.deciding.inj failed) with rfl | rfl
      · exact old.consumer error (by rw [consumed]; rfl)
      · exact old.producer error (by rw [produced]; rfl)
    · cases failed
  | _ => rcases failed with failed | failed <;> cases failed

theorem reachable_localised (reach : Transition.Reachable .initial (PipelineMoves env transform) s) :
    Localised s := by
  refine reach.invariant Localised ⟨fun _ failed => failed.elim, fun _ failed => failed.elim, ?_⟩
    fun before old ⟨_, step⟩ => ?_
  · intro error failed
    rcases failed with failed | failed <;> cases failed
  · have sound := reachable_sound_channel before
    have attributed := reachable_attributed (reachable_channel before)
    refine ⟨?_, ?_, ?_⟩
    · rcases step.unsent with moved | ⟨same, _⟩
      · exact moved.localised attributed old.producer
      · rw [same]
        exact old.producer
    · rcases step.unreceived with moved | ⟨⟨same, _⟩, _⟩
      · exact moved.localised sound attributed old.consumer
      · rw [same]
        exact old.consumer
    · rcases step.undecided with moved | ⟨main, _⟩
      · exact moved.localised old
      · rw [main]
        exact old.main

end Datacrate.Bounded
