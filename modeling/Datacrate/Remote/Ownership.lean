import Datacrate.Lib.Requests
import Datacrate.Remote.Keys

namespace Datacrate.Remote

open Datacrate.Ingest Datacrate.Bounded Interaction

/-- The keys at which a request may write an object. -/
def PublishRequest.writes : PublishRequest → List ObjectPath
  | .putMultipart key | .nextPart key | .complete key _ | .abort key | .copy _ key | .put key _ => [key]
  | _ => []

def PublishRequest.deletes : PublishRequest → List ObjectPath
  | .delete key => [key]
  | _ => []

/-- A request of an upload to this key. -/
def Uploads (key : ObjectPath) : PublishRequest → Prop
  | .openFile _ | .read _ => True
  | .putMultipart other | .nextPart other | .complete other _ | .abort other => other = key
  | _ => False

section Requests

variable {key : ObjectPath}

theorem makeRoom_issues (pending : Nat) : Program.Issues (Uploads key) (makeRoom key pending) := by
  unfold makeRoom
  split
  · exact Program.Issues.andThen (.attempt (.ask rfl)) fun _ => trivial
  · trivial

theorem sendParts_issues (src : String) (buffers : List Bytes) (pending : Nat) (sent : List Bytes) :
    Program.Issues (Uploads key) (sendParts src key buffers pending sent) := by
  induction buffers generalizing pending sent with
  | nil =>
    unfold sendParts
    refine Program.Issues.andThen (makeRoom_issues pending) fun _ => ?_
    exact Program.Issues.andThen (.attempt (.ask trivial)) fun _ => trivial
  | cons buffer buffers ih =>
    unfold sendParts
    refine Program.Issues.andThen (makeRoom_issues pending) fun _ => ?_
    refine Program.Issues.andThen (.attempt (.ask trivial)) fun _ => ?_
    split
    · trivial
    · exact ih _ _

theorem awaitParts_issues (pending : Nat) : Program.Issues (Uploads key) (awaitParts key pending) := by
  induction pending with
  | zero => trivial
  | succ pending ih =>
    unfold awaitParts
    exact Program.Issues.andThen (.attempt (.ask rfl)) fun _ => ih

theorem uploadFromTemp_issues (src : String) (contents : Bytes) :
    Program.Issues (Uploads key) (uploadFromTemp src contents key) := by
  unfold uploadFromTemp
  refine Program.Issues.andThen (.attempt (.ask trivial)) fun _ => ?_
  refine Program.Issues.andThen (.attempt (.ask rfl)) fun _ => ?_
  have sent : Program.Issues (Uploads key) (sendAll src contents key) := by
    unfold sendAll
    refine Program.Issues.andThen (sendParts_issues src _ 0 []) fun sent => ?_
    refine Program.Issues.andThen (awaitParts_issues sent.1) fun _ => ?_
    exact .attempt (.ask rfl)
  refine Program.Issues.bind sent fun outcome => ?_
  cases outcome with
  | ok done => trivial
  | error source => exact Program.Issues.bind (.ask rfl) fun _ => trivial

theorem deleteObject_issues {allowed : PublishRequest → Prop} (granted : allowed (.delete key)) :
    Program.Issues allowed (deleteObject key) :=
  Program.Issues.bind (.ask granted) fun _ => trivial

end Requests

section Runs

variable (formats : Formats) (outputKey : ObjectPath) (job : Job) (runId : String)

/-- The keys a run may write at. -/
def writtenKeys : List ObjectPath :=
  [stagingKey formats.encoding outputKey runId, keyFor formats.encoding outputKey, outputKey]

/-- The keys a run may delete at. -/
def deletedKeys : List ObjectPath :=
  [stagingKey formats.encoding outputKey runId, keyFor formats.encoding outputKey]

variable {formats outputKey job runId} {staged : RemoteStagedOutput}

/-- What a run asks for, besides the uploads: the marker's deletion, the copy,
the head request and the write of its completion record. -/
theorem publishStaged_issues {allowed : PublishRequest → Prop}
    (uploads : ∀ request, Uploads staged.key request → allowed request)
    (invalidates : allowed (.delete (keyFor formats.encoding outputKey)))
    (copies : allowed (.copy staged.key outputKey)) (captures : allowed (.head outputKey))
    (records : ∀ metadata bytes, formats.toVec (job.record outputKey staged.runId metadata) = .ok bytes →
      allowed (.put (keyFor formats.encoding outputKey) bytes)) :
    Program.Issues allowed (publishStaged formats outputKey job staged) := by
  unfold publishStaged
  refine Program.Issues.andThen (.attempt ((uploadFromTemp_issues _ _).mono uploads)) fun _ => ?_
  refine Program.Issues.andThen (.attempt (deleteObject_issues invalidates)) fun _ => ?_
  refine Program.Issues.andThen (.attempt (.attempt (.ask copies))) fun _ => ?_
  unfold recordCompletion
  refine Program.Issues.andThen (.attempt (.attempt (.ask captures))) fun metadata => ?_
  refine Program.Issues.settledThen fun identity made => ?_
  refine Program.Issues.settledThen fun manifest recorded => ?_
  obtain ⟨rfl, _⟩ := OutputIdentity.new_ok made
  obtain ⟨rfl, valid⟩ := CompletionManifest.newV2_ok recorded
  refine .attempt ?_
  unfold putManifest
  rw [valid]
  rcases written : formats.toVec (CompletionManifest.ofOutput job.inputKey job.inputMeta job.rows job.digest
      { runId := staged.runId, key := outputKey, metadata }) with source | bytes
  · trivial
  · exact .attempt (.ask (records metadata bytes written))

theorem cleanup_issues {allowed : PublishRequest → Prop} (removes : allowed (.delete staged.key))
    (outcome : Except StepFailure Unit) : Program.Issues allowed (cleanup formats outputKey staged outcome) := by
  have removed : Program.Issues allowed (deleteObject staged.key) := deleteObject_issues removes
  cases outcome with
  | ok done => exact removed.attempt
  | error failure => exact removed.bind fun _ => trivial

/-- The completion records that a run writes are its own. -/
theorem publish_issues_records : Program.Issues
    (fun request => ∀ key body, request = .put key body → ∃ runId metadata,
      formats.toVec (job.record outputKey runId metadata) = .ok body)
    (publish formats outputKey job) := by
  unfold publish RemoteStagedOutput.new
  have named : Program.Issues (fun request => ∀ key body, request = .put key body → ∃ runId metadata,
      formats.toVec (job.record outputKey runId metadata) = .ok body)
      (attempt (perform .tempdir) fun (failed : String × String) =>
        (PipelineIoError.openOutput failed.1 failed.2)) :=
    .attempt (.ask fun _ _ same => by cases same)
  refine Program.Issues.andThen (.attempt (.andThen named fun _ => trivial)) fun staged => ?_
  refine Program.Issues.bind (publishStaged_issues ?_ ?_ ?_ ?_ ?_) fun outcome => cleanup_issues ?_ outcome
  · rintro request uploads key body rfl
    exact uploads.elim
  · exact fun _ _ same => by cases same
  · exact fun _ _ same => by cases same
  · exact fun _ _ same => by cases same
  · rintro metadata bytes made key body same
    cases same
    exact ⟨_, _, made⟩
  · exact fun _ _ same => by cases same

/-- The request writes and deletes at the keys of the run alone. -/
def Confined (formats : Formats) (outputKey : ObjectPath) (runId : String) (request : PublishRequest) : Prop :=
  request.writes ⊆ writtenKeys formats outputKey runId ∧ request.deletes ⊆ deletedKeys formats outputKey runId

theorem Uploads.confined {request : PublishRequest}
    (uploads : Uploads (stagingKey formats.encoding outputKey runId) request) :
    Confined formats outputKey runId request := by
  cases request with
  | openFile path | read path => exact ⟨List.nil_subset _, List.nil_subset _⟩
  | putMultipart key | nextPart key | complete key parts | abort key =>
    obtain rfl : key = stagingKey formats.encoding outputKey runId := uploads
    exact ⟨by simp [PublishRequest.writes, writtenKeys], List.nil_subset _⟩
  | tempdir | delete key | copy source target | head key | put key body => exact uploads.elim

theorem publish_issues_confined : Program.Issues (Confined formats outputKey runId)
    (Program.bind
      (publishStaged formats outputKey job { runId, key := stagingKey formats.encoding outputKey runId })
      (cleanup formats outputKey { runId, key := stagingKey formats.encoding outputKey runId })) := by
  refine (publishStaged_issues (fun _ uploads => uploads.confined) ?_ ?_ ?_ fun _ _ _ => ?_).bind
    fun outcome => cleanup_issues ?_ outcome
  · exact ⟨List.nil_subset _, by simp [PublishRequest.deletes, deletedKeys]⟩
  · exact ⟨by simp [PublishRequest.writes, writtenKeys], List.nil_subset _⟩
  · exact ⟨List.nil_subset _, List.nil_subset _⟩
  · exact ⟨by simp [PublishRequest.writes, writtenKeys], List.nil_subset _⟩
  · exact ⟨List.nil_subset _, by simp [PublishRequest.deletes, deletedKeys]⟩

/-- The response to the last deletion leaves the failure of an earlier step
as it is. -/
structure Concluded (formats : Formats) (outputKey : ObjectPath) (staged : RemoteStagedOutput)
    (outcome : Except StepFailure Unit) (result : Except (PipelineError PipelineIoError) Unit) : Prop where
  failed : ∀ phase known source, outcome = .error (phase, known, source) → ∃ cleanupError,
    result = .error (failure formats outputKey staged phase known source cleanupError)
  completed : outcome = .ok () → result = .ok () ∨ ∃ source,
    result = .error (failure formats outputKey staged .cleanupStaging .completedCleanupUnknown source none)

theorem deleteObject_traces {key : ObjectPath} {trace : List (Event PublishResponse)}
    {result : Except PipelineIoError Unit} (traces : Traces (deleteObject key) trace (Program.pure result)) :
    ∃ response, trace = [⟨.delete key, response⟩] ∧ result = deletion key response := by
  obtain ⟨first, second, response, rfl, asked, settled⟩ := Traces.bind traces
  obtain ⟨rfl, rfl⟩ := settled.pure
  exact ⟨response, by rw [asked.ask, List.append_nil], rfl⟩

theorem cleanup_traces {outcome : Except StepFailure Unit} {trace : List (Event PublishResponse)}
    {result : Except (PipelineError PipelineIoError) Unit}
    (traces : Traces (cleanup formats outputKey staged outcome) trace (Program.pure result)) :
    ∃ response, trace = [⟨.delete staged.key, response⟩] ∧ Concluded formats outputKey staged outcome result := by
  cases outcome with
  | ok done =>
    obtain ⟨first, second, deleted, rfl, removed, settled⟩ := Traces.bind traces
    obtain ⟨response, rfl, rfl⟩ := deleteObject_traces removed
    obtain ⟨rfl, rfl⟩ := settled.pure
    refine ⟨response, rfl, fun _ _ _ failed => (by cases failed), fun _ => ?_⟩
    rcases deletion staged.key response with source | done
    · exact Or.inr ⟨source, rfl⟩
    · exact Or.inl rfl
  | error failed =>
    obtain ⟨first, second, deleted, rfl, removed, settled⟩ := Traces.bind traces
    obtain ⟨response, rfl, rfl⟩ := deleteObject_traces removed
    obtain ⟨rfl, rfl⟩ := settled.pure
    refine ⟨response, rfl, fun _ _ _ same => ?_, fun ok => (by cases ok)⟩
    cases same
    exact ⟨_, rfl⟩

/-- A run that has its id ends with the deletion of its staging key. -/
theorem publish_traces {trace : List (Event PublishResponse)}
    {result : Except (PipelineError PipelineIoError) Unit}
    (traces : Traces (publish formats outputKey job) trace (Program.pure result)) :
    (∃ path source, trace = [⟨.tempdir, .error (path, source)⟩] ∧ result = .error (.io (.openOutput path source))) ∨
    ∃ runId key steps outcome response, key = stagingKey formats.encoding outputKey runId ∧
      trace = ⟨.tempdir, .ok runId⟩ :: (steps ++ [⟨.delete key, response⟩]) ∧
      Traces (publishStaged formats outputKey job { runId, key }) steps (Program.pure outcome) ∧
      Concluded formats outputKey { runId, key } outcome result := by
  generalize whole : publish formats outputKey job = program at traces
  cases traces with
  | stop => cases whole
  | answer rest =>
    cases whole
    rename_i trace response
    cases response with
    | error failed =>
      obtain ⟨rfl, rfl⟩ := Traces.pure rest
      exact Or.inl ⟨_, _, rfl, rfl⟩
    | ok runId =>
      have rest : Traces (Program.bind
          (publishStaged formats outputKey job { runId, key := stagingKey formats.encoding outputKey runId })
          (cleanup formats outputKey { runId, key := stagingKey formats.encoding outputKey runId }))
          trace (.pure result) := rest
      obtain ⟨steps, last, outcome, rfl, closure, ending⟩ := rest.bind
      obtain ⟨response, rfl, concluded⟩ := cleanup_traces ending
      exact Or.inr ⟨runId, _, steps, outcome, response, rfl, rfl, closure, concluded⟩

/-- Every request after the first keeps to the keys of the run. -/
theorem publish_confined {trace : List (Event PublishResponse)}
    {rest : Program PublishResponse (Except (PipelineError PipelineIoError) Unit)}
    (traces : Traces (publish formats outputKey job) trace rest) {event : Event PublishResponse}
    (member : event ∈ trace) : event.1 = .tempdir ∨ ∃ runId, ⟨.tempdir, .ok runId⟩ ∈ trace ∧
      Confined formats outputKey runId event.1 := by
  generalize whole : publish formats outputKey job = program at traces
  cases traces with
  | stop => cases member
  | answer after =>
    cases whole
    rename_i trace response
    rcases List.mem_cons.mp member with rfl | later
    · exact Or.inl rfl
    cases response with
    | error failed =>
      cases after
      cases later
    | ok runId =>
      exact Or.inr ⟨runId, List.mem_cons_self, publish_issues_confined.traces after event later⟩

/-- Publication keeps to three keys that no other output or run shares, never
deletes the output, and removes its staging object in the end, whose failure
replaces no other. -/
theorem publish_keys_owned (formats : Formats) (outputKey : ObjectPath) (job : Job) :
    (∀ trace rest, Traces (publish formats outputKey job) trace rest → ∀ event ∈ trace,
      event.1 = .tempdir ∨ ∃ runId, ⟨.tempdir, .ok runId⟩ ∈ trace ∧
        (∀ key ∈ event.1.writes, key = stagingKey formats.encoding outputKey runId ∨
          key = keyFor formats.encoding outputKey ∨ key = outputKey) ∧
        ∀ key ∈ event.1.deletes, (key = stagingKey formats.encoding outputKey runId ∨
          key = keyFor formats.encoding outputKey) ∧ key ≠ outputKey) ∧
    (∀ trace result, Traces (publish formats outputKey job) trace (Program.pure result) →
      (∃ path source, trace = [⟨.tempdir, .error (path, source)⟩] ∧ result = .error (.io (.openOutput path source))) ∨
      ∃ runId key steps outcome response, key = stagingKey formats.encoding outputKey runId ∧
        trace = ⟨.tempdir, .ok runId⟩ :: (steps ++ [⟨.delete key, response⟩]) ∧
        Traces (publishStaged formats outputKey job { runId, key }) steps (Program.pure outcome) ∧
        Concluded formats outputKey { runId, key } outcome result) ∧
    (∀ suffix, stagingKey formats.encoding outputKey ("datacrate-run-" ++ suffix) ≠ outputKey ∧
      stagingKey formats.encoding outputKey ("datacrate-run-" ++ suffix) ≠ keyFor formats.encoding outputKey ∧
      keyFor formats.encoding outputKey ≠ outputKey) ∧
    Function.Injective (keyFor formats.encoding) ∧
    ∀ first second runId runId', '/' ∉ runId.toList → '/' ∉ runId'.toList → runId ≠ "" → runId' ≠ "" →
      stagingKey formats.encoding first runId = stagingKey formats.encoding second runId' →
      first = second ∧ runId = runId' := by
  refine ⟨fun trace rest traces event member => ?_, fun trace result traces => publish_traces traces,
    fun suffix => ⟨(stagingKey_ne_output _ _).symm, (stagingKey_ne_keyFor _ _ ⟨suffix, rfl⟩).symm,
      keyFor_ne_output _ _⟩, keyFor_injective _, fun first second runId runId' plain plain' more more' same =>
        stagingKey_injective _ plain plain' more more' same⟩
  refine (publish_confined traces member).imp id fun confined => ?_
  obtain ⟨runId, named, writes, deletes⟩ := confined
  refine ⟨runId, named, fun key inside => by simpa [writtenKeys] using writes inside, fun key inside => ?_⟩
  have deleted : key = stagingKey formats.encoding outputKey runId ∨ key = keyFor formats.encoding outputKey := by
    simpa [deletedKeys] using deletes inside
  refine ⟨deleted, ?_⟩
  rcases deleted with rfl | rfl
  · exact (stagingKey_ne_output _ _).symm
  · exact keyFor_ne_output _ _

end Runs

end Datacrate.Remote
