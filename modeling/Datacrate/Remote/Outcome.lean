import Datacrate.Remote.Keys
import Datacrate.Remote.Steps

namespace Datacrate.Remote

open Datacrate.Ingest Datacrate.Bounded Interaction

section States

variable (formats : Formats) (truthful : Object → ObjectMeta → Prop) (outputKey : ObjectPath) (job : Job)
  (start : Site)

/-- The bytes are the completion record of a run, made for an object with the
run's contents that the output key held. -/
def Vouched (run : String × Job) (bytes : Bytes) (t : Site) : Prop :=
  run ∈ t.runs ∧ ∃ written metadata, written ∈ t.store.history outputKey ∧ written.bytes = run.2.contents ∧
    truthful written metadata ∧ (run.2.record outputKey run.1 metadata).validate = .ok () ∧
    formats.toVec (run.2.record outputKey run.1 metadata) = .ok bytes

/-- The run has its own id. -/
structure Begun (runId : String) (t : Site) : Prop where
  named : ∃ suffix, runId = "datacrate-run-" ++ suffix
  fresh : ∀ run ∈ start.runs, run.1 ≠ runId
  runs : t.runs = start.runs ++ [(runId, job)]

/-- The output is as it was, and so is its marker unless it is gone. -/
structure Unpublished (t : Site) : Prop where
  clock : start.store.clock ≤ t.store.clock
  output : t.store.current outputKey = start.store.current outputKey
  marker : t.store.current (keyFor formats.encoding outputKey) =
      start.store.current (keyFor formats.encoding outputKey) ∨
    t.store.current (keyFor formats.encoding outputKey) = none

/-- The output is the run's, and so is any marker. -/
structure Published (runId : String) (t : Site) : Prop where
  clock : start.store.clock ≤ t.store.clock
  begun : Begun job start runId t
  output : Holds outputKey job.contents start.store.clock t
  marker : ∀ marker, t.store.current (keyFor formats.encoding outputKey) = some marker →
    start.store.clock ≤ marker.birth ∧ Vouched formats truthful outputKey (runId, job) marker.bytes t

/-- What is so after each step of the run. -/
def Midway (t : Site) : Prop :=
  Unpublished formats outputKey start t ∨ ∃ runId, Published formats truthful outputKey job start runId t

/-- What each outcome says of the state. -/
def Told (t : Site) : RemotePublicationOutcome → Prop
  | .notPublished => Unpublished formats outputKey start t
  | .publicationUnknown => Midway formats truthful outputKey job start t
  | .publishedWithoutCompletion => (∃ runId, Published formats truthful outputKey job start runId t) ∧
      t.store.current (keyFor formats.encoding outputKey) = none
  | .completionUnknown => ∃ runId, Published formats truthful outputKey job start runId t
  | .completedCleanupUnknown => (∃ runId, Published formats truthful outputKey job start runId t) ∧
      ∃ marker, t.store.current (keyFor formats.encoding outputKey) = some marker

/-- What a failed step, or the end of the steps, says of the state. -/
def ToldAt : Except StepFailure Unit → Site → Prop
  | .ok (), t => Told formats truthful outputKey job start t .completedCleanupUnknown
  | .error (_, outcome, _), t => Told formats truthful outputKey job start t outcome

/-- What the result of `publish` says of the state. -/
def ToldBy : Except (PipelineError PipelineIoError) Unit → Site → Prop
  | .ok (), t => Told formats truthful outputKey job start t .completedCleanupUnknown
  | .error (.remotePublication error), t => Told formats truthful outputKey job start t error.outcome
  | .error _, t => Told formats truthful outputKey job start t .notPublished

end States

section Frames

variable {formats : Formats} {truthful : Object → ObjectMeta → Prop} {outputKey key : ObjectPath} {job : Job}
  {start s t : Site} {runId : String} {bytes : Bytes}

theorem Vouched.grows {run : String × Job} (vouched : Vouched formats truthful outputKey run bytes s)
    (runs : s.runs ⊆ t.runs) (history : s.store.history outputKey ⊆ t.store.history outputKey) :
    Vouched formats truthful outputKey run bytes t := by
  obtain ⟨member, written, metadata, recorded, rest⟩ := vouched
  exact ⟨runs member, written, metadata, history recorded, rest⟩

theorem Begun.changes (begun : Begun job start runId s) (changes : Changes key s t) : Begun job start runId t :=
  ⟨begun.named, begun.fresh, changes.runs.trans begun.runs⟩

theorem Unpublished.refl : Unpublished formats outputKey start start :=
  ⟨le_rfl, rfl, Or.inl rfl⟩

theorem Unpublished.elsewhere (unpublished : Unpublished formats outputKey start s) (changes : Changes key s t)
    (output : outputKey ≠ key) (marker : keyFor formats.encoding outputKey ≠ key) :
    Unpublished formats outputKey start t where
  clock := unpublished.clock.trans changes.clock
  output := (changes.current _ output).trans unpublished.output
  marker := by
    rw [changes.current _ marker]
    exact unpublished.marker

theorem Published.elsewhere (published : Published formats truthful outputKey job start runId s)
    (changes : Changes key s t) (output : outputKey ≠ key) (marker : keyFor formats.encoding outputKey ≠ key) :
    Published formats truthful outputKey job start runId t where
  clock := published.clock.trans changes.clock
  begun := published.begun.changes changes
  output := by
    obtain ⟨object, present, rest⟩ := published.output
    exact ⟨object, (changes.current _ output).trans present, rest⟩
  marker := by
    intro object present
    rw [changes.current _ marker] at present
    obtain ⟨since, vouched⟩ := published.marker object present
    exact ⟨since, vouched.grows (changes.runs ▸ List.Subset.refl _) (changes.history _)⟩

/-- Changes of other keys leave true what an outcome says. -/
theorem Told.elsewhere {outcome : RemotePublicationOutcome}
    (told : Told formats truthful outputKey job start s outcome) (changes : Changes key s t)
    (output : outputKey ≠ key) (marker : keyFor formats.encoding outputKey ≠ key) :
    Told formats truthful outputKey job start t outcome := by
  cases outcome with
  | notPublished => exact Unpublished.elsewhere told changes output marker
  | publicationUnknown =>
    rcases told with unpublished | ⟨runId, published⟩
    · exact Or.inl (unpublished.elsewhere changes output marker)
    · exact Or.inr ⟨runId, published.elsewhere changes output marker⟩
  | publishedWithoutCompletion =>
    obtain ⟨⟨runId, published⟩, missing⟩ := told
    exact ⟨⟨runId, published.elsewhere changes output marker⟩, (changes.current _ marker).trans missing⟩
  | completionUnknown =>
    obtain ⟨runId, published⟩ := told
    exact ⟨runId, published.elsewhere changes output marker⟩
  | completedCleanupUnknown =>
    obtain ⟨⟨runId, published⟩, object, present⟩ := told
    exact ⟨⟨runId, published.elsewhere changes output marker⟩, object, (changes.current _ marker).trans present⟩

/-- Every outcome describes a state in the middle of a run. -/
theorem Told.midway {outcome : RemotePublicationOutcome}
    (told : Told formats truthful outputKey job start t outcome) :
    Midway formats truthful outputKey job start t := by
  cases outcome with
  | notPublished => exact Or.inl told
  | publicationUnknown => exact told
  | publishedWithoutCompletion => exact Or.inr told.1
  | completionUnknown => exact Or.inr told
  | completedCleanupUnknown => exact Or.inr told.1

theorem Told.completion (told : Told formats truthful outputKey job start t .publishedWithoutCompletion)
    (error : PipelineIoError) : Told formats truthful outputKey job start t (completionOutcome error) := by
  unfold completionOutcome
  split
  · exact told.1
  · exact told

/-- A deletion of the marker. -/
theorem Unpublished.invalidate (unpublished : Unpublished formats outputKey start s)
    (changes : Changes (keyFor formats.encoding outputKey) s t)
    (removed : t = s ∨ t.store.current (keyFor formats.encoding outputKey) = none) :
    Unpublished formats outputKey start t where
  clock := unpublished.clock.trans changes.clock
  output := (changes.current _ (keyFor_ne_output _ _).symm).trans unpublished.output
  marker := by
    rcases removed with rfl | none
    · exact unpublished.marker
    · exact Or.inr none

/-- A copy to the output, once the marker is gone. -/
theorem Unpublished.copied (unpublished : Unpublished formats outputKey start s) (begun : Begun job start runId s)
    (missing : s.store.current (keyFor formats.encoding outputKey) = none) (changes : Changes outputKey s t)
    (held : Holds outputKey job.contents s.store.clock t) :
    Published formats truthful outputKey job start runId t ∧
      t.store.current (keyFor formats.encoding outputKey) = none := by
  have none : t.store.current (keyFor formats.encoding outputKey) = none :=
    (changes.current _ (keyFor_ne_output _ _)).trans missing
  refine ⟨⟨unpublished.clock.trans changes.clock, begun.changes changes, ?_, ?_⟩, none⟩
  · obtain ⟨object, present, same, since⟩ := held
    exact ⟨object, present, same, unpublished.clock.trans since⟩
  · intro marker present
    rw [none] at present
    cases present

/-- A write of the run's completion record. -/
theorem Published.completed {written : Object} {metadata : ObjectMeta}
    (published : Published formats truthful outputKey job start runId s)
    (present : s.store.current outputKey = some written) (same : written.bytes = job.contents)
    (honest : truthful written metadata) (valid : (job.record outputKey runId metadata).validate = .ok ())
    (made : formats.toVec (job.record outputKey runId metadata) = .ok bytes)
    (changes : Changes (keyFor formats.encoding outputKey) s t)
    (held : Holds (keyFor formats.encoding outputKey) bytes s.store.clock t) :
    Told formats truthful outputKey job start t .completedCleanupUnknown := by
  obtain ⟨marker, there, rfl, since⟩ := held
  have begun := published.begun.changes changes
  refine ⟨⟨runId, published.clock.trans changes.clock, begun, ?_, fun other known => ?_⟩, marker, there⟩
  · obtain ⟨object, here, rest⟩ := published.output
    exact ⟨object, (changes.current _ (keyFor_ne_output _ _).symm).trans here, rest⟩
  · rw [there, Option.some.injEq] at known
    subst known
    refine ⟨published.clock.trans since, by simp [begun.runs], written, metadata, ?_, same, honest, valid, made⟩
    exact changes.history _ (s.store.recorded _ _ present)

end Frames

section Runs

variable {formats : Formats} {truthful : Object → ObjectMeta → Prop} {outputKey : ObjectPath} {job : Job}
  {start s : Site} {runId : String}

/-- The upload leaves all but the staging key alone. -/
theorem upload_spec (unpublished : Unpublished formats outputKey start s) (begun : Begun job start runId s) :
    Ensures (Handles truthful job) Eq (fun _ t => Midway formats truthful outputKey job start t)
      (fun outcome t => (Unpublished formats outputKey start t ∧ Begun job start runId t) ∧
        (outcome = .ok () → ∃ since, Holds (stagingKey formats.encoding outputKey runId) job.contents since t))
      (uploadFromTemp job.localOutput job.contents (stagingKey formats.encoding outputKey runId)) s := by
  have apart : outputKey ≠ stagingKey formats.encoding outputKey runId := stagingKey_ne_output _ _
  have aside := stagingKey_ne_keyFor formats.encoding outputKey begun.named
  refine Ensures.mono (Ensures.invariant (uploadFromTemp_spec job.localOutput job.contents)
    (fun t => Unpublished formats outputKey start t ∧ Begun job start runId t) ⟨unpublished, begun⟩
    (fun holds same => same ▸ holds) fun holds changes => ?_) fun outcome t holds =>
      ⟨holds.2, fun ok => ⟨_, holds.1.2 ok⟩⟩
  have kept := holds.1.elsewhere changes apart aside
  exact ⟨Or.inl kept, kept, holds.2.changes changes⟩

/-- Once the output is replaced, the run names an object with its contents in
its completion record. -/
theorem recordCompletion_spec {staged : RemoteStagedOutput} (named : staged.runId = runId)
    (published : Published formats truthful outputKey job start runId s)
    (missing : s.store.current (keyFor formats.encoding outputKey) = none) :
    Ensures (Handles truthful job) Eq (fun _ t => Midway formats truthful outputKey job start t)
      (fun outcome t => Begun job start runId t ∧ ToldAt formats truthful outputKey job start outcome t)
      (recordCompletion formats outputKey job staged) s := by
  have told : Told formats truthful outputKey job start s .publishedWithoutCompletion :=
    ⟨⟨runId, published⟩, missing⟩
  unfold recordCompletion
  refine Ensures.attemptThen (headObject_spec told.midway) ?_ fun _ _ holds => holds.1 ▸ ⟨published.begun, told⟩
  rintro metadata u ⟨unchanged, honest⟩
  subst u
  refine Ensures.settledThen (fun identity made => ?_) fun _ _ => ⟨published.begun, told⟩
  obtain ⟨rfl, _⟩ := OutputIdentity.new_ok made
  refine Ensures.settledThen (fun manifest recorded => ?_) fun _ _ => ⟨published.begun, told⟩
  obtain ⟨rfl, valid⟩ := CompletionManifest.newV2_ok recorded
  subst named
  obtain ⟨written, present, same, _⟩ := published.output
  have honest := honest metadata written rfl present
  have completed : ∀ t bytes, Changes (keyFor formats.encoding outputKey) s t →
      formats.toVec (job.record outputKey staged.runId metadata) = .ok bytes →
      Holds (keyFor formats.encoding outputKey) bytes s.store.clock t →
      Told formats truthful outputKey job start t .completedCleanupUnknown := fun t bytes changes made held =>
    published.completed present same honest valid made changes held
  refine Ensures.attempt (putManifest_spec valid fun t bytes changes made written => ?_) fun outcome t holds => ?_
  · rcases written with rfl | held
    · exact told.midway
    · exact (completed t bytes changes made held).midway
  · rcases holds with ⟨rfl, error, rfl⟩ | ⟨changes, ⟨bytes, made, held⟩, unknown⟩
    · exact ⟨published.begun, told.completion error⟩
    · have completed := completed t bytes changes made held
      refine ⟨published.begun.changes changes, ?_⟩
      rcases outcome with error | done
      · show Told formats truthful outputKey job start t (completionOutcome error)
        rw [unknown error rfl]
        exact completed.1
      · exact completed

/-- The closure of `publish`. -/
theorem publishStaged_spec (unpublished : Unpublished formats outputKey start s) (begun : Begun job start runId s) :
    Ensures (Handles truthful job) Eq (fun _ t => Midway formats truthful outputKey job start t)
      (fun outcome t => Begun job start runId t ∧ ToldAt formats truthful outputKey job start outcome t)
      (publishStaged formats outputKey job { runId, key := stagingKey formats.encoding outputKey runId }) s := by
  unfold publishStaged
  refine Ensures.attemptThen (upload_spec unpublished begun) (fun _ s holds => ?_) fun _ _ holds =>
    ⟨holds.1.2, holds.1.1⟩
  obtain ⟨⟨unpublished, begun⟩, held⟩ := holds
  obtain ⟨since, staged⟩ := held rfl
  refine Ensures.attemptThen (deleteObject_spec fun t changes removed =>
    Or.inl (unpublished.invalidate changes removed)) ?_ fun source t holds =>
      ⟨begun.changes holds.1, unpublished.invalidate holds.1 holds.2.1⟩
  rintro _ s' ⟨changes, removed, missing⟩
  have unpublished := unpublished.invalidate changes removed
  have begun := begun.changes changes
  have missing := missing rfl
  have staged : Holds (stagingKey formats.encoding outputKey runId) job.contents since s' := by
    obtain ⟨object, present, rest⟩ := staged
    exact ⟨object, (changes.current _ (stagingKey_ne_keyFor _ _ begun.named).symm).trans present, rest⟩
  have midway : ∀ t, Changes outputKey s' t → t = s' ∨ Holds outputKey job.contents s'.store.clock t →
      Midway formats truthful outputKey job start t := by
    rintro t changes (rfl | held)
    · exact Or.inl unpublished
    · exact Or.inr ⟨runId, (unpublished.copied begun missing changes held).1⟩
  refine Ensures.attemptThen (copyStagedObject_spec staged midway) ?_ fun source t holds =>
    ⟨begun.changes holds.1, midway t holds.1 holds.2.1⟩
  rintro _ t ⟨changes, _, held⟩
  obtain ⟨published, missing⟩ := unpublished.copied begun missing changes (held rfl)
  exact recordCompletion_spec rfl published missing

theorem cleanup_spec {outcome : Except StepFailure Unit} (begun : Begun job start runId s)
    (told : ToldAt formats truthful outputKey job start outcome s) :
    Ensures (Handles truthful job) Eq (fun _ t => Midway formats truthful outputKey job start t)
      (ToldBy formats truthful outputKey job start)
      (cleanup formats outputKey { runId, key := stagingKey formats.encoding outputKey runId } outcome) s := by
  have apart : outputKey ≠ stagingKey formats.encoding outputKey runId := stagingKey_ne_output _ _
  have aside := stagingKey_ne_keyFor formats.encoding outputKey begun.named
  rcases outcome with ⟨phase, outcome, source⟩ | done
  · have told : Told formats truthful outputKey job start s outcome := told
    refine Ensures.bind (deleteObject_spec fun t changes _ => (told.elsewhere changes apart aside).midway) ?_
    exact fun deleted t holds => told.elsewhere holds.1 apart aside
  · have told : Told formats truthful outputKey job start s .completedCleanupUnknown := told
    refine Ensures.attempt (deleteObject_spec fun t changes _ => (told.elsewhere changes apart aside).midway) ?_
    rintro (source | done) t ⟨changes, _⟩
    · exact told.elsewhere changes apart aside
    · exact told.elsewhere changes apart aside

/-- A run starts with an id of its own. -/
theorem RemoteStagedOutput.new_spec :
    Ensures (Handles truthful job) Eq (fun _ t => Midway formats truthful outputKey job start t)
      (fun outcome t => Unpublished formats outputKey start t ∧ ∀ staged, outcome = .ok staged → ∃ runId,
        staged = { runId, key := stagingKey formats.encoding outputKey runId } ∧ Begun job start runId t)
      (RemoteStagedOutput.new formats.encoding outputKey) start := by
  unfold RemoteStagedOutput.new
  have named : Ensures (Handles truthful job) Eq (fun _ t => Midway formats truthful outputKey job start t)
      (fun outcome t => Unpublished formats outputKey start t ∧
        ∀ runId, outcome = .ok runId → Begun job start runId t) (perform .tempdir) start := by
    refine Ensures.ask_alone fun response u handled => ?_
    cases response with
    | ok runId =>
      obtain ⟨named, fresh, rfl⟩ := handled
      have unpublished : Unpublished formats outputKey start { start with runs := start.runs ++ [(runId, job)] } :=
        ⟨le_rfl, rfl, Or.inl rfl⟩
      refine ⟨Or.inl unpublished, unpublished, fun same ok => ?_⟩
      cases ok
      exact ⟨named, fresh, rfl⟩
    | error failure =>
      obtain rfl : u = start := handled
      exact ⟨Or.inl .refl, .refl, fun _ ok => by cases ok⟩
  refine Ensures.attemptThen named (fun runId t holds => ?_) fun _ _ holds => ⟨holds.1, fun _ ok => by cases ok⟩
  refine Ensures.returns ⟨holds.1, fun staged ok => ?_⟩
  cases ok
  exact ⟨runId, rfl, holds.2 runId rfl⟩

/-- Every step of a publication leaves the output and its marker in order,
and the result tells what is there. -/
theorem publish_spec (formats : Formats) (outputKey : ObjectPath) (job : Job) (truthful : Object → ObjectMeta → Prop)
    (start : Site) :
    Ensures (Handles truthful job) Eq (fun _ t => Midway formats truthful outputKey job start t)
      (ToldBy formats truthful outputKey job start) (publish formats outputKey job) start := by
  unfold publish
  refine Ensures.attemptThen RemoteStagedOutput.new_spec (fun staged t holds => ?_) fun _ _ holds => holds.1
  obtain ⟨unpublished, named⟩ := holds
  obtain ⟨runId, rfl, begun⟩ := named staged rfl
  exact Ensures.bind (publishStaged_spec unpublished begun) fun outcome u holds => cleanup_spec holds.1 holds.2

/-- An output born in the run stands next to no marker but that of the run. -/
theorem Midway.marked {t : Site} (midway : Midway formats truthful outputKey job start t) {output marker : Object}
    (present : t.store.current outputKey = some output) (since : start.store.clock ≤ output.birth)
    (marked : t.store.current (keyFor formats.encoding outputKey) = some marker) :
    ∃ runId, Begun job start runId t ∧ output.bytes = job.contents ∧ start.store.clock ≤ marker.birth ∧
      Vouched formats truthful outputKey (runId, job) marker.bytes t := by
  rcases midway with unpublished | ⟨runId, published⟩
  · rw [unpublished.output] at present
    have before := start.store.aged outputKey output (start.store.recorded _ _ present)
    omega
  · obtain ⟨object, here, contents, _⟩ := published.output
    rw [present, Option.some.injEq] at here
    subst here
    exact ⟨runId, published.begun, contents, published.marker marker marked⟩

/-- In no state is the output of the run next to a marker from before it, and
the result of `publish` tells the state it leaves. -/
theorem publish_outcome_sound (formats : Formats) (truthful : Object → ObjectMeta → Prop) (outputKey : ObjectPath)
    (job : Job) (start : Site) :
    (∀ now rest, Transition.Reachable (start, publish formats outputKey job) (Answers (Handles truthful job))
        (now, rest) →
      ∀ output marker, now.store.current outputKey = some output → start.store.clock ≤ output.birth →
        now.store.current (keyFor formats.encoding outputKey) = some marker →
        ∃ runId, Begun job start runId now ∧ output.bytes = job.contents ∧ start.store.clock ≤ marker.birth ∧
          Vouched formats truthful outputKey (runId, job) marker.bytes now) ∧
    ∀ now result, Transition.Reachable (start, publish formats outputKey job) (Answers (Handles truthful job))
        (now, Program.pure result) →
      ToldBy formats truthful outputKey job start result now := by
  have spec := publish_spec formats outputKey job truthful start
  refine ⟨fun now rest reach output marker present since marked => ?_, fun now result reach =>
    (spec.reachable reach).1⟩
  have midway : Midway formats truthful outputKey job start now := by
    rcases (spec.reachable reach).2 with rfl | ⟨_, within⟩
    · exact Or.inl .refl
    · exact within
  exact midway.marked present since marked

end Runs

end Datacrate.Remote
