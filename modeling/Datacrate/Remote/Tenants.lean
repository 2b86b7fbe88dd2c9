import Datacrate.Lib.Fleet
import Datacrate.Remote.Agreement
import Datacrate.Remote.Ownership

namespace Datacrate.Remote

open Datacrate.Ingest Datacrate.Bounded Interaction

section Keys

variable (encoding : PartEncoding)

/-- A run id is the name of a directory. -/
def RunName (runId : String) : Prop :=
  (∃ suffix, runId = "datacrate-run-" ++ suffix) ∧ '/' ∉ runId.toList

/-- The keys that runs for an output write, and those that they read. -/
def Owns (outputKey key : ObjectPath) : Prop :=
  key = outputKey ∨ key = keyFor encoding outputKey ∨ ∃ runId, RunName runId ∧ key = stagingKey encoding outputKey runId

/-- The first output stands clear of the second: it is another, it is not the
marker of the second, and neither it nor its marker is a staging object of the
second. -/
structure Clear (first second : ObjectPath) : Prop where
  output : first ≠ second
  marker : first ≠ keyFor encoding second
  staging : ∀ runId, RunName runId →
    first ≠ stagingKey encoding second runId ∧ keyFor encoding first ≠ stagingKey encoding second runId

variable {encoding} {first second outputKey key : ObjectPath} {runId : String}

theorem RunName.ne_empty (named : RunName runId) : runId ≠ "" := by
  obtain ⟨⟨suffix, rfl⟩, _⟩ := named
  intro empty
  have length := congrArg String.length empty
  rw [String.length_append] at length
  have long : "datacrate-run-".length = 14 := rfl
  have none : "".length = 0 := rfl
  omega

/-- Outputs that stand clear of each other share no key. -/
theorem Clear.disjoint (one : Clear encoding first second) (other : Clear encoding second first)
    (mine : Owns encoding first key) : ¬ Owns encoding second key := by
  rcases mine with rfl | rfl | ⟨runId, named, rfl⟩
  · rintro (same | same | ⟨runId, named, same⟩)
    · exact one.output same
    · exact one.marker same
    · exact (one.staging runId named).1 same
  · rintro (same | same | ⟨runId, named, same⟩)
    · exact other.marker same.symm
    · exact one.output (keyFor_injective encoding same)
    · exact (one.staging runId named).2 same
  · rintro (same | same | ⟨runId', named', same⟩)
    · exact (other.staging runId named).1 same.symm
    · exact (other.staging runId named).2 same.symm
    · exact one.output (stagingKey_injective encoding named.2 named'.2 named.ne_empty named'.ne_empty same).1

/-- A marker lies as deep as the text of its output, and a staging object one
part deeper. -/
theorem depth_keys (named : RunName runId) :
    outputKey.parts.length ≤ (keyFor encoding outputKey).parts.length ∧
      (stagingKey encoding outputKey runId).parts.length = (keyFor encoding outputKey).parts.length + 1 := by
  obtain ⟨init, last, parts, split, deeper⟩ := outputKey.ofText_parts encoding
  have joined : outputKey.text ++ ".staging/" ++ runId = outputKey.text ++ ".staging" ++ "/" ++ runId := by
    simp only [String.append_assoc]
    rfl
  have output : outputKey.parts.length ≤ init.length + 1 := by
    have length := congrArg List.length parts
    rw [List.length_map] at length
    have filtered := List.length_filter_le (fun part => decide (part ≠ [])) (init ++ [last])
    rw [List.length_append, List.length_singleton] at filtered
    omega
  have marker : (keyFor encoding outputKey).parts.length = init.length + 1 := by
    unfold keyFor
    rw [split _ (by decide) (by decide)]
    simp
  have staging : (stagingKey encoding outputKey runId).parts.length = init.length + 2 := by
    unfold stagingKey
    rw [joined, deeper _ _ (by decide) named.2 (by decide) named.ne_empty]
    simp
  omega

/-- Distinct outputs of one depth stand clear of each other, unless one is
the marker of the other. -/
theorem Clear.of_depth (output : first ≠ second) (marker : first ≠ keyFor encoding second)
    (depth : (keyFor encoding first).parts.length = (keyFor encoding second).parts.length) :
    Clear encoding first second where
  output := output
  marker := marker
  staging := by
    intro runId named
    have mine := @depth_keys encoding first runId named
    have others := @depth_keys encoding second runId named
    constructor
    · intro same
      have length := congrArg (fun path => path.parts.length) same
      omega
    · intro same
      have length := congrArg (fun path => path.parts.length) same
      omega

end Keys

/-- The keys of a request. -/
def PublishRequest.keys : PublishRequest → List ObjectPath
  | .putMultipart key | .nextPart key | .complete key _ | .abort key | .delete key | .head key | .put key _ => [key]
  | .copy source target => [source, target]
  | .tempdir | .openFile _ | .read _ => []

section Requests

variable {formats : Formats} {outputKey key : ObjectPath} {job : Job} {runId : String}
  {truthful : Object → ObjectMeta → Prop} {s t : Site} {request : PublishRequest} {response : PublishResponse request}

/-- The keys of the request are those of the run. -/
def Within (formats : Formats) (outputKey : ObjectPath) (runId : String) (request : PublishRequest) : Prop :=
  ∀ key ∈ request.keys, key ∈ writtenKeys formats outputKey runId

theorem Uploads.within (uploads : Uploads (stagingKey formats.encoding outputKey runId) request) :
    Within formats outputKey runId request := by
  intro key member
  cases request with
  | openFile | read => cases member
  | putMultipart other | nextPart other | complete other _ | abort other =>
    obtain rfl : other = stagingKey formats.encoding outputKey runId := uploads
    rw [List.mem_singleton.mp member]
    simp [writtenKeys]
  | tempdir | delete | copy | head | put => exact uploads.elim

theorem publish_issues_within : Program.Issues (Within formats outputKey runId)
    (Program.bind
      (publishStaged formats outputKey job { runId, key := stagingKey formats.encoding outputKey runId })
      (cleanup formats outputKey { runId, key := stagingKey formats.encoding outputKey runId })) := by
  refine (publishStaged_issues (fun _ uploads => uploads.within) ?_ ?_ ?_ fun _ _ _ => ?_).bind
    fun outcome => cleanup_issues ?_ outcome
  all_goals
    intro key member
    simp only [PublishRequest.keys, List.mem_cons, List.not_mem_nil, or_false] at member
    rcases member with rfl | rfl <;> simp [writtenKeys]

/-- A request leaves the objects under all other keys as they are. -/
theorem Handles.frame (handled : Handles truthful job s request response t) (outside : key ∉ request.keys) :
    t.store.current key = s.store.current key := by
  cases request with
  | tempdir =>
    cases response with
    | ok runId =>
      obtain ⟨_, _, rfl⟩ := handled
      rfl
    | error failed =>
      obtain rfl : t = s := handled
      rfl
  | openFile | read | putMultipart | nextPart | abort =>
    obtain rfl : t = s := handled
    rfl
  | complete other parts | put other body =>
    have changes := Takes.changes handled fun written runs => (Writes.changes written runs).1
    exact changes.current key (by simpa [PublishRequest.keys] using outside)
  | delete other =>
    have changes := Takes.changes handled.1 fun removed runs => (Store.remove_changes removed runs).1
    exact changes.current key (by simpa [PublishRequest.keys] using outside)
  | copy source target =>
    have aside : key ≠ target := by
      rintro rfl
      exact outside (by simp [PublishRequest.keys])
    obtain ⟨runs, ⟨object, _, written⟩ | ⟨_, rfl⟩⟩ := handled
    · exact (written.changes runs).1.current key aside
    · rfl
  | head other =>
    obtain ⟨rfl, _⟩ := handled
    rfl

end Requests

/-- A run id in a response is the name of a directory. -/
def NamesRun : (request : PublishRequest) → PublishResponse request → Prop
  | .tempdir, .ok runId => RunName runId
  | _, _ => True

/-- The store's responses, and run ids that name directories. -/
def Grants (job : Job) (s : Site) (request : PublishRequest) (response : PublishResponse request) (t : Site) : Prop :=
  Handles Names job s request response t ∧ NamesRun request response

/-- What an object is, but for the time it was written. -/
def Object.face (object : Object) : Bytes × Option String × Option String :=
  (object.bytes, object.eTag, object.version)

/-- Under the keys of an output the store looks as it would if the runs for
that output were alone in it. -/
structure Sees (encoding : PartEncoding) (outputKey : ObjectPath) (s alone : Site) : Prop where
  faces : ∀ key, Owns encoding outputKey key →
    (s.store.current key).map Object.face = (alone.store.current key).map Object.face
  runs : alone.runs ⊆ s.runs

section Views

variable {encoding : PartEncoding} {formats : Formats} {outputKey key : ObjectPath} {job : Job} {runId : String}
  {truthful : Object → ObjectMeta → Prop} {s t alone : Site} {request : PublishRequest}
  {response : PublishResponse request}

theorem Sees.absent (sees : Sees encoding outputKey s alone) (owned : Owns encoding outputKey key) :
    s.store.current key = none ↔ alone.store.current key = none := by
  have faces := sees.faces key owned
  rw [← Option.map_eq_none_iff (f := Object.face), faces, Option.map_eq_none_iff]

theorem Sees.present (sees : Sees encoding outputKey s alone) (owned : Owns encoding outputKey key) {object : Object}
    (held : alone.store.current key = some object) :
    ∃ other, s.store.current key = some other ∧ other.face = object.face := by
  have faces := sees.faces key owned
  rw [held] at faces
  exact Option.map_eq_some_iff.mp faces

theorem Sees.shown (sees : Sees encoding outputKey s alone) (owned : Owns encoding outputKey key) {object : Object}
    (held : s.store.current key = some object) :
    ∃ other, alone.store.current key = some other ∧ other.face = object.face := by
  have faces := sees.faces key owned
  rw [held] at faces
  exact Option.map_eq_some_iff.mp faces.symm

/-- A write shows in the view. -/
theorem Sees.write (sees : Sees encoding outputKey s alone) {bytes : Bytes} (written : Writes key bytes s.store t.store)
    (runs : t.runs = s.runs) :
    ∃ later : Site, Writes key bytes alone.store later.store ∧ later.runs = alone.runs ∧
      Sees encoding outputKey t later := by
  obtain ⟨eTag, version, same⟩ := written
  refine ⟨⟨alone.store.write key bytes eTag version, alone.runs⟩, ⟨eTag, version, rfl⟩, rfl, ?_, runs ▸ sees.runs⟩
  intro other owned
  rw [same]
  by_cases here : other = key
  · simp [Store.write, here, Object.face]
  · simpa [Store.write, here] using sees.faces other owned

theorem Sees.remove (sees : Sees encoding outputKey s alone) (removed : t.store = s.store.remove key)
    (runs : t.runs = s.runs) : Sees encoding outputKey t ⟨alone.store.remove key, alone.runs⟩ := by
  refine ⟨fun other owned => ?_, runs ▸ sees.runs⟩
  rw [removed]
  by_cases here : other = key
  · simp [Store.remove, here]
  · simpa [Store.remove, here] using sees.faces other owned

/-- A request of the run has in its view the effect that it has on the
store. -/
theorem Sees.own (sees : Sees encoding outputKey s alone) (mine : ∀ key ∈ request.keys, Owns encoding outputKey key)
    (granted : Grants job s request response t) :
    ∃ later, Grants job alone request response later ∧ Sees encoding outputKey t later := by
  obtain ⟨handled, named⟩ := granted
  suffices effect : ∃ later, Handles Names job alone request response later ∧ Sees encoding outputKey t later by
    obtain ⟨later, handled, sees⟩ := effect
    exact ⟨later, ⟨handled, named⟩, sees⟩
  cases request with
  | tempdir =>
    cases response with
    | ok runId =>
      obtain ⟨prefixed, fresh, rfl⟩ := handled
      refine ⟨{ alone with runs := alone.runs ++ [(runId, job)] },
        ⟨prefixed, fun run member => fresh run (sees.runs member), rfl⟩, sees.faces, ?_⟩
      exact List.append_subset.mpr ⟨fun run member => List.mem_append_left _ (sees.runs member),
        List.subset_append_right _ _⟩
    | error failed =>
      obtain rfl : t = s := handled
      exact ⟨alone, rfl, sees⟩
  | openFile | read | putMultipart | nextPart | abort =>
    obtain rfl : t = s := handled
    exact ⟨alone, rfl, sees⟩
  | complete key parts | put key body =>
    obtain ⟨runs, written | ⟨failed, rfl⟩⟩ := handled
    · obtain ⟨later, wrote, same, sees⟩ := sees.write written runs
      exact ⟨later, ⟨same, Or.inl wrote⟩, sees⟩
    · exact ⟨alone, ⟨rfl, Or.inr ⟨failed, rfl⟩⟩, sees⟩
  | delete key =>
    have owned := mine key (List.mem_singleton_self key)
    obtain ⟨⟨runs, removed | ⟨failed, rfl⟩⟩, missing⟩ := handled
    · refine ⟨⟨alone.store.remove key, alone.runs⟩, ⟨⟨rfl, Or.inl rfl⟩, fun _ _ => ?_⟩, sees.remove removed runs⟩
      simp [Store.remove]
    · exact ⟨alone, ⟨⟨rfl, Or.inr ⟨failed, rfl⟩⟩, fun source same => (sees.absent owned).mp (missing source same)⟩, sees⟩
  | copy source target =>
    have owned := mine source (by simp [PublishRequest.keys])
    obtain ⟨runs, ⟨object, present, written⟩ | ⟨failed, rfl⟩⟩ := handled
    · obtain ⟨other, held, face⟩ := sees.shown owned present
      have bytes : object.bytes = other.bytes := (congrArg Prod.fst face).symm
      obtain ⟨later, wrote, same, sees⟩ := sees.write written runs
      exact ⟨later, ⟨same, Or.inl ⟨other, held, bytes ▸ wrote⟩⟩, sees⟩
    · exact ⟨alone, ⟨rfl, Or.inr ⟨failed, rfl⟩⟩, sees⟩
  | head key =>
    have owned := mine key (List.mem_singleton_self key)
    obtain ⟨rfl, honest⟩ := handled
    refine ⟨alone, ⟨rfl, fun metadata object ok held => ?_⟩, sees⟩
    obtain ⟨other, present, face⟩ := sees.present owned held
    obtain ⟨eTag, version⟩ := honest metadata other ok present
    have tags := congrArg Prod.snd face
    exact ⟨eTag.trans (congrArg Prod.fst tags), version.trans (congrArg Prod.snd tags)⟩

/-- A request of another run does not show. -/
theorem Sees.aside (sees : Sees encoding outputKey s alone) (others : ∀ key ∈ request.keys, ¬ Owns encoding outputKey key)
    (handled : Handles truthful job s request response t) : Sees encoding outputKey t alone where
  faces := by
    intro key owned
    rw [handled.frame fun member => others key member owned]
    exact sees.faces key owned
  runs := List.Subset.trans sees.runs handled.grows.runs

end Views

/-- The result reports no failure to remove the staging object of the run. -/
def Swept : Except (PipelineError PipelineIoError) Unit → Prop
  | .ok () => True
  | .error (.remotePublication error) => error.phase ≠ .cleanupStaging ∧ error.cleanupError = none
  | .error _ => False

section Runs

variable {formats : Formats} {truthful : Object → ObjectMeta → Prop} {outputKey : ObjectPath} {job : Job}
  {start s : Site} {runId : String}

theorem cleanup_swept {outcome : Except StepFailure Unit} (begun : Begun job start runId s) :
    Ensures (Handles truthful job) Eq (fun _ _ => True)
      (fun result t => Swept result → Begun job start runId t ∧
        t.store.current (stagingKey formats.encoding outputKey runId) = none)
      (cleanup formats outputKey { runId, key := stagingKey formats.encoding outputKey runId } outcome) s := by
  rcases outcome with ⟨phase, known, source⟩ | done
  · refine Ensures.bind (deleteObject_spec fun _ _ _ => trivial) fun deleted t holds clean => ?_
    obtain ⟨changes, _, removed⟩ := holds
    refine ⟨begun.changes changes, removed ?_⟩
    cases deleted with
    | ok done => rfl
    | error source => exact nomatch clean.2
  · refine Ensures.attempt (deleteObject_spec fun _ _ _ => trivial) ?_
    rintro (source | done) t ⟨changes, _, removed⟩ clean
    · exact absurd rfl clean.1
    · exact ⟨begun.changes changes, removed rfl⟩

/-- A publication that reports no failed cleanup leaves no staging object. -/
theorem publish_swept (formats : Formats) (outputKey : ObjectPath) (job : Job) (truthful : Object → ObjectMeta → Prop)
    (start : Site) :
    Ensures (Handles truthful job) Eq (fun _ _ => True)
      (fun result t => Swept result → ∃ runId, Begun job start runId t ∧
        t.store.current (stagingKey formats.encoding outputKey runId) = none)
      (publish formats outputKey job) start := by
  unfold publish
  refine Ensures.attemptThen (RemoteStagedOutput.new_spec.restrict fun handled => ⟨handled, fun _ => trivial⟩)
    (fun staged t holds => ?_) fun _ _ _ clean => clean.elim
  obtain ⟨unpublished, named⟩ := holds
  obtain ⟨runId, rfl, begun⟩ := named staged rfl
  have steps : Ensures (Handles truthful job) Eq (fun _ _ => True) (fun _ t => Begun job start runId t)
      (publishStaged formats outputKey job { runId, key := stagingKey formats.encoding outputKey runId }) t :=
    Ensures.mono ((publishStaged_spec unpublished begun).restrict fun handled => ⟨handled, fun _ => trivial⟩)
      fun _ _ holds => holds.1
  refine Ensures.bind steps fun outcome u begun => ?_
  exact Ensures.mono (cleanup_swept begun) fun result v swept clean => ⟨runId, swept clean⟩

/-- The run ids that were given out name directories. -/
def RunsNamed (start t : Site) : Prop :=
  ∀ run ∈ t.runs, run ∈ start.runs ∨ RunName run.1

theorem Grants.named {t u : Site} {request : PublishRequest} {response : PublishResponse request}
    (granted : Grants job t request response u) (old : RunsNamed start t) : RunsNamed start u := by
  obtain ⟨handled, name⟩ := granted
  cases request with
  | tempdir =>
    cases response with
    | ok given =>
      obtain ⟨_, _, rfl⟩ := handled
      intro run member
      rcases List.mem_append.mp member with before | new
      · exact old run before
      · rw [List.mem_singleton.mp new]
        exact Or.inr name
    | error failed =>
      obtain rfl : u = t := handled
      exact old
  | openFile | read | putMultipart | nextPart | abort =>
    obtain rfl : u = t := handled
    exact old
  | complete | put | copy =>
    have runs : u.runs = t.runs := handled.1
    rwa [RunsNamed, runs]
  | delete =>
    have runs : u.runs = t.runs := handled.1.1
    rwa [RunsNamed, runs]
  | head =>
    obtain ⟨rfl, _⟩ := handled
    exact old

/-- What a run on its own may come to. -/
abbrev Alone (formats : Formats) (outputKey : ObjectPath) (job : Job) (start : Site)
    (config : Site × Program PublishResponse (Except (PipelineError PipelineIoError) Unit)) : Prop :=
  Transition.Reachable (start, publish formats outputKey job) (Answers (Grants job)) config

theorem Alone.handled {config : Site × Program PublishResponse (Except (PipelineError PipelineIoError) Unit)}
    (alone : Alone formats outputKey job start config) :
    Transition.Reachable (start, publish formats outputKey job) (Answers (Handles Names job)) config := by
  refine alone.mono fun move => ?_
  cases move with
  | answer granted => exact .answer granted.1

theorem Alone.named {config : Site × Program PublishResponse (Except (PipelineError PipelineIoError) Unit)}
    (alone : Alone formats outputKey job start config) : RunsNamed start config.1 := by
  refine alone.invariant (fun config => RunsNamed start config.1) (fun _ => Or.inl) ?_
  intro config later _ old move
  cases move with
  | answer granted => exact granted.named old

/-- What the run asks for next is its run id, or is about keys that its output
owns. -/
theorem Alone.within {t : Site} {request : PublishRequest}
    {next : PublishResponse request → Program PublishResponse (Except (PipelineError PipelineIoError) Unit)}
    (alone : Alone formats outputKey job start (t, .call request next)) :
    ∀ key ∈ request.keys, Owns formats.encoding outputKey key := by
  have within : (Program.call request next = publish formats outputKey job) ∨ ∃ runId, RunName runId ∧
      Program.Issues (Within formats outputKey runId) (Program.call request next) := by
    refine alone.invariant (fun config => config.2 = publish formats outputKey job ∨ ∃ runId, RunName runId ∧
      Program.Issues (Within formats outputKey runId) config.2) (Or.inl rfl) ?_
    rintro ⟨u, program⟩ ⟨v, rest⟩ before old move
    cases move with
    | @answer _ _ asked follows response granted =>
      right
      rcases old with first | ⟨runId, named, issues⟩
      · cases first
        cases response with
        | ok runId => exact ⟨runId, granted.2, publish_issues_within⟩
        | error failed => exact ⟨"datacrate-run-", ⟨⟨"", rfl⟩, by decide⟩, trivial⟩
      · exact ⟨runId, named, issues.2 response⟩
  rcases within with first | ⟨runId, named, issues⟩
  · cases first
    exact fun _ member => nomatch member
  · intro key member
    have listed := issues.1 key member
    simp only [writtenKeys, List.mem_cons, List.not_mem_nil, or_false] at listed
    rcases listed with rfl | rfl | rfl
    · exact Or.inr (Or.inr ⟨runId, named, rfl⟩)
    · exact Or.inr (Or.inl rfl)
    · exact Or.inl rfl

end Runs

/-- Runs that share a store, each with an output of its own. -/
structure Tenants (formats : Formats) (ι : Type) where
  outputKey : ι → ObjectPath
  job : ι → Job
  clear : ∀ i j, i ≠ j → Clear formats.encoding (outputKey i) (outputKey j)

section Reports

variable (formats : Formats) (outputKey : ObjectPath) (job : Job) (start : Site)

/-- The output looks as it did, and so does its marker unless it is gone. -/
def Kept (t : Site) : Prop :=
  (t.store.current outputKey).map Object.face = (start.store.current outputKey).map Object.face ∧
    ((t.store.current (keyFor formats.encoding outputKey)).map Object.face =
        (start.store.current (keyFor formats.encoding outputKey)).map Object.face ∨
      t.store.current (keyFor formats.encoding outputKey) = none)

/-- The run has a run id. The output holds what it has published, and any
marker next to it is its own completion record. -/
def Placed (alone t : Site) : Prop :=
  ∃ runId, Begun job start runId alone ∧ (runId, job) ∈ t.runs ∧
    (∃ object, t.store.current outputKey = some object ∧ object.bytes = job.contents) ∧
    ∀ marker, t.store.current (keyFor formats.encoding outputKey) = some marker → ∃ metadata,
      formats.toVec (job.record outputKey runId metadata) = .ok marker.bytes

/-- What each outcome says of a store that others use as well. -/
def Reports (alone t : Site) : RemotePublicationOutcome → Prop
  | .notPublished => Kept formats outputKey start t
  | .publicationUnknown => Kept formats outputKey start t ∨ Placed formats outputKey job start alone t
  | .publishedWithoutCompletion => Placed formats outputKey job start alone t ∧
      t.store.current (keyFor formats.encoding outputKey) = none
  | .completionUnknown => Placed formats outputKey job start alone t
  | .completedCleanupUnknown => Placed formats outputKey job start alone t ∧
      ∃ marker, t.store.current (keyFor formats.encoding outputKey) = some marker

/-- What the result of a publication says of a store that others use as well. -/
def ReportsBy (alone t : Site) : Except (PipelineError PipelineIoError) Unit → Prop
  | .ok () => Reports formats outputKey job start alone t .completedCleanupUnknown
  | .error (.remotePublication error) => Reports formats outputKey job start alone t error.outcome
  | .error _ => Reports formats outputKey job start alone t .notPublished

/-- The staging key of the run holds nothing. -/
def Cleared (alone t : Site) : Prop :=
  ∃ runId, Begun job start runId alone ∧ t.store.current (stagingKey formats.encoding outputKey runId) = none

variable {formats outputKey job start} {t alone : Site}

theorem Unpublished.kept (unpublished : Unpublished formats outputKey start alone)
    (sees : Sees formats.encoding outputKey t alone) : Kept formats outputKey start t := by
  have output := sees.faces outputKey (Or.inl rfl)
  have marker := sees.faces (keyFor formats.encoding outputKey) (Or.inr (Or.inl rfl))
  rw [unpublished.output] at output
  refine ⟨output, unpublished.marker.imp (fun same => ?_) fun gone => ?_⟩
  · rwa [same] at marker
  · exact (sees.absent (Or.inr (Or.inl rfl))).mpr gone

theorem Published.placed {runId : String} (published : Published formats Names outputKey job start runId alone)
    (sees : Sees formats.encoding outputKey t alone) : Placed formats outputKey job start alone t := by
  have listed : (runId, job) ∈ alone.runs := by
    rw [published.begun.runs]
    exact List.mem_append_right _ (List.mem_singleton_self _)
  refine ⟨runId, published.begun, sees.runs listed, ?_, fun marker held => ?_⟩
  · obtain ⟨object, held, bytes, _⟩ := published.output
    obtain ⟨other, present, face⟩ := sees.present (Or.inl rfl) held
    exact ⟨other, present, (congrArg Prod.fst face).trans bytes⟩
  · obtain ⟨other, present, face⟩ := sees.shown (Or.inr (Or.inl rfl)) held
    obtain ⟨_, _, _, metadata, _, _, _, _, made⟩ := published.marker other present
    have bytes : other.bytes = marker.bytes := congrArg Prod.fst face
    exact ⟨metadata, bytes ▸ made⟩

theorem Midway.reports (midway : Midway formats Names outputKey job start alone)
    (sees : Sees formats.encoding outputKey t alone) :
    Kept formats outputKey start t ∨ Placed formats outputKey job start alone t := by
  rcases midway with unpublished | ⟨runId, published⟩
  · exact Or.inl (unpublished.kept sees)
  · exact Or.inr (published.placed sees)

theorem Told.reports {outcome : RemotePublicationOutcome} (told : Told formats Names outputKey job start alone outcome)
    (sees : Sees formats.encoding outputKey t alone) : Reports formats outputKey job start alone t outcome := by
  have marker : Owns formats.encoding outputKey (keyFor formats.encoding outputKey) := Or.inr (Or.inl rfl)
  cases outcome with
  | notPublished => exact Unpublished.kept told sees
  | publicationUnknown => exact Midway.reports told sees
  | publishedWithoutCompletion =>
    obtain ⟨⟨runId, published⟩, gone⟩ := told
    exact ⟨published.placed sees, (sees.absent marker).mpr gone⟩
  | completionUnknown =>
    obtain ⟨runId, published⟩ := told
    exact published.placed sees
  | completedCleanupUnknown =>
    obtain ⟨⟨runId, published⟩, object, held⟩ := told
    obtain ⟨other, present, _⟩ := sees.present marker held
    exact ⟨published.placed sees, other, present⟩

theorem ToldBy.reports {result : Except (PipelineError PipelineIoError) Unit}
    (told : ToldBy formats Names outputKey job start result alone) (sees : Sees formats.encoding outputKey t alone) :
    ReportsBy formats outputKey job start alone t result := by
  rcases result with error | done
  · cases error with
    | remotePublication error => exact Told.reports told sees
    | _ => exact Unpublished.kept told sees
  · have told : Told formats Names outputKey job start alone .completedCleanupUnknown := told
    exact told.reports sees

end Reports

section Isolation

variable {formats : Formats} {ι : Type} [DecidableEq ι] (tenants : Tenants formats ι) {start now : Site}
  {rest : ι → Program PublishResponse (Except (PipelineError PipelineIoError) Unit)}

/-- The runs before their first request. -/
abbrev Tenants.programs (i : ι) : Program PublishResponse (Except (PipelineError PipelineIoError) Unit) :=
  publish formats (tenants.outputKey i) (tenants.job i)

/-- One of the runs has a request answered. -/
abbrev Tenants.Step (s t : Site × (ι → Program PublishResponse (Except (PipelineError PipelineIoError) Unit))) : Prop :=
  Fleet (fun i => Grants (tenants.job i)) s t

theorem Tenants.alone (reach : Transition.Reachable (start, tenants.programs) tenants.Step (now, rest)) (i : ι) :
    ∃ alone, Alone formats (tenants.outputKey i) (tenants.job i) start (alone, rest i) ∧
      Sees formats.encoding (tenants.outputKey i) now alone := by
  have begins : ∀ i, Sees formats.encoding (tenants.outputKey i) start start :=
    fun i => ⟨fun _ _ => rfl, List.Subset.refl _⟩
  refine Fleet.project (fun _ => start) (fun i => Grants (tenants.job i))
    (fun i => Sees formats.encoding (tenants.outputKey i)) begins ?_ ?_ reach i
  · intro i u v a request next response reached sees granted
    exact sees.own (Alone.within reached) granted
  · intro i j differ u v a b request next response reached sees granted
    refine sees.aside (fun key member mine => ?_) granted.1
    exact (tenants.clear i j differ).disjoint (tenants.clear j i differ.symm) mine (Alone.within reached key member)

/-- Publications to outputs that stand clear of each other are isolated,
however the store interleaves and fails their requests: each does to its keys
what it could have done alone, in every state its output is as it was or the
run's own, its result reports the store, and its staging object is gone
unless it says otherwise. -/
theorem tenants_isolated (reach : Transition.Reachable (start, tenants.programs) tenants.Step (now, rest)) (i : ι) :
    ∃ alone, Alone formats (tenants.outputKey i) (tenants.job i) start (alone, rest i) ∧
      Sees formats.encoding (tenants.outputKey i) now alone ∧
      (Kept formats (tenants.outputKey i) start now ∨
        Placed formats (tenants.outputKey i) (tenants.job i) start alone now) ∧
      ∀ result, rest i = .pure result →
        ReportsBy formats (tenants.outputKey i) (tenants.job i) start alone now result ∧
        (Swept result → Cleared formats (tenants.outputKey i) (tenants.job i) start alone now) := by
  obtain ⟨alone, reached, sees⟩ := tenants.alone reach i
  have told := publish_spec formats (tenants.outputKey i) (tenants.job i) Names start
  have swept := publish_swept formats (tenants.outputKey i) (tenants.job i) Names start
  obtain ⟨ends, last⟩ := told.reachable reached.handled
  obtain ⟨clean, _⟩ := swept.reachable reached.handled
  have midway : Midway formats Names (tenants.outputKey i) (tenants.job i) start alone := by
    rcases last with rfl | ⟨_, within⟩
    · exact Or.inl .refl
    · exact within
  refine ⟨alone, reached, sees, midway.reports sees, fun result done => ?_⟩
  rw [done] at ends clean
  refine ⟨ToldBy.reports ends sees, fun unfailed => ?_⟩
  obtain ⟨runId, begun, gone⟩ := clean unfailed
  have listed : (runId, tenants.job i) ∈ alone.runs := by
    rw [begun.runs]
    exact List.mem_append_right _ (List.mem_singleton_self _)
  have named : RunName runId := by
    rcases reached.named _ listed with before | named
    · exact absurd rfl (begun.fresh _ before)
    · exact named
  exact ⟨runId, begun, (sees.absent (Or.inr (Or.inr ⟨runId, named, rfl⟩))).mpr gone⟩

end Isolation

def besideKey (first : Bool) : ObjectPath where
  parts := [if first then "a.parquet" else "b.parquet"]
  clean := by cases first <;> decide

theorem besideKey_clear (first second : Bool) (differ : first ≠ second) :
    Clear percentEncoding (besideKey first) (besideKey second) := by
  have output : ∀ first second, first ≠ second → besideKey first ≠ besideKey second := by decide
  have marker : ∀ first second, besideKey first ≠ keyFor percentEncoding (besideKey second) := by decide +kernel
  have depth : ∀ first, (keyFor percentEncoding (besideKey first)).parts.length = 1 := by decide +kernel
  exact .of_depth (output first second differ) (marker first second) ((depth first).trans (depth second).symm)

/-- Two runs with outputs side by side. -/
def sideBySide : Tenants (.plain percentEncoding) Bool where
  outputKey := besideKey
  job := fun first => { fourBytes with contents := if first then [1] else [2] }
  clear := besideKey_clear

theorem faultless_grants {job : Job} (request : PublishRequest) (s : Site) :
    Grants job s request (faultless job request s).1 (faultless job request s).2 := by
  refine ⟨faultless_handles (fun _ _ => ⟨rfl, rfl⟩) request s, ?_⟩
  cases request with
  | tempdir => exact ⟨freshRunId_named s.runs, freshRunId_plain s.runs⟩
  | _ => trivial

/-- Both are published, one after the other. -/
theorem sideBySide_isolated : ∃ now alone,
    Transition.Reachable (vacant, sideBySide.programs) sideBySide.Step (now, fun _ => .pure (.ok ())) ∧
      Reports (.plain percentEncoding) (besideKey true) (sideBySide.job true) vacant alone now .completedCleanupUnknown ∧
      Cleared (.plain percentEncoding) (besideKey true) (sideBySide.job true) vacant alone now := by
  have writable : ∀ first, Writable (.plain percentEncoding) (besideKey first) (sideBySide.job first) :=
    fun _ => Job.writable (Nat.two_pow_pos 64)
  have named : ∀ first, blank (besideKey first).text = false := by decide
  obtain ⟨bytes, _, first⟩ := @publish_faultless _ _ _ vacant (named true) (writable true)
  obtain ⟨others, _, second⟩ := @publish_faultless _ _ _
    (vacant.published percentEncoding (besideKey true) (sideBySide.job true) bytes) (named false) (writable false)
  have one := @Fleet.outcome_reachable Bool Site PublishRequest _ PublishResponse _
    (fun i => Grants (sideBySide.job i)) sideBySide.programs _ true faultless_grants vacant
  rw [show Program.outcome _ (sideBySide.programs true) vacant = _ from first] at one
  have other := @Fleet.outcome_reachable Bool Site PublishRequest _ PublishResponse _
    (fun i => Grants (sideBySide.job i)) (Function.update sideBySide.programs true (.pure (.ok ()))) _ false
    faultless_grants (vacant.published percentEncoding (besideKey true) (sideBySide.job true) bytes)
  rw [Function.update_of_ne (by decide), show Program.outcome _ (sideBySide.programs false) _ = _ from second] at other
  have ended : Function.update (Function.update sideBySide.programs true (.pure (.ok ()))) false (.pure (.ok ())) =
      fun _ => .pure (.ok ()) := by
    funext first
    cases first
    · exact Function.update_self _ _ _
    · exact (Function.update_of_ne (by decide) _ _).trans (Function.update_self _ _ _)
  rw [ended] at other
  have reach := one.trans other
  obtain ⟨alone, _, _, _, told⟩ := tenants_isolated sideBySide reach true
  obtain ⟨reports, cleared⟩ := told _ rfl
  exact ⟨_, alone, reach, reports, cleared trivial⟩

end Datacrate.Remote
