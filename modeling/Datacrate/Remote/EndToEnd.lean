import Datacrate.Bounded.Reporting
import Datacrate.Remote.Agreement
import Datacrate.Remote.Outcome
import Datacrate.Remote.Pipeline
import Datacrate.Remote.Promise

namespace Datacrate.Remote

open Datacrate.Ingest Interaction Chunks
open Datacrate.Bounded hiding Unpublished

/-- The local side of a run: the setting of its pipeline but for the two
files, what a CSV reader makes of a file's contents, the transformation, and
what the Parquet writer puts to a file. -/
structure Worker where
  base : Setting
  csv : Option Bytes → Except String (List (Except String StringRecord))
  transform : Option Callback
  encodes : List RecordBatch × Bool → Bytes → Prop

def Worker.setting (worker : Worker) (input output : String) (contents : Option Bytes) : Setting :=
  { worker.base with file := ⟨input, worker.csv contents⟩, output }

/-- The local pipeline answers with the end of one of its runs, and with what
that left in the output file. -/
def Worker.Responds (worker : Worker) (input output : String) (contents : Option Bytes)
    (response : Except (PipelineError PipelineIoError) (PipelineReport × Bytes)) : Prop :=
  ∃ s, Transition.Reachable .initial (PipelineMoves (worker.setting input output contents) worker.transform) s ∧
    match response with
    | .ok (report, bytes) => s.main = .done (.ok report) ∧ ∃ file, s.published = some file ∧ worker.encodes file bytes
    | .error error => s.main = .done (.error error)

/-- Everything a run has to do with: the input side, that others write to, and
the keys of the output, that nobody else writes. -/
structure Deployment where
  reading : Reading
  store : Store
  runIds : List String

/-- The output side, as a publication of this job sees it. -/
def Deployment.site (job : Job) (s : Deployment) : Site where
  store := s.store
  runs := s.runIds.map (·, job)

/-- What may follow from a request. The job of a run id is a name of ours, not
one that the store knows. -/
def Deploys (worker : Worker) (truthful : Object → ObjectMeta → Prop) (s : Deployment) :
    (request : S3Request) → S3Response request → Deployment → Prop
  | .isCancelled, _, t | .tempdir, _, t => t = s
  | .download request, response, t =>
    Serves Promised s.reading request response t.reading ∧ t.store = s.store ∧ t.runIds = s.runIds
  | .runBoundedPipeline input output, response, t =>
    t = s ∧ worker.Responds input output (s.reading.files input) response
  | .publication request, response, t =>
    t.reading = s.reading ∧ ∀ job, Handles truthful job (s.site job) request response (t.site job)

/-- What others do: they replace input objects. -/
structure Beside (s t : Deployment) : Prop where
  reading : Replaces s.reading t.reading
  store : t.store = s.store
  runIds : t.runIds = s.runIds

theorem Beside.refl (s : Deployment) : Beside s s :=
  ⟨.refl _, rfl, rfl⟩

theorem Beside.trans {s t u : Deployment} (first : Beside s t) (second : Beside t u) : Beside s u where
  reading := first.reading.trans second.reading
  store := second.store.trans first.store
  runIds := second.runIds.trans first.runIds

theorem Beside.site {s t : Deployment} (beside : Beside s t) (job : Job) : t.site job = s.site job := by
  rw [Deployment.site, Deployment.site, beside.store, beside.runIds]

/-- The output side is as it was. -/
structure Idle (start t : Deployment) : Prop where
  store : t.store = start.store
  runIds : t.runIds = start.runIds

theorem Idle.beside {start s t : Deployment} (idle : Idle start s) (beside : Beside s t) : Idle start t :=
  ⟨beside.store.trans idle.store, beside.runIds.trans idle.runIds⟩

theorem Idle.site {start t : Deployment} (idle : Idle start t) (job : Job) : t.site job = start.site job := by
  rw [Deployment.site, Deployment.site, idle.store, idle.runIds]

/-- What a run publishes: the batches that the local pipeline made of one
input object, in the bytes of the file, under the report it certified. -/
structure Carries (worker : Worker) (inputKey : ObjectPath) (job : Job) (report : PipelineReport)
    (batches : List RecordBatch) (rows : List Row) (object : Object) : Prop where
  key : job.inputKey = inputKey
  described : Describes job.inputMeta object
  parsed : ∃ path, parseRows ⟨path, worker.csv (some object.bytes)⟩ = .ok rows
  transformed : List.Forall₂ (Transforms worker.transform)
    ((chunksOf worker.base.config.batchSize rows).map rowBatch) batches
  certified : Certifies worker.base.hashRow batches report
  encoded : worker.encodes (batches, true) job.contents
  rowCount : job.rows = report.rowsWritten
  digest : job.digest = report.contentDigest

/-- The contents of the job are those of an input object. -/
def Sourced (worker : Worker) (inputKey : ObjectPath) (job : Job) (report : PipelineReport) (t : Deployment) : Prop :=
  ∃ batches rows object, Carries worker inputKey job report batches rows object ∧ object ∈ t.reading.held inputKey

theorem Sourced.held {worker : Worker} {inputKey : ObjectPath} {job : Job} {report : PipelineReport}
    {s t : Deployment} (sourced : Sourced worker inputKey job report s)
    (held : s.reading.held inputKey ⊆ t.reading.held inputKey) : Sourced worker inputKey job report t := by
  obtain ⟨batches, rows, object, carries, member⟩ := sourced
  exact ⟨batches, rows, object, carries, held member⟩

section Specs

variable {worker : Worker} {truthful : Object → ObjectMeta → Prop} {formats : Formats}
  {inputKey outputKey : ObjectPath} {start s : Deployment}

/-- What the end of a run says of the state. -/
def RunTold (worker : Worker) (truthful : Object → ObjectMeta → Prop) (formats : Formats)
    (inputKey outputKey : ObjectPath) (start : Deployment) :
    Except (PipelineError PipelineIoError) PipelineReport → Deployment → Prop
  | .ok report, t => ∃ job, Sourced worker inputKey job report t ∧
      Told formats truthful outputKey job (start.site job) (t.site job) .completedCleanupUnknown
  | .error (.remotePublication error), t => ∃ job report, Sourced worker inputKey job report t ∧
      Told formats truthful outputKey job (start.site job) (t.site job) error.outcome
  | .error _, t => ∀ job, Unpublished formats outputKey (start.site job) (t.site job)

theorem Idle.runTold (idle : Idle start s) {error : PipelineError PipelineIoError} (here : IsLocal error) :
    RunTold worker truthful formats inputKey outputKey start (.error error) s := by
  have same : ∀ job, Unpublished formats outputKey (start.site job) (s.site job) := by
    intro job
    rw [idle.site job]
    exact .refl
  cases error with
  | remotePublication => exact here.elim
  | _ => exact same

theorem checkCancelled_beside :
    Ensures (Deploys worker truthful) Beside (fun _ _ => True)
      (fun outcome t => Beside s t ∧ ∀ error, outcome = .error error → IsLocal error) checkCancelled s := by
  have asked : Ensures (Deploys worker truthful) Beside (fun _ _ => True) (fun _ t => Beside s t)
      (demand .isCancelled) s := by
    refine Ensures.ask fun t beside response u handled => ?_
    obtain rfl : u = t := handled
    exact ⟨trivial, beside⟩
  refine Ensures.bind asked fun cancelled t beside => ⟨beside, fun error failed => ?_⟩
  cases cancelled with
  | false => cases failed
  | true =>
    cases failed
    trivial

/-- A download inside the run leaves the output side alone. -/
theorem download_idle {localInput : String} (idle : Idle start s) :
    Ensures (Deploys worker truthful) Beside (fun _ _ => True)
      (fun outcome t => Idle start t ∧ ∀ captured, outcome = .ok captured → ∃ object,
        object ∈ t.reading.held inputKey ∧ Describes captured object ∧ t.reading.files localInput = some object.bytes)
      (downloading (downloadToTemp inputKey localInput)) s := by
  have lifted : Ensures (Deploys worker truthful) Beside
      (fun s t => True ∧ t.store = s.store ∧ t.runIds = s.runIds)
      (fun outcome t => ∀ captured, outcome = .ok captured → ∃ whole answered,
        t.reading.answers = s.reading.answers ++ answered ∧ Described inputKey captured whole t.reading ∧
          Fetched inputKey localInput captured whole answered t.reading)
      (downloading (downloadToTemp inputKey localInput)) s :=
    Ensures.lift Deployment.reading (downloadToTemp_spec (promised_learns inputKey)) (fun handled => handled)
      fun beside => beside.reading
  refine Ensures.mono (Ensures.invariant lifted (Idle start) idle (fun idle beside => idle.beside beside)
    fun idle kept => ⟨trivial, kept.2.1.trans idle.store, kept.2.2.trans idle.runIds⟩) fun outcome t holds =>
      ⟨holds.2, fun captured ok => ?_⟩
  obtain ⟨whole, _, _, described, fetched⟩ := holds.1 captured ok
  exact fetched.described described

/-- The local pipeline has certified the contents that it answers with. -/
theorem Worker.Responds.carries {input output : String} {object : Object} {captured : ObjectMeta}
    {report : PipelineReport} {contents : Bytes} (described : Describes captured object)
    (responds : worker.Responds input output (some object.bytes) (.ok (report, contents))) :
    ∃ batches rows, Carries worker inputKey
      { localOutput := output, contents, inputKey, inputMeta := captured, rows := report.rowsWritten,
        digest := report.contentDigest } report batches rows object := by
  obtain ⟨now, reach, done, file, published, encoded⟩ := responds
  obtain ⟨_, same, ⟨closed, rows, parsed, transformed⟩, certified⟩ := pipeline_done_certified reach done
  obtain ⟨batches, whole⟩ := file
  cases published.symm.trans same
  cases closed
  exact ⟨batches, rows, rfl, described, ⟨input, parsed⟩, transformed, certified, encoded, rfl, rfl⟩

/-- A publication inside the run tells what it leaves, and leaves the input
side to the others. -/
theorem publishing_told {job : Job} {report : PipelineReport} (idle : Idle start s)
    (sourced : Sourced worker inputKey job report s) :
    Ensures (Deploys worker truthful) Beside (fun _ _ => True)
      (fun outcome t => RunTold worker truthful formats inputKey outputKey start (outcome.map fun _ => report) t)
      (publishing (publish formats outputKey job)) s := by
  have lifted : Ensures (Deploys worker truthful) Beside
      (fun s t => Midway formats truthful outputKey job (start.site job) (t.site job) ∧ t.reading = s.reading)
      (fun outcome t => ToldBy formats truthful outputKey job (start.site job) outcome (t.site job))
      (publishing (publish formats outputKey job)) s := by
    have spec : Ensures (Handles truthful job) Eq
        (fun _ t => Midway formats truthful outputKey job (start.site job) t)
        (ToldBy formats truthful outputKey job (start.site job)) (publish formats outputKey job) (s.site job) := by
      rw [idle.site job]
      exact publish_spec formats outputKey job truthful (start.site job)
    exact Ensures.lift (Deployment.site job) spec (fun handled => ⟨handled.2 job, handled.1⟩)
      fun beside => (beside.site job).symm
  refine Ensures.mono (Ensures.invariant lifted (Sourced worker inputKey job report) sourced
    (fun sourced beside => sourced.held (beside.reading.held inputKey))
    fun sourced kept => ⟨trivial, sourced.held (kept.2 ▸ List.Subset.refl _)⟩) ?_
  rintro (error | done) t ⟨told, sourced⟩
  · cases error with
    | remotePublication error => exact ⟨job, report, sourced, told⟩
    | _ => exact fun _ => ⟨told.clock, told.output, told.marker⟩
  · exact ⟨job, sourced, told⟩

/-- The whole run, from the first check to the last request. -/
theorem runBoundedPipelineS3_told :
    Ensures (Deploys worker truthful) Beside (fun _ _ => True)
      (RunTold worker truthful formats inputKey outputKey start) (runBoundedPipelineS3 formats inputKey outputKey)
      start := by
  have untouched : Idle start start := ⟨rfl, rfl⟩
  unfold runBoundedPipelineS3
  refine Ensures.andThen checkCancelled_beside (fun _ t holds => ?_) fun error t holds =>
    (untouched.beside holds.1).runTold (holds.2 error rfl)
  have idle := untouched.beside holds.1
  have named : Ensures (Deploys worker truthful) Beside (fun _ _ => True) (fun _ u => Idle start u)
      (demand .tempdir) t := by
    refine Ensures.ask fun u beside response v handled => ?_
    obtain rfl : v = u := handled
    exact ⟨trivial, idle.beside beside⟩
  refine Ensures.attemptThen named (fun stagingDir u idle => ?_) fun _ _ idle => idle.runTold trivial
  refine Ensures.attemptThen (download_idle idle) (fun captured v holds => ?_) fun _ _ holds => holds.1.runTold trivial
  obtain ⟨idle, fetched⟩ := holds
  obtain ⟨object, held, described, file⟩ := fetched captured rfl
  have processed : Ensures (Deploys worker truthful) Beside (fun _ _ => True)
      (fun outcome w => Idle start w ∧ object ∈ w.reading.held inputKey ∧
        worker.Responds (stagingDir ++ "/input.csv") (stagingDir ++ "/output.parquet") (some object.bytes) outcome)
      (demand (.runBoundedPipeline (stagingDir ++ "/input.csv") (stagingDir ++ "/output.parquet"))) v := by
    refine Ensures.ask fun w beside response x handled => ?_
    obtain ⟨rfl, responds⟩ := handled
    rw [beside.reading.files, file] at responds
    exact ⟨trivial, idle.beside beside, beside.reading.held inputKey held, responds⟩
  refine Ensures.attemptThen processed (fun outcome w holds => ?_) fun error w holds => ?_
  · obtain ⟨idle, held, responds⟩ := holds
    obtain ⟨report, contents⟩ := outcome
    refine Ensures.andThen checkCancelled_beside (fun _ x checked => ?_) fun error x checked =>
      (idle.beside checked.1).runTold (checked.2 error rfl)
    obtain ⟨batches, rows, carries⟩ := responds.carries described
    refine Ensures.attemptThen (publishing_told (idle.beside checked.1)
      ⟨batches, rows, object, carries, checked.1.reading.held inputKey held⟩) (fun _ _ told => told) fun _ _ told => told
  · obtain ⟨idle, _, last, reach, failed⟩ := holds
    exact idle.runTold ((reachable_localised reach).main error (Or.inr failed))

theorem RunTold.beside {result : Except (PipelineError PipelineIoError) PipelineReport} {t : Deployment}
    (told : RunTold worker truthful formats inputKey outputKey start result s) (beside : Beside s t) :
    RunTold worker truthful formats inputKey outputKey start result t := by
  have held := beside.reading.held inputKey
  cases result with
  | ok report =>
    obtain ⟨job, sourced, told⟩ := told
    exact ⟨job, sourced.held held, beside.site job ▸ told⟩
  | error error =>
    cases error with
    | remotePublication error =>
      obtain ⟨job, report, sourced, told⟩ := told
      exact ⟨job, report, sourced.held held, beside.site job ▸ told⟩
    | _ => exact fun job => beside.site job ▸ told job

end Specs

section

variable (worker : Worker) (truthful : Object → ObjectMeta → Prop) (formats : Formats) (inputKey outputKey : ObjectPath)

/-- The completion record of a run with this report. -/
def recordOf (inputMeta : ObjectMeta) (report : PipelineReport) (runId : String) (metadata : ObjectMeta) :
    CompletionManifest :=
  .ofOutput inputKey inputMeta report.rowsWritten report.contentDigest { runId, key := outputKey, metadata }

/-- The output holds the transformed rows of one input object, and its record
names that object, the output and what the report certifies of them. -/
structure Delivered (report : PipelineReport) (t : Deployment) (object output marker written : Object)
    (rows : List Row) (batches : List RecordBatch) (inputMeta metadata : ObjectMeta) (runId : String) : Prop where
  held : object ∈ t.reading.held inputKey
  described : Describes inputMeta object
  parsed : ∃ path, parseRows ⟨path, worker.csv (some object.bytes)⟩ = .ok rows
  transformed : List.Forall₂ (Transforms worker.transform)
    ((chunksOf worker.base.config.batchSize rows).map rowBatch) batches
  certified : Certifies worker.base.hashRow batches report
  present : t.store.current outputKey = some output
  encoded : worker.encodes (batches, true) output.bytes
  marked : t.store.current (keyFor formats.encoding outputKey) = some marker
  recorded : formats.toVec (recordOf inputKey outputKey inputMeta report runId metadata) = .ok marker.bytes
  valid : (recordOf inputKey outputKey inputMeta report runId metadata).validate = .ok ()
  named : written ∈ t.store.history outputKey ∧ written.bytes = output.bytes ∧ truthful written metadata

/-- Among others that replace its input at any time, a run that ends well has
delivered one input object whole under a true record, and one that fails says
what it has left. -/
theorem remote_run_delivers (start now : Deployment) :
    (∀ report, Transition.Reachable (start, runBoundedPipelineS3 formats inputKey outputKey)
        (Interleaved (Deploys worker truthful) Beside) (now, Program.pure (.ok report)) →
      ∃ object output marker written rows batches inputMeta metadata runId,
        Delivered worker truthful formats inputKey outputKey report now object output marker written rows batches
          inputMeta metadata runId) ∧
    ∀ error, Transition.Reachable (start, runBoundedPipelineS3 formats inputKey outputKey)
        (Interleaved (Deploys worker truthful) Beside) (now, Program.pure (.error error)) →
      (∀ remote, error = .remotePublication remote → ∃ job report, Sourced worker inputKey job report now ∧
        Told formats truthful outputKey job (start.site job) (now.site job) remote.outcome) ∧
      (IsLocal error → now.store.current outputKey = start.store.current outputKey ∧
        (now.store.current (keyFor formats.encoding outputKey) =
            start.store.current (keyFor formats.encoding outputKey) ∨
          now.store.current (keyFor formats.encoding outputKey) = none)) := by
  have told : ∀ result, Transition.Reachable (start, runBoundedPipelineS3 formats inputKey outputKey)
      (Interleaved (Deploys worker truthful) Beside) (now, Program.pure result) →
      RunTold worker truthful formats inputKey outputKey start result now := fun result reach =>
    (runBoundedPipelineS3_told.interleaved Beside.refl Beside.trans RunTold.beside reach).1
  constructor
  · intro report reach
    obtain ⟨job, ⟨batches, rows, object, carries, held⟩, ⟨runId, published⟩, marker, marked⟩ := told _ reach
    obtain ⟨output, present, same, _⟩ := published.output
    obtain ⟨_, _, written, metadata, history, bytes, honest, valid, made⟩ := published.marker marker marked
    have record : job.record outputKey runId metadata =
        recordOf inputKey outputKey job.inputMeta report runId metadata := by
      rw [Job.record, recordOf, carries.key, carries.rowCount, carries.digest]
    refine ⟨object, output, marker, written, rows, batches, job.inputMeta, metadata, runId, ?_⟩
    exact { held, described := carries.described, parsed := carries.parsed, transformed := carries.transformed,
            certified := carries.certified, present, encoded := same ▸ carries.encoded, marked,
            recorded := record ▸ made, valid := record ▸ valid, named := ⟨history, bytes.trans same.symm, honest⟩ }
  · intro error reach
    have told := told _ reach
    refine ⟨?_, fun here => ?_⟩
    · rintro remote rfl
      exact told
    · have kept : ∀ job, Unpublished formats outputKey (start.site job) (now.site job) := by
        cases error with
        | remotePublication => exact here.elim
        | _ => exact told
      let job : Job := ⟨"", [], inputKey, ⟨inputKey, "", 0, none, none⟩, 0, 0⟩
      exact ⟨(kept job).output, (kept job).marker⟩

end

section Smooth

variable {worker : Worker} {truthful : Object → ObjectMeta → Prop}

/-- The run ids are given to this job instead. -/
def Site.renamed (s : Site) (job : Job) : Site where
  store := s.store
  runs := s.runs.map fun run => (run.1, job)

/-- The store does not look at the job. -/
theorem Handles.renamed {s t : Site} {job other : Job} {request : PublishRequest} {response : PublishResponse request}
    (handled : Handles truthful job s request response t) :
    Handles truthful other (s.renamed other) request response (t.renamed other) := by
  have takes : ∀ {effect : Store → Store → Prop} {response}, Takes effect s response t →
      Takes effect (s.renamed other) response (t.renamed other) := by
    rintro effect response ⟨runs, done | ⟨failed, rfl⟩⟩
    · exact ⟨congrArg (List.map _) runs, Or.inl done⟩
    · exact ⟨rfl, Or.inr ⟨failed, rfl⟩⟩
  cases request with
  | tempdir =>
    cases response with
    | ok runId =>
      obtain ⟨named, fresh, rfl⟩ := handled
      refine ⟨named, fun run member => ?_, ?_⟩
      · obtain ⟨old, inside, rfl⟩ := List.mem_map.mp member
        exact fresh old inside
      · simp only [Site.renamed, List.map_append, List.map_singleton]
    | error failed =>
      obtain rfl : t = s := handled
      rfl
  | openFile | read | putMultipart | nextPart | abort =>
    obtain rfl : t = s := handled
    rfl
  | complete | put => exact takes handled
  | copy source target =>
    obtain ⟨runs, ⟨object, present, written⟩ | ⟨failed, rfl⟩⟩ := handled
    · exact ⟨congrArg (List.map _) runs, Or.inl ⟨object, present, written⟩⟩
    · exact ⟨rfl, Or.inr ⟨failed, rfl⟩⟩
  | delete => exact ⟨takes handled.1, handled.2⟩
  | head key =>
    obtain ⟨rfl, honest⟩ := handled
    exact ⟨rfl, honest⟩

/-- The output side of a deployment is this site. -/
def Deployment.publishing (s : Deployment) (site : Site) : Deployment :=
  { s with store := site.store, runIds := site.runs.map Prod.fst }

theorem Deployment.publishing_site (s : Deployment) (site : Site) (job : Job) :
    (s.publishing site).site job = site.renamed job := by
  simp only [Deployment.site, Deployment.publishing, Site.renamed, List.map_map]
  rfl

theorem Deployment.publishing_self (s : Deployment) (job : Job) : s.publishing (s.site job) = s := by
  simp only [Deployment.publishing, Deployment.site, List.map_map]
  have same : Prod.fst ∘ (fun runId : String => (runId, job)) = id := rfl
  rw [same, List.map_id]

/-- Without faults a publication inside a run succeeds. -/
theorem publishing_ends {formats : Formats} {outputKey : ObjectPath} {job : Job} (s : Deployment)
    (honest : ∀ object key, truthful object (object.metadata key)) (named : blank outputKey.text = false)
    (writable : Writable formats outputKey job) :
    ∃ t, Program.Ends (Deploys worker truthful) Beside s (publishing (publish formats outputKey job)) t (.ok ()) := by
  obtain ⟨bytes, _, published⟩ := @publish_faultless formats outputKey job (s.site job) named writable
  have answered : ∀ request site, True → True ∧ ∃ response : PublishResponse request,
      response = (faultless job request site).1 ∧
        Deploys worker truthful (s.publishing site) (.publication request) response
          (s.publishing (faultless job request site).2) := by
    refine fun request site _ => ⟨trivial, _, rfl, rfl, fun other => ?_⟩
    rw [s.publishing_site, s.publishing_site]
    exact (faultless_handles honest request site).renamed
  have ends : Program.Ends (Deploys worker truthful) Beside (s.publishing (s.site job))
      (publishing (publish formats outputKey job))
      (s.publishing (Program.outcome (faultless job) (publish formats outputKey job) (s.site job)).1)
      (Program.outcome (faultless job) (publish formats outputKey job) (s.site job)).2 :=
    (Program.Ends.lift s.publishing (fun _ => True) answered _ _ trivial).2
  rw [published, s.publishing_self job] at ends
  exact ⟨_, ends⟩

/-- The input side of a deployment is this. -/
def Deployment.downloading (s : Deployment) (reading : Reading) : Deployment :=
  { s with reading }

/-- Without faults a download inside a run gets the object and its
metadata. -/
theorem downloading_ends {inputKey : ObjectPath} {dest eTag : String} {site : Site} {object : Object} (s : Deployment)
    (identified : ∀ key, Identified (site.store.history key)) (held : s.reading.held = site.store.history)
    (present : site.store.current inputKey = some object) (fits : object.bytes.length < Usize.range)
    (unversioned : object.version = none) (tagged : object.eTag = some eTag) (solid : eTag ≠ "") :
    ∃ t, t.reading.held = s.reading.held ∧
      Program.Ends (Deploys worker truthful) Beside s (downloading (downloadToTemp inputKey dest)) t
        (.ok (object.metadata inputKey)) := by
  obtain ⟨t, downloaded⟩ := @downloadToTemp_delivers site.store inputKey dest object s.reading eTag present fits
    unversioned tagged solid
  have answered : ∀ request (reading : Reading), reading.held = site.store.history →
      (deliver site.store request reading).2.held = site.store.history ∧ ∃ response : DownloadResponse request,
        response = (deliver site.store request reading).1 ∧
          Deploys worker truthful (s.downloading reading) (.download request) response
            (s.downloading (deliver site.store request reading).2) := by
    rintro request ⟨_, files, answers⟩ rfl
    have serves := (Scene.delivered_reads ⟨site, identified, files, answers⟩ request).serves
    rw [Scene.delivered_reading] at serves
    exact ⟨deliver_held request, _, rfl, serves, rfl, rfl⟩
  have ends : (Program.outcome (deliver site.store) (downloadToTemp inputKey dest) s.reading).1.held =
        site.store.history ∧
      Program.Ends (Deploys worker truthful) Beside (s.downloading s.reading)
        (downloading (downloadToTemp inputKey dest))
        (s.downloading (Program.outcome (deliver site.store) (downloadToTemp inputKey dest) s.reading).1)
        (Program.outcome (deliver site.store) (downloadToTemp inputKey dest) s.reading).2 :=
    Program.Ends.lift s.downloading (fun reading => reading.held = site.store.history) answered _ _ held
  rw [downloaded] at ends
  exact ⟨_, ends.1.trans held.symm, ends.2⟩

end Smooth

/-- A file with one row. -/
def adaText : Bytes :=
  "id,name,note\n1,ada,\n".toUTF8.data.toList

def inputPath : ObjectPath where
  parts := ["ada.csv"]
  clean := by decide

/-- A local side that knows this file, and puts four bytes to its output. -/
def oneRowWorker : Worker where
  base := oneRow
  csv := fun contents => if contents = some adaText then oneRow.file.opened else .error "not a table"
  transform := some keepBatch
  encodes := fun _ bytes => bytes = [80, 65, 82, 49]

/-- The file is in the input side, and the output side is empty. -/
def oneRowDeployment : Deployment where
  reading := { held := (vacant.put inputPath adaText).store.history, files := fun _ => none, answers := [] }
  store := vacant.store
  runIds := []

/-- The row is downloaded, run through the local pipeline and published. -/
theorem oneRow_delivered : ∃ now report object output marker written rows batches inputMeta metadata runId,
    Program.Ends (Deploys oneRowWorker Names) Beside oneRowDeployment
        (runBoundedPipelineS3 (.plain percentEncoding) inputPath outputPath) now (.ok report) ∧
      Delivered oneRowWorker Names (.plain percentEncoding) inputPath outputPath report now object output marker written
        rows batches inputMeta metadata runId := by
  have checked : ∀ s, Program.Ends (Deploys oneRowWorker Names) Beside s checkCancelled s (.ok ()) := by
    intro s
    have asked : Program.Ends (Deploys oneRowWorker Names) Beside s (demand .isCancelled) s false := .ask rfl
    exact asked.bind .start
  have named : Program.Ends (Deploys oneRowWorker Names) Beside oneRowDeployment (demand .tempdir) oneRowDeployment
      (.ok "/tmp/datacrate-1") := .ask rfl
  obtain ⟨object, present, contents, tagged, unversioned⟩ := @Site.put_present vacant inputPath adaText
  have solid : contentTag adaText ≠ "" := ne_empty_of_not_blank (contentTag_solid adaText)
  have small : adaText.length < Usize.range := by decide +kernel
  obtain ⟨s, held, downloaded⟩ := @downloading_ends oneRowWorker Names inputPath "/tmp/datacrate-1/input.csv" _ _ object
    oneRowDeployment vacant_tagged.put.identified rfl present (contents ▸ small) unversioned tagged solid
  have file : s.reading.files "/tmp/datacrate-1/input.csv" = some adaText := by
    obtain ⟨⟨_, fetched⟩, _⟩ := (@download_idle oneRowWorker Names inputPath oneRowDeployment oneRowDeployment
      "/tmp/datacrate-1/input.csv" ⟨rfl, rfl⟩).interleaved Beside.refl Beside.trans (fun holds beside =>
        ⟨holds.1.beside beside, fun captured ok => (holds.2 captured ok).imp fun object known =>
          ⟨beside.reading.held _ known.1, known.2.1, beside.reading.files ▸ known.2.2⟩⟩) downloaded
    obtain ⟨read, member, _, file⟩ := fetched _ rfl
    rw [held] at member
    simp only [oneRowDeployment, Site.put, Store.write, vacant, if_pos, List.mem_singleton] at member
    rwa [member] at file
  obtain ⟨last, report, reach, done, one⟩ :=
    @oneRow_succeeds "/tmp/datacrate-1/input.csv" "/tmp/datacrate-1/output.parquet"
  have responds : oneRowWorker.Responds "/tmp/datacrate-1/input.csv" "/tmp/datacrate-1/output.parquet" (some adaText)
      (.ok (report, [80, 65, 82, 49])) := by
    obtain ⟨file, published, _⟩ := pipeline_done_certified reach done
    have setting : oneRowWorker.setting "/tmp/datacrate-1/input.csv" "/tmp/datacrate-1/output.parquet" (some adaText) =
        oneRowAt "/tmp/datacrate-1/input.csv" "/tmp/datacrate-1/output.parquet" := by
      simp only [Worker.setting, oneRowWorker, oneRowAt, if_pos]
    refine ⟨last, ?_, done, file, published, rfl⟩
    rw [setting]
    exact reach
  have processed : Program.Ends (Deploys oneRowWorker Names) Beside s
      (demand (.runBoundedPipeline "/tmp/datacrate-1/input.csv" "/tmp/datacrate-1/output.parquet")) s
      (.ok (report, [80, 65, 82, 49])) := .ask ⟨rfl, file ▸ responds⟩
  obtain ⟨t, published⟩ := @publishing_ends oneRowWorker Names (.plain percentEncoding) outputPath
    { localOutput := "/tmp/datacrate-1/output.parquet", contents := [80, 65, 82, 49], inputKey := inputPath,
      inputMeta := object.metadata inputPath, rows := report.rowsWritten, digest := report.contentDigest } s
    (fun _ _ => ⟨rfl, rfl⟩) (by decide) (Job.writable (one ▸ Nat.one_lt_two_pow (by decide)))
  have whole : Program.Ends (Deploys oneRowWorker Names) Beside oneRowDeployment
      (runBoundedPipelineS3 (.plain percentEncoding) inputPath outputPath) t (.ok report) := by
    refine (checked _).andThen (named.attempt.andThen (downloaded.attempt.andThen (processed.attempt.andThen ?_)))
    exact (checked _).andThen (published.attempt.andThen .start)
  obtain ⟨object, output, marker, written, rows, batches, inputMeta, metadata, runId, delivered⟩ :=
    (remote_run_delivers oneRowWorker Names (.plain percentEncoding) inputPath outputPath oneRowDeployment t).1 report
      whole
  exact ⟨t, report, object, output, marker, written, rows, batches, inputMeta, metadata, runId, whole, delivered⟩

end Datacrate.Remote
