import Datacrate.Remote.Faultless
import Datacrate.Remote.Outcome
import Datacrate.Remote.Promise

namespace Datacrate.Remote

open Datacrate.Ingest Datacrate.Bounded Interaction

/-- Of the objects a key has held, a version, or an ETag of one without a
version, identifies the content. -/
structure Identified (objects : List Object) : Prop where
  version : ∀ first ∈ objects, ∀ second ∈ objects, ∀ version, version ≠ "" → first.version = some version →
    second.version = some version → first.bytes = second.bytes
  eTag : ∀ first ∈ objects, ∀ second ∈ objects, ∀ eTag, eTag ≠ "" → first.version.all blank →
    first.eTag = some eTag → second.eTag = some eTag → first.bytes = second.bytes

/-- The store with the reader's side of it. -/
structure Scene where
  site : Site
  identified : ∀ key, Identified (site.store.history key)
  files : String → Option Bytes
  answers : List (ByteRange × GetResult)

def Scene.reading (s : Scene) : Reading where
  held := s.site.store.history
  files := s.files
  answers := s.answers

/-- The metadata names the object. -/
def Names (object : Object) (metadata : ObjectMeta) : Prop :=
  metadata.eTag = object.eTag ∧ metadata.version = object.version

/-- A step of the reader. -/
def Reads (s : Scene) (request : DownloadRequest) (response : DownloadResponse request) (t : Scene) : Prop :=
  t.site = s.site ∧ s.reading.Follows request response t.reading ∧ Honest s.site request response

section

variable (formats : Formats) (outputKey : ObjectPath)

/-- Any marker is the completion record of a run. -/
def Marked (t : Site) : Prop :=
  ∀ marker, t.store.current (keyFor formats.encoding outputKey) = some marker →
    ∃ run, Vouched formats Names outputKey run marker.bytes t

/-- What the writer does between the reader's steps. -/
structure Publishes (s t : Scene) : Prop where
  grows : Grows s.site t.site
  marked : Marked formats outputKey s.site → Marked formats outputKey t.site
  files : t.files = s.files
  answers : t.answers = s.answers

/-- The result of a read is the output and the record of one run. -/
def Agreed (dest : String) : Except PipelineIoError CompletionManifest → Scene → Prop
  | .ok manifest, t => ∃ runId job, (runId, job) ∈ t.site.runs ∧ manifest.runId = some runId ∧
      t.files dest = some job.contents ∧ manifest.rowCount = job.rows ∧ manifest.contentDigest = digestText job.digest
  | .error _, _ => True

end

section Reader

variable {formats : Formats} {outputKey : ObjectPath} {dest : String} {s t : Scene}

theorem Publishes.refl (s : Scene) : Publishes formats outputKey s s :=
  ⟨.refl _, id, rfl, rfl⟩

theorem Publishes.trans {u : Scene} (first : Publishes formats outputKey s t) (second : Publishes formats outputKey t u) :
    Publishes formats outputKey s u where
  grows := first.grows.trans second.grows
  marked := second.marked ∘ first.marked
  files := second.files.trans first.files
  answers := second.answers.trans first.answers

theorem Publishes.replaces (publishes : Publishes formats outputKey s t) : Replaces s.reading t.reading :=
  ⟨publishes.grows.history, publishes.files, publishes.answers⟩

/-- Objects identified by the same metadata have the same content. -/
theorem Identified.same {objects : List Object} (identified : Identified objects) {first second : Object}
    (member : first ∈ objects) (member' : second ∈ objects) {metadata : ObjectMeta}
    (identifies : Identifies metadata first) (names : Names second metadata) : first.bytes = second.bytes := by
  obtain ⟨eTagged, versioned⟩ := names
  rcases identifies with ⟨version, nonempty, announced, same⟩ | ⟨eTag, nonempty, unversioned, announced, same⟩
  · exact identified.version first member second member' version nonempty same (versioned ▸ announced)
  · exact identified.eTag first member second member' eTag nonempty unversioned same (eTagged ▸ announced)

/-- An honest store keeps what a download is promised. -/
theorem Reads.serves {request : DownloadRequest} {response : DownloadResponse request}
    (reads : Reads s request response t) : Serves Promised s.reading request response t.reading := by
  obtain ⟨_, follows, honest⟩ := reads
  refine ⟨follows, ?_⟩
  cases request with
  | create dest | writeAll dest chunk | get key =>
    cases response <;> trivial
  | head key =>
    cases response with
    | ok metadata => exact honest
    | error source => trivial
  | getOpts key options =>
    cases response with
    | ok response =>
      obtain ⟨object, member, described, body⟩ := honest
      refine ⟨fun _ => ⟨object, member, described⟩, fun bytes arrives _ other held identifies => ?_⟩
      rw [body bytes arrives]
      have names : Names object response.metadata := ⟨described.eTag, described.version⟩
      rw [(s.identified key).same held member identifies names]
    | error source => trivial

theorem mapM_id_ok {body : List (Except StoreError Chunk)} {chunks : List Chunk} (ok : body.mapM id = .ok chunks) :
    body = chunks.map .ok := by
  induction body generalizing chunks with
  | nil =>
    cases ok
    rfl
  | cons piece body ih =>
    rw [List.mapM_cons] at ok
    rcases piece with source | chunk
    · cases ok
    rcases arrived : body.mapM id with source | rest
    · rw [arrived] at ok
      cases ok
    · rw [arrived] at ok
      cases ok
      rw [ih arrived]
      rfl

theorem GetResult.bytes_ok {response : GetResult} {bytes : Bytes} (ok : response.bytes = .ok bytes) :
    response.Arrives bytes := by
  unfold GetResult.bytes at ok
  rcases arrived : response.body.mapM id with source | chunks
  · rw [arrived] at ok
    cases ok
  · rw [arrived] at ok
    cases ok
    exact ⟨chunks, mapM_id_ok arrived, rfl⟩

/-- A record that passes its check identifies the object it was made for. -/
theorem Job.record_identifies {job : Job} {runId : String} {metadata metadata' : ObjectMeta} {written : Object}
    (valid : (job.record outputKey runId metadata).validate = .ok ()) (names : Names written metadata)
    (same : identityMatches (job.record outputKey runId metadata).outputVersion
      (job.record outputKey runId metadata).outputETag metadata' = true) :
    Identifies metadata' written := by
  obtain ⟨eTagged, versioned⟩ := names
  obtain ⟨_, _, either⟩ := CompletionManifest.validate_identity valid rfl
  have version : (job.record outputKey runId metadata).outputVersion = metadata.version.filter (!blank ·) := rfl
  have eTag : (job.record outputKey runId metadata).outputETag = metadata.eTag.filter (!blank ·) := rfl
  rw [version, eTag] at same
  rw [version, eTag] at either
  unfold identityMatches at same
  rcases usable : metadata.version.filter (!blank ·) with _ | value
  · obtain ⟨value, tagged⟩ := either usable
    obtain ⟨here, solid⟩ := usable_eq_some_iff.mp tagged
    rw [usable, tagged, decide_eq_true_iff] at same
    have unversioned := usable_eq_none_iff.mp usable
    exact Or.inr ⟨value, ne_empty_of_not_blank solid, versioned ▸ unversioned, same, eTagged ▸ here⟩
  · obtain ⟨here, solid⟩ := usable_eq_some_iff.mp usable
    rw [usable, decide_eq_true_iff] at same
    exact Or.inl ⟨value, ne_empty_of_not_blank solid, same, versioned ▸ here⟩

theorem Agreed.stable {outcome : Except PipelineIoError CompletionManifest} (agreed : Agreed dest outcome s)
    (publishes : Publishes formats outputKey s t) : Agreed dest outcome t := by
  cases outcome with
  | ok manifest =>
    obtain ⟨runId, job, member, named, file, rest⟩ := agreed
    exact ⟨runId, job, publishes.grows.runs member, named, publishes.files ▸ file, rest⟩
  | error failed => trivial

/-- The marker that a reader gets is that of a run. -/
theorem getMarker_spec (marked : Marked formats outputKey s.site) :
    Ensures Reads (Publishes formats outputKey) (fun _ _ => True)
      (fun outcome t => ∀ response bytes, outcome = .ok response → response.Arrives bytes →
        ∃ run, Vouched formats Names outputKey run bytes t.site)
      (fetch (.get (keyFor formats.encoding outputKey))) s := by
  refine Ensures.ask fun t publishes response u reads => ⟨trivial, ?_⟩
  obtain ⟨site, _, honest⟩ := reads
  rintro response bytes rfl arrives
  obtain ⟨object, present, same⟩ := honest
  obtain ⟨run, vouched⟩ := publishes.marked marked object present
  exact ⟨run, by rwa [site, same bytes arrives]⟩

theorem Vouched.grow {run : String × Job} {bytes : Bytes} {site site' : Site}
    (vouched : Vouched formats Names outputKey run bytes site) (grows : Grows site site') :
    Vouched formats Names outputKey run bytes site' :=
  vouched.grows grows.runs (grows.history outputKey)

/-- The object that the reader captures is in the store, and so is that of
the record. -/
theorem captureOutput_spec {run : String × Job} {written : Object} {options : GetOptions}
    (member : run ∈ s.site.runs) (recorded : written ∈ s.site.store.history outputKey) :
    Ensures Reads (Publishes formats outputKey) (fun _ _ => True)
      (fun outcome t => run ∈ t.site.runs ∧ ∀ response, outcome = .ok response →
        ∃ object ∈ t.site.store.history outputKey, Describes response.metadata object ∧
          (Identifies response.metadata written → written.bytes = object.bytes))
      (fetch (.getOpts outputKey options)) s := by
  refine Ensures.ask fun t publishes response u reads => ⟨trivial, ?_⟩
  obtain ⟨site, _, honest⟩ := reads
  rw [site]
  refine ⟨publishes.grows.runs member, ?_⟩
  rintro response rfl
  obtain ⟨object, held, described, _⟩ := honest
  refine ⟨object, held, described, fun identifies => ?_⟩
  have names : Names object response.metadata := ⟨described.eTag, described.version⟩
  exact (t.identified outputKey).same (publishes.grows.history outputKey recorded) held identifies names

theorem createOutput_spec {run : String × Job} {object : Object} (member : run ∈ s.site.runs)
    (held : object ∈ s.site.store.history outputKey) :
    Ensures Reads (Publishes formats outputKey) (fun _ _ => True)
      (fun outcome t => outcome = .ok () → run ∈ t.site.runs ∧ object ∈ t.site.store.history outputKey ∧
        t.files dest = some [])
      (fetch (.create dest)) s := by
  refine Ensures.ask fun t publishes response u reads => ⟨trivial, ?_⟩
  obtain ⟨site, follows, _⟩ := reads
  rintro rfl
  rw [site]
  have files : u.reading.files dest = some [] := by
    rw [show u.reading = t.reading.write dest (some []) from follows]
    exact if_pos rfl
  exact ⟨publishes.grows.runs member, publishes.grows.history outputKey held, files⟩

/-- The output is downloaded while the writer goes on. -/
theorem downloadOutput_spec {run : String × Job} {object : Object} {captured : ObjectMeta}
    (member : run ∈ s.site.runs) (held : object ∈ s.site.store.history outputKey)
    (described : Describes captured object) (present : s.files dest = some []) :
    Ensures Reads (Publishes formats outputKey) (fun _ _ => True)
      (fun outcome t => run ∈ t.site.runs ∧ ∀ result, outcome = .ok result → t.files dest = some object.bytes)
      (downloadCaptured outputKey dest captured) s := by
  have viewed : Ensures Reads (Publishes formats outputKey) (fun _ _ => True)
      (fun outcome t => ∀ result, outcome = .ok result → result = captured ∧ ∃ answered,
        t.reading.answers = s.reading.answers ++ answered ∧ Described outputKey captured object.bytes t.reading ∧
          Fetched outputKey dest captured object.bytes answered t.reading)
      (downloadCaptured outputKey dest captured) s :=
    Ensures.view Scene.reading
      (downloadCaptured_spec (promised_learns outputKey) ⟨object, held, described, rfl⟩ present)
      (fun reads => reads.serves)
      fun publishes => publishes.replaces
  have framed : Ensures Reads (Publishes formats outputKey) (fun s t => t.site = s.site) _
      (downloadCaptured outputKey dest captured) s := viewed.restrict fun reads => ⟨reads, fun _ => reads.1⟩
  refine Ensures.mono (Ensures.invariant framed (fun t => run ∈ t.site.runs) member
    (fun member publishes => publishes.grows.runs member) fun member site => ⟨trivial, ?_⟩) fun outcome t holds => ?_
  · rw [site]
    exact member
  · obtain ⟨fetched, member⟩ := holds
    refine ⟨member, fun result ok => ?_⟩
    obtain ⟨_, _, _, _, fetched⟩ := fetched result ok
    have file : t.files dest = some (object.bytes.take captured.size.toNat) := fetched.file
    rw [file, described.size, List.take_length]

/-- A reader that succeeds agrees with the run of the record it found. -/
theorem downloadCompletedOutput_spec (marked : Marked formats outputKey s.site) :
    Ensures Reads (Publishes formats outputKey) (fun _ _ => True) (Agreed dest)
      (downloadCompletedOutput formats outputKey dest) s := by
  unfold downloadCompletedOutput
  refine Ensures.attemptThen (getMarker_spec marked) (fun response t found => ?_) fun _ _ _ => trivial
  refine Ensures.settledThen (fun bytes arrived => ?_) fun _ _ => trivial
  refine Ensures.checked (fun manifest decoded => ?_) fun _ _ => trivial
  obtain ⟨run, vouched⟩ := found response bytes rfl (GetResult.bytes_ok arrived)
  obtain ⟨member, written, metadata, recorded, contents, names, valid, made⟩ := vouched
  obtain rfl : manifest = run.2.record outputKey run.1 metadata := by
    have read := formats.roundTrip _ _ made
    rw [(decodeCompletionManifest_ok decoded).1] at read
    exact Except.ok.inj read
  split
  · exact trivial
  split
  · exact trivial
  refine Ensures.attemptThen (captureOutput_spec member recorded) (fun captured u holds => ?_) fun _ _ _ => trivial
  obtain ⟨member, found⟩ := holds
  obtain ⟨object, held, described, same⟩ := found captured rfl
  split
  · exact trivial
  rename_i identified
  have same := same (Job.record_identifies valid names (not_not.mp identified))
  refine Ensures.attemptThen (createOutput_spec member held) (fun _ v holds => ?_) fun _ _ _ => trivial
  obtain ⟨member, held, present⟩ := holds rfl
  refine Ensures.andThen (downloadOutput_spec member held described present) (fun _ w holds => ?_) fun _ _ _ => trivial
  obtain ⟨member, file⟩ := holds
  have file := file _ rfl
  rw [← same, contents] at file
  exact Ensures.returns ⟨run.1, run.2, member, rfl, file, rfl, rfl⟩

end Reader

/-- The store with its writer, which runs one publication at a time, and the
reader. -/
structure World where
  scene : Scene
  writer : Option (Job × Publishing (Except (PipelineError PipelineIoError) Unit))
  reader : Downloading (Except PipelineIoError CompletionManifest)

/-- The writer begins a run, takes a step of it or gives it up, or the reader
takes a step. -/
inductive WorldStep (formats : Formats) (outputKey : ObjectPath) (s t : World) : Prop
  | begin (job : Job) : s.writer = none → t = { s with writer := some (job, publish formats outputKey job) } →
      WorldStep formats outputKey s t
  | write {job : Job} {program next} : s.writer = some (job, program) →
      Answers (Handles Names job) (s.scene.site, program) (t.scene.site, next) → t.writer = some (job, next) →
      t.scene.files = s.scene.files → t.scene.answers = s.scene.answers → t.reader = s.reader →
      WorldStep formats outputKey s t
  | stop : t = { s with writer := none } → WorldStep formats outputKey s t
  | read : Answers Reads (s.scene, s.reader) (t.scene, t.reader) → t.writer = s.writer →
      WorldStep formats outputKey s t

/-- A store without a marker, before the first run. -/
structure Opening (formats : Formats) (outputKey : ObjectPath) where
  scene : Scene
  unmarked : scene.site.store.current (keyFor formats.encoding outputKey) = none
  fresh : scene.site.runs = []

def Opening.world {formats : Formats} {outputKey : ObjectPath} (opening : Opening formats outputKey)
    (dest : String) : World where
  scene := opening.scene
  writer := none
  reader := downloadCompletedOutput formats outputKey dest

/-- The writer's run has promised to leave any marker in order, and the reader
to agree with the record it finds. -/
structure Sound (formats : Formats) (outputKey : ObjectPath) (dest : String) (w : World) : Prop where
  distinct : (w.scene.site.runs.map Prod.fst).Nodup
  marked : Marked formats outputKey w.scene.site
  writer : ∀ job program, w.writer = some (job, program) → ∃ start, Marked formats outputKey start ∧
    Grows start w.scene.site ∧
    Ensures (Handles Names job) Eq (fun _ t => Midway formats Names outputKey job start t)
      (ToldBy formats Names outputKey job start) program w.scene.site
  reader : Ensures Reads (Publishes formats outputKey) (fun _ _ => True) (Agreed dest) w.reader w.scene

section Steps

variable {formats : Formats} {outputKey : ObjectPath} {dest : String} {s t : World}

/-- In the middle of a run, any marker is that of an earlier run or its own. -/
theorem Midway.vouched {job : Job} {start site : Site} (midway : Midway formats Names outputKey job start site)
    (grows : Grows start site) (marked : Marked formats outputKey start) : Marked formats outputKey site := by
  intro marker present
  rcases midway with unpublished | ⟨runId, published⟩
  · rcases unpublished.marker with same | none
    · rw [same] at present
      obtain ⟨run, vouched⟩ := marked marker present
      exact ⟨run, vouched.grow grows⟩
    · rw [none] at present
      cases present
  · exact ⟨_, (published.marker marker present).2⟩

theorem Sound.opening (opening : Opening formats outputKey) : Sound formats outputKey dest (opening.world dest) := by
  have marked : Marked formats outputKey opening.scene.site := by
    intro marker present
    rw [opening.unmarked] at present
    cases present
  refine ⟨?_, marked, fun _ _ none => (by cases none), downloadCompletedOutput_spec marked⟩
  show (opening.scene.site.runs.map Prod.fst).Nodup
  rw [opening.fresh]
  exact List.nodup_nil

theorem Sound.step (sound : Sound formats outputKey dest s) (step : WorldStep formats outputKey s t) :
    Sound formats outputKey dest t := by
  cases step with
  | begin job idle same =>
    subst same
    refine ⟨sound.distinct, sound.marked, fun job' program started => ?_, sound.reader⟩
    cases started
    exact ⟨s.scene.site, sound.marked, .refl _, publish_spec formats outputKey job Names s.scene.site⟩
  | write running answer next files answers reader =>
    obtain ⟨start, marked, grows, promise⟩ := sound.writer _ _ running
    obtain ⟨request, response, handled⟩ := answer.handled
    have more := Handles.grows handled
    obtain ⟨midway, rest⟩ := promise.answer rfl answer
    have since := grows.trans more
    have marked' := midway.vouched since marked
    refine ⟨more.distinct sound.distinct, marked', fun job' program' running' => ?_, ?_⟩
    · rw [next, Option.some.injEq, Prod.mk.injEq] at running'
      obtain ⟨rfl, rfl⟩ := running'
      exact ⟨start, marked, since, rest⟩
    · rw [reader]
      exact sound.reader.interfere (fun first second => first.trans second) (fun agreed later => agreed.stable later)
        ⟨more, fun _ => marked', files, answers⟩
  | stop same =>
    subst same
    exact ⟨sound.distinct, sound.marked, fun _ _ none => (by cases none), sound.reader⟩
  | read answer writer =>
    obtain ⟨request, response, site, _⟩ := answer.handled
    refine ⟨site ▸ sound.distinct, site ▸ sound.marked, fun job program running => ?_,
      (sound.reader.answer (.refl _) answer).2⟩
    rw [site]
    exact sound.writer job program (writer ▸ running)

theorem Sound.reachable {opening : Opening formats outputKey} {now : World}
    (reach : Transition.Reachable (opening.world dest) (WorldStep formats outputKey) now) :
    Sound formats outputKey dest now :=
  reach.invariant _ (.opening opening) fun _ sound step => sound.step step

/-- Whatever the writer does and wherever its runs stop, run ids are distinct,
and a reader that succeeds has the output of the run that the record names. -/
theorem completed_reader_agreement (formats : Formats) (outputKey : ObjectPath) (opening : Opening formats outputKey)
    (dest : String) :
    (∀ now, Transition.Reachable (opening.world dest) (WorldStep formats outputKey) now →
      (now.scene.site.runs.map Prod.fst).Nodup) ∧
    ∀ now manifest, Transition.Reachable (opening.world dest) (WorldStep formats outputKey) now →
      now.reader = Program.pure (.ok manifest) →
      ∃ runId job, (runId, job) ∈ now.scene.site.runs ∧ manifest.runId = some runId ∧
        now.scene.files dest = some job.contents ∧ manifest.rowCount = job.rows ∧
        manifest.contentDigest = digestText job.digest := by
  refine ⟨fun now reach => (Sound.reachable reach).distinct, fun now manifest reach finished => ?_⟩
  have agreed := (Sound.reachable reach).reader
  rw [finished] at agreed
  exact agreed

/-- ETags of contents identify them. -/
theorem Site.Tagged.identified {site : Site} (tagged : site.Tagged) (key : ObjectPath) :
    Identified (site.store.history key) where
  version := by
    intro first member _ _ version _ named _
    rw [(tagged key first member).2] at named
    cases named
  eTag := by
    intro first member second member' eTag _ _ named named'
    rw [(tagged key first member).1, Option.some.injEq] at named
    rw [(tagged key second member').1, Option.some.injEq] at named'
    exact contentTag_injective (named.trans named'.symm)

/-- A writer's run against a store without faults is a run of the whole. -/
theorem WorldStep.publishes {reader : Downloading (Except PipelineIoError CompletionManifest)}
    {files : String → Option Bytes} (job : Job)
    (program : Publishing (Except (PipelineError PipelineIoError) Unit)) (site : Site) (tagged : site.Tagged) :
    ∃ tagged' : (program.outcome (faultless job) site).1.Tagged, Transition.Reachable
      ⟨⟨site, tagged.identified, files, []⟩, some (job, program), reader⟩ (WorldStep formats outputKey)
      ⟨⟨(program.outcome (faultless job) site).1, tagged'.identified, files, []⟩,
        some (job, .pure (program.outcome (faultless job) site).2), reader⟩ := by
  induction program generalizing site with
  | pure result => exact ⟨tagged, .start⟩
  | call request next ih =>
    obtain ⟨tagged', rest⟩ := ih (faultless job request site).1 (faultless job request site).2
      (faultless_tagged tagged request)
    have answered := @faultless_handles Names job (fun _ _ => ⟨rfl, rfl⟩) request site
    refine ⟨tagged', .trans (.next .start ?_) rest⟩
    exact .write rfl (.answer answered) rfl rfl rfl rfl

/-- The scene once a request was answered as by a store that nobody writes
to. -/
def Scene.delivered (scene : Scene) (request : DownloadRequest) : Scene :=
  { scene with
    files := (deliver scene.site.store request scene.reading).2.files
    answers := (deliver scene.site.store request scene.reading).2.answers }

theorem Scene.delivered_reading (scene : Scene) (request : DownloadRequest) :
    (scene.delivered request).reading = (deliver scene.site.store request scene.reading).2 := by
  have held : (deliver scene.site.store request scene.reading).2.held = scene.site.store.history := deliver_held request
  rw [Scene.reading, Scene.delivered]
  dsimp only
  rw [← held]

theorem Scene.delivered_reads (scene : Scene) (request : DownloadRequest) :
    Reads scene request (deliver scene.site.store request scene.reading).1 (scene.delivered request) :=
  ⟨rfl, scene.delivered_reading request ▸ deliver_follows request, deliver_honest request⟩

/-- A reader's run against a store that nobody writes to is a run of the
whole. -/
theorem WorldStep.delivers {writer : Option (Job × Publishing (Except (PipelineError PipelineIoError) Unit))}
    (program : Downloading (Except PipelineIoError CompletionManifest)) (scene : Scene) :
    ∃ later, Transition.Reachable ⟨scene, writer, program⟩ (WorldStep formats outputKey)
      ⟨later, writer, .pure (program.outcome (deliver scene.site.store) scene.reading).2⟩ := by
  induction program generalizing scene with
  | pure result => exact ⟨scene, .start⟩
  | call request next ih =>
    obtain ⟨later, rest⟩ := ih (deliver scene.site.store request scene.reading).1 (scene.delivered request)
    have step : WorldStep formats outputKey ⟨scene, writer, .call request next⟩
        ⟨scene.delivered request, writer, next (deliver scene.site.store request scene.reading).1⟩ :=
      .read (.answer (scene.delivered_reads request)) rfl
    rw [scene.delivered_reading] at rest
    exact ⟨later, .trans (.next .start step) rest⟩

end Steps

/-- A store with nothing in it, before the first run. -/
def vacantOpening (formats : Formats) (outputKey : ObjectPath) : Opening formats outputKey where
  scene := ⟨vacant, vacant_tagged.identified, fun _ => none, []⟩
  unmarked := rfl
  fresh := rfl

/-- A job of four bytes. -/
def fourBytes : Job where
  localOutput := "output.parquet"
  contents := [80, 65, 82, 49]
  inputKey := ⟨["input.csv"], by decide⟩
  inputMeta := ⟨⟨["input.csv"], by decide⟩, "1970-01-01T00:00:00+00:00", 27, none, some "v"⟩
  rows := 0
  digest := 0

def outputPath : ObjectPath where
  parts := ["output.parquet"]
  clean := by decide

/-- They are published, and a reader gets them. -/
theorem fourBytes_agreed : ∃ now manifest, Transition.Reachable
      ((vacantOpening (.plain percentEncoding) outputPath).world "copy.parquet")
      (WorldStep (.plain percentEncoding) outputPath) now ∧
    now.reader = Program.pure (.ok manifest) ∧ ∃ runId job, (runId, job) ∈ now.scene.site.runs ∧
      manifest.runId = some runId ∧ now.scene.files "copy.parquet" = some job.contents := by
  let formats := Formats.plain percentEncoding
  let reader := downloadCompletedOutput formats outputPath "copy.parquet"
  obtain ⟨bytes, records, published⟩ := @publish_faultless formats outputPath fourBytes vacant
    (by decide) (Job.writable (by decide))
  obtain ⟨tagged, wrote⟩ := @WorldStep.publishes formats outputPath reader (fun _ => none) fourBytes
    (publish formats outputPath fourBytes) vacant vacant_tagged
  simp only [published] at tagged wrote
  obtain ⟨output, present, contents, named, unversioned⟩ :=
    @Site.published_output outputPath fourBytes vacant percentEncoding bytes
  obtain ⟨marker, marked, same⟩ := @Site.published_marker outputPath fourBytes vacant percentEncoding bytes
  obtain ⟨later, read⟩ := @WorldStep.delivers formats outputPath (some (fourBytes, .pure (.ok ()))) reader
    ⟨vacant.published percentEncoding outputPath fourBytes bytes, tagged.identified, fun _ => none, []⟩
  obtain ⟨_, manifest, delivered⟩ := @downloadCompletedOutput_delivers
    (vacant.published percentEncoding outputPath fourBytes bytes).store "copy.parquet"
    (Scene.reading ⟨vacant.published percentEncoding outputPath fourBytes bytes, tagged.identified, fun _ => none, []⟩)
    formats outputPath fourBytes output marker marked (same ▸ records) present
    (by rw [contents]; decide) named unversioned
  rw [show (reader.outcome _ _).2 = .ok manifest from congrArg Prod.snd delivered] at read
  have begins : WorldStep formats outputPath ((vacantOpening formats outputPath).world "copy.parquet") _ :=
    .begin fourBytes rfl rfl
  have reach := (Transition.Reachable.next .start begins).trans (wrote.trans read)
  obtain ⟨runId, job, member, run, copied, _⟩ := (completed_reader_agreement formats outputPath
    (vacantOpening formats outputPath) "copy.parquet").2 _ manifest reach rfl
  exact ⟨_, manifest, reach, rfl, runId, job, member, run, copied⟩

end Datacrate.Remote
