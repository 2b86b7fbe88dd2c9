import Datacrate.Bounded.Pipeline
import Datacrate.Remote.Ownership
import Datacrate.Remote.Snapshot

namespace Datacrate.Remote

open Datacrate.Ingest Datacrate.Bounded Interaction

/-- What the pipeline between objects asks for: besides the requests of its two
ends, the cancellation flag, a directory and the local pipeline. -/
inductive S3Request where
  | isCancelled
  | tempdir
  | download (request : DownloadRequest)
  | runBoundedPipeline (input output : String)
  | publication (request : PublishRequest)

/-- The local pipeline responds with its report, and with the contents it left
in the output file. -/
@[reducible] def S3Response : S3Request → Type
  | .isCancelled => Bool
  | .tempdir => Except (String × String) String
  | .download request => DownloadResponse request
  | .runBoundedPipeline _ _ => Except (PipelineError PipelineIoError) (PipelineReport × Bytes)
  | .publication request => PublishResponse request

abbrev S3 := Program S3Response

abbrev demand (request : S3Request) : S3 (S3Response request) :=
  ask request

def downloading {α : Type} (program : Downloading α) : S3 α :=
  program.lift .download fun _ response => response

def publishing {α : Type} (program : Publishing α) : S3 α :=
  program.lift .publication fun _ response => response

def checkCancelled : ExceptT (PipelineError PipelineIoError) S3 Unit :=
  Program.bind (demand .isCancelled) fun cancelled => settled (if cancelled then .error .cancelled else .ok ())

def runBoundedPipelineS3 (formats : Formats) (inputKey outputKey : ObjectPath) :
    ExceptT (PipelineError PipelineIoError) S3 PipelineReport := do
  checkCancelled
  let stagingDir ← attempt (demand .tempdir) fun (path, source) => .io (.openOutput path source)
  let localInput := stagingDir ++ "/input.csv"
  let localOutput := stagingDir ++ "/output.parquet"
  let inputMeta ← attempt (downloading (downloadToTemp inputKey localInput)) .io
  let (report, contents) ← attempt (demand (.runBoundedPipeline localInput localOutput)) id
  checkCancelled
  attempt (publishing (publish formats outputKey
    { localOutput, contents, inputKey, inputMeta, rows := report.rowsWritten, digest := report.contentDigest })) id
  return report

/-- What the store has announced of a response. -/
def Announces (metadata : ObjectMeta) : Identity → Prop
  | .version value => value ≠ "" ∧ metadata.version = some value
  | .eTag value => value ≠ "" ∧ metadata.eTag = some value

/-- A store where a version or an ETag of a key identifies one content. A
response may be wrong in everything, but a body of the announced length is the
announced range of the content of the announced identity. -/
def Delivers (content : ObjectPath → Identity → Bytes) (_ : Reading) :
    (request : DownloadRequest) → DownloadResponse request → Prop
  | .getOpts key _, .ok response => ∀ identity, Announces response.metadata identity →
      ∀ bytes, response.Arrives bytes → bytes.length = response.range.width →
        bytes = response.range.of (content key identity)
  | _, _ => True

/-- These are the bytes that the metadata identifies. -/
def ContentOf (content : ObjectPath → Identity → Bytes) (key : ObjectPath) (metadata : ObjectMeta) (whole : Bytes)
    (_ : Reading) : Prop :=
  ∀ identity, identityOf metadata.version metadata.eTag = some identity → whole = content key identity

/-- What matches an identity announces it. -/
theorem identityMatches_announces {version eTag : Option String} {metadata : ObjectMeta} {identity : Identity}
    (named : identityOf version eTag = some identity)
    (same : identityMatches (version.filter (· ≠ "")) (eTag.filter (· ≠ "")) metadata = true) :
    Announces metadata identity := by
  unfold identityMatches at same
  unfold identityOf at named
  rcases usable : version.filter (· ≠ "") with _ | value
  · rcases tagged : eTag.filter (· ≠ "") with _ | value
    · rw [usable, tagged] at named
      cases named
    · rw [usable, tagged] at named
      rw [usable, tagged, decide_eq_true_iff] at same
      cases named
      exact ⟨by simpa using (Option.filter_eq_some_iff.mp tagged).2, same⟩
  · rw [usable] at named
    rw [usable, decide_eq_true_iff] at same
    cases named
    exact ⟨by simpa using (Option.filter_eq_some_iff.mp usable).2, same⟩

/-- The identity that a download captures fixes the bytes that it is given,
whatever else the metadata says. -/
theorem delivers_learns (content : ObjectPath → Identity → Bytes) (key : ObjectPath) :
    Learns (Delivers content) key (ContentOf content key) where
  head := by
    rintro s metadata _
    rcases named : identityOf metadata.version metadata.eTag with _ | identity
    · exact ⟨[], fun _ some => by rw [named] at some; cases some⟩
    · refine ⟨content key identity, fun other some => ?_⟩
      rw [named] at some
      cases some
      rfl
  later := fun known _ => known
  body := by
    intro s captured whole options response bytes known named delivers matching arrives length
    obtain ⟨identity, named⟩ := Option.ne_none_iff_exists'.mp named
    rw [known identity named]
    exact delivers identity (identityMatches_announces named matching) bytes arrives length

/-- What a run has to do with: what it downloads, the bytes that the local
pipeline read, and the completion records it wrote or tried to write. -/
structure Transfer where
  reading : Reading
  processed : Option Bytes
  recorded : List Bytes

def Transfers (content : ObjectPath → Identity → Bytes) (s : Transfer) :
    (request : S3Request) → S3Response request → Transfer → Prop
  | .isCancelled, _, t | .tempdir, _, t => t = s
  | .download request, response, t => Serves (Delivers content) s.reading request response t.reading ∧
      t.processed = s.processed ∧ t.recorded = s.recorded
  | .runBoundedPipeline input _, _, t => t = { s with processed := s.reading.files input }
  | .publication (.put _ body), _, t => t = { s with recorded := s.recorded ++ [body] }
  | .publication _, _, t => t = s

structure Around (s t : Transfer) : Prop where
  reading : Replaces s.reading t.reading
  processed : t.processed = s.processed
  recorded : t.recorded = s.recorded

/-- The record has the input key, and the version or ETag there identifies the
content of which the local pipeline has read as many bytes as recorded. -/
def Traced (formats : Formats) (content : ObjectPath → Identity → Bytes) (inputKey : ObjectPath) (t : Transfer)
    (body : Bytes) : Prop :=
  ∃ manifest identity, formats.toVec manifest = .ok body ∧ manifest.inputKey = inputKey.text ∧
    identityOf manifest.inputVersion manifest.inputETag = some identity ∧
    manifest.inputSize.toNat ≤ (content inputKey identity).length ∧
    t.processed = some ((content inputKey identity).take manifest.inputSize.toNat)

theorem Traced.stable {formats : Formats} {content : ObjectPath → Identity → Bytes} {inputKey : ObjectPath}
    {s t : Transfer} {body : Bytes} (traced : Traced formats content inputKey s body)
    (processed : t.processed = s.processed) : Traced formats content inputKey t body := by
  obtain ⟨manifest, identity, made, key, named, room, read⟩ := traced
  exact ⟨manifest, identity, made, key, named, room, processed.trans read⟩

theorem Around.refl (s : Transfer) : Around s s :=
  ⟨.refl _, rfl, rfl⟩

theorem Around.trans {s t u : Transfer} (first : Around s t) (second : Around t u) : Around s u where
  reading := first.reading.trans second.reading
  processed := second.processed.trans first.processed
  recorded := second.recorded.trans first.recorded

/-- The local pipeline has read what this metadata identifies. -/
structure Ready (formats : Formats) (content : ObjectPath → Identity → Bytes) (inputKey : ObjectPath)
    (captured : ObjectMeta) (identity : Identity) (t : Transfer) : Prop where
  named : identityOf captured.version captured.eTag = some identity
  room : captured.size.toNat ≤ (content inputKey identity).length
  processed : t.processed = some ((content inputKey identity).take captured.size.toNat)
  recorded : ∀ body ∈ t.recorded, Traced formats content inputKey t body

theorem Ready.around {formats : Formats} {content : ObjectPath → Identity → Bytes} {inputKey : ObjectPath}
    {captured : ObjectMeta} {identity : Identity} {s t : Transfer}
    (ready : Ready formats content inputKey captured identity s) (around : Around s t) :
    Ready formats content inputKey captured identity t where
  named := ready.named
  room := ready.room
  processed := around.processed.trans ready.processed
  recorded := by
    rw [around.recorded]
    exact fun body member => (ready.recorded body member).stable around.processed

section Specs

variable {formats : Formats} {content : ObjectPath → Identity → Bytes} {inputKey outputKey : ObjectPath} {s : Transfer}
  {guarantee : Transfer → Transfer → Prop}

/-- What is known of a download holds of it as a part of the run. -/
theorem downloading_spec {α : Type} {post : α → Reading → Prop} {program : Downloading α}
    (ensures : Ensures (Serves (Delivers content)) Replaces (fun _ _ => True) post program s.reading) (none : s.recorded = [])
    (within : ∀ s t : Transfer, t.recorded = [] → guarantee s t) :
    Ensures (Transfers content) Around guarantee (fun result t => post result t.reading ∧ t.recorded = [])
      (downloading program) s := by
  induction program generalizing s with
  | pure result => exact ⟨ensures, none⟩
  | call request next ih =>
    intro t around response u handled
    obtain ⟨served, _, same⟩ := handled
    have still : u.recorded = [] := same.trans (around.recorded.trans none)
    exact ⟨within _ _ still, ih response (ensures _ around.reading response _ served).2 still⟩

theorem checkCancelled_spec (within : ∀ {t}, Around s t → guarantee t t) :
    Ensures (Transfers content) Around guarantee (fun _ t => Around s t) checkCancelled s := by
  refine Ensures.bind (Ensures.ask fun t around response u handled => ?_) fun _ _ holds => holds
  obtain rfl : u = t := handled
  exact ⟨within around, around⟩

theorem publishing_issues {α : Type} {allowed : PublishRequest → Prop} {program : Publishing α}
    (issues : program.Issues allowed) :
    (publishing program).Issues fun request => ∃ inner, request = .publication inner ∧ allowed inner := by
  induction program with
  | pure result => trivial
  | call request next ih => exact ⟨⟨request, rfl, issues.1⟩, fun response => ih response (issues.2 response)⟩

/-- A write of a completion record, and no other request, adds to the records. -/
theorem Ready.publication {job : Job} {identity : Identity} {t : Transfer} {request : S3Request}
    {response : S3Response request} (ready : Ready formats content job.inputKey job.inputMeta identity s)
    (handled : Transfers content s request response t)
    (published : ∃ inner, request = .publication inner ∧ ∀ key body, inner = .put key body →
      ∃ runId metadata, formats.toVec (job.record outputKey runId metadata) = .ok body) :
    Ready formats content job.inputKey job.inputMeta identity t := by
  obtain ⟨inner, rfl, records⟩ := published
  cases inner with
  | put key body =>
    obtain ⟨runId, metadata, made⟩ := records key body rfl
    obtain rfl : t = { s with recorded := s.recorded ++ [body] } := handled
    refine ⟨ready.named, ready.room, ready.processed, fun other member => ?_⟩
    rcases List.mem_append.mp member with before | last
    · exact (ready.recorded other before).stable rfl
    · rw [List.mem_singleton.mp last]
      exact ⟨_, identity, made, rfl, ready.named, ready.room, ready.processed⟩
  | tempdir | openFile path | read path | putMultipart key | nextPart key | complete key parts | abort key
  | delete key | copy source target | head key =>
    obtain rfl : t = s := handled
    exact ready

/-- A publication after the local pipeline has read its input. -/
theorem publishing_spec {job : Job} {identity : Identity} (input : job.inputKey = inputKey)
    (ready : Ready formats content inputKey job.inputMeta identity s) :
    Ensures (Transfers content) Around (fun _ t => ∀ body ∈ t.recorded, Traced formats content inputKey t body)
      (fun _ _ => True) (publishing (publish formats outputKey job)) s := by
  subst input
  have issued : Ensures (Transfers content) Around
      (fun s t => Ready formats content job.inputKey job.inputMeta identity s →
        Ready formats content job.inputKey job.inputMeta identity t) (fun _ _ => True)
      (publishing (publish formats outputKey job)) s :=
    (publishing_issues publish_issues_records).ensures
      (fun published handled ready => ready.publication handled published) s
  refine Ensures.mono (Ensures.invariant issued _ ready (fun holds around => holds.around around)
    fun holds keeps => ?_) fun _ _ _ => trivial
  exact ⟨(keeps holds).recorded, keeps holds⟩

/-- Every completion record a run writes names the object it has read. -/
theorem runBoundedPipelineS3_spec (none : s.recorded = []) :
    Ensures (Transfers content) Around (fun _ t => ∀ body ∈ t.recorded, Traced formats content inputKey t body) (fun _ _ => True)
      (runBoundedPipelineS3 formats inputKey outputKey) s := by
  have vacuous : ∀ {t : Transfer}, t.recorded = [] → ∀ body ∈ t.recorded, Traced formats content inputKey t body := by
    intro t none body member
    rw [none] at member
    cases member
  unfold runBoundedPipelineS3
  refine Ensures.andThen (checkCancelled_spec fun around => vacuous (around.recorded.trans none))
    (fun _ t around => ?_) fun _ _ _ => trivial
  have none := around.recorded.trans none
  have named : Ensures (Transfers content) Around (fun _ t => ∀ body ∈ t.recorded, Traced formats content inputKey t body)
      (fun _ u => u.recorded = []) (demand .tempdir) t := by
    refine Ensures.ask fun u around response v handled => ?_
    obtain rfl : v = u := handled
    have none := around.recorded.trans none
    exact ⟨vacuous none, none⟩
  refine Ensures.attemptThen named (fun stagingDir u none => ?_) fun _ _ _ => trivial
  refine Ensures.attemptThen (downloading_spec (downloadToTemp_spec (delivers_learns content inputKey)) none
    fun _ _ none => vacuous none) (fun captured v holds => ?_) fun _ _ _ => trivial
  obtain ⟨fetched, none⟩ := holds
  obtain ⟨whole, answered, _, known, fetched⟩ := fetched captured rfl
  obtain ⟨identity, named⟩ := Option.ne_none_iff_exists'.mp fetched.named
  obtain rfl := known identity named
  have processed : Ensures (Transfers content) Around
      (fun _ t => ∀ body ∈ t.recorded, Traced formats content inputKey t body)
      (fun _ w => Ready formats content inputKey captured identity w)
      (demand (.runBoundedPipeline (stagingDir ++ "/input.csv") (stagingDir ++ "/output.parquet"))) v := by
    refine Ensures.ask fun w around response x handled => ?_
    obtain rfl : x = { w with processed := w.reading.files (stagingDir ++ "/input.csv") } := handled
    have none := around.recorded.trans none
    exact ⟨vacuous none, named, fetched.room, (fetched.stable around.reading).file, vacuous none⟩
  refine Ensures.attemptThen processed (fun outcome w ready => ?_) fun _ _ _ => trivial
  obtain ⟨report, contents⟩ := outcome
  refine Ensures.andThen (checkCancelled_spec fun around => (ready.around around).recorded) (fun _ x around => ?_)
    fun _ _ _ => trivial
  exact Ensures.attemptThen (publishing_spec rfl (ready.around around)) (fun _ _ _ => trivial) fun _ _ _ => trivial

end Specs

/-- Whatever the responses, a download that succeeds has written as many bytes
as announced of the one content that the captured identity names, and the
record of a run identifies the bytes that it has read. -/
theorem download_snapshot (content : ObjectPath → Identity → Bytes) (key : ObjectPath) (dest : String) :
    (∀ start now captured, Transition.Reachable (start, downloadToTemp key dest)
        (Interleaved (Serves (Delivers content)) Replaces) (now, Program.pure (.ok captured)) →
      ∃ identity answered, captured.location = key ∧ identityOf captured.version captured.eTag = some identity ∧
        captured.size.toNat ≤ (content key identity).length ∧
        now.files dest = some ((content key identity).take captured.size.toNat) ∧
        now.answers = start.answers ++ answered ∧
        (answered.map Prod.fst).Pairwise (fun first second => first.stop.toNat ≤ second.start.toNat) ∧
        (∀ i, i < captured.size.toNat ↔
          ∃ range ∈ answered.map Prod.fst, range.start.toNat ≤ i ∧ i < range.stop.toNat) ∧
        Tiles 0 captured.size.toNat (answered.map Prod.fst) ∧
        answered.length = rangeCount captured.size.toNat ∧
        ∀ answer ∈ answered, Accepted key captured answer.1 answer.2) ∧
    (∀ captured trace rest, Traces (downloadCaptured key dest captured) trace rest →
      (trace.countP fun event => event.1.isRange) ≤ rangeCount captured.size.toNat) ∧
    (∀ size offset : UInt64, offset < size → offset < rangeEnd size offset ∧
      (rangeEnd size offset).toNat = min size.toNat (offset.toNat + chunkBytes) ∧
      (rangeEnd size offset - offset).toNat = (rangeEnd size offset).toNat - offset.toNat) ∧
    ∀ formats outputKey start now rest, start.recorded = [] →
      Transition.Reachable (start, runBoundedPipelineS3 formats key outputKey)
        (Interleaved (Transfers content) Around) (now, rest) →
      ∀ body ∈ now.recorded, Traced formats content key now body := by
  refine ⟨fun start now captured reach => ?_, fun captured trace rest traces => downloadCaptured_within.traces traces,
    fun size offset more => ?_, fun formats outputKey start now rest none reach body member => ?_⟩
  · have spec := (downloadToTemp_spec (delivers_learns content key)).interleaved Replaces.refl Replaces.trans
      (fun holds replaces captured ok =>
        have ⟨whole, answered, logged, known, fetched⟩ := holds captured ok
        ⟨whole, answered, replaces.answers.trans logged, known, fetched.stable replaces⟩) reach
    obtain ⟨whole, answered, logged, known, fetched⟩ := spec.1 captured rfl
    obtain ⟨identity, named⟩ := Option.ne_none_iff_exists'.mp fetched.named
    obtain rfl := known identity named
    refine ⟨identity, answered, fetched.location, named, fetched.room, fetched.file, logged, fetched.tiles.disjoint,
      fun i => ?_, fetched.tiles, fetched.count, fetched.accepted⟩
    rw [← fetched.tiles.covers i]
    omega
  · have stop := toNat_rangeEnd size offset
    have chunk := chunkBytes_pos
    have grows : offset < rangeEnd size offset := by
      rw [UInt64.lt_iff_toNat_lt] at more ⊢
      omega
    exact ⟨grows, stop, UInt64.toNat_sub_of_le _ _ (UInt64.le_of_lt grows)⟩
  · obtain ⟨_, last, arrived, around⟩ := (runBoundedPipelineS3_spec none).interleaved Around.refl Around.trans
      (fun _ _ => trivial) reach
    rw [around.recorded] at member
    refine Traced.stable ?_ around.processed
    rcases arrived with rfl | ⟨before, within⟩
    · rw [none] at member
      cases member
    · exact within body member

section Truncation

def incoming : ObjectPath :=
  ⟨["in.csv"], by decide⟩

/-- One byte is announced, under the ETag of an object of two. -/
def shortMeta : ObjectMeta where
  location := incoming
  lastModified := ""
  size := 1
  eTag := some "e"
  version := none

def shortResponse : GetResult where
  metadata := shortMeta
  range := ⟨0, 1⟩
  body := [.ok ⟨[97], by decide⟩]

/-- Every identity is that of these two bytes. -/
def twoBytes : ObjectPath → Identity → Bytes :=
  fun _ _ => [97, 98]

/-- A store that announces the wrong size whenever it is asked. -/
def answersShort : (request : DownloadRequest) → Reading → DownloadResponse request × Reading
  | .create dest, s => (.ok (), s.write dest (some []))
  | .head _, s => (.ok shortMeta, s)
  | .get _, s => (.ok shortResponse, s)
  | .getOpts _ options, s => (.ok shortResponse, s.answered options.range (.ok shortResponse))
  | .writeAll dest chunk, s => (.ok (), s.write dest ((s.files dest).map (· ++ chunk)))

theorem answersShort_serves (request : DownloadRequest) (s : Reading) :
    Serves (Delivers twoBytes) s request (answersShort request s).1 (answersShort request s).2 := by
  cases request with
  | create dest | head key | get key | writeAll dest chunk => exact ⟨rfl, trivial⟩
  | getOpts key options =>
    refine ⟨rfl, fun _ _ bytes arrives _ => ?_⟩
    obtain ⟨chunks, body, rfl⟩ := arrives
    have one : shortResponse.body = [⟨[97], by decide⟩].map .ok := rfl
    obtain rfl := List.map_injective_iff.mpr (fun _ _ same => Except.ok.inj same) (one.symm.trans body)
    rfl

/-- One range is the whole download. -/
theorem downloadRanges_short (dest : String) :
    downloadRanges incoming dest shortMeta none (some "e") 0 =
      (do downloadRange incoming dest shortMeta none (some "e") ⟨0, 1⟩; return ()) := by
  rw [downloadRanges, dif_pos (by decide), show rangeEnd shortMeta.size 0 = 1 by decide, downloadRanges,
    dif_neg (by decide)]

/-- The size that a store announces is not checked against the object: where
it is too small, the download ends well with a part of the object. -/
theorem truncated_download :
    ∃ now, Transition.Reachable (⟨fun _ => [], fun _ => none, []⟩, downloadToTemp incoming "input.csv")
        (Interleaved (Serves (Delivers twoBytes)) Replaces) (now, Program.pure (.ok shortMeta)) ∧
      identityOf shortMeta.version shortMeta.eTag = some (.eTag "e") ∧ now.files "input.csv" = some [97] ∧
      now.files "input.csv" ≠ some (twoBytes incoming (.eTag "e")) := by
  have captured : downloadCaptured incoming "input.csv" shortMeta =
      (do downloadRanges incoming "input.csv" shortMeta none (some "e") 0; return shortMeta) := rfl
  rw [downloadRanges_short] at captured
  have ended : ((downloadToTemp incoming "input.csv").outcome answersShort ⟨fun _ => [], fun _ => none, []⟩).2 =
      .ok shortMeta := by
    show ((downloadCaptured incoming "input.csv" shortMeta).outcome answersShort _).2 = _
    rw [captured]
    rfl
  have written : ((downloadToTemp incoming "input.csv").outcome answersShort
      ⟨fun _ => [], fun _ => none, []⟩).1.files "input.csv" = some [97] := by
    show ((downloadCaptured incoming "input.csv" shortMeta).outcome answersShort _).1.files "input.csv" = _
    rw [captured]
    rfl
  refine ⟨_, ?_, by decide, written, fun whole => ?_⟩
  · rw [← ended]
    exact Program.outcome_reachable answersShort_serves _ _
  · rw [written] at whole
    cases whole

end Truncation

end Datacrate.Remote
