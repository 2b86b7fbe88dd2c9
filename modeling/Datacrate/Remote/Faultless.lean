import Datacrate.Remote.Handover
import Datacrate.Remote.Keys
import Datacrate.Remote.Promise
import Datacrate.Remote.Steps

namespace Datacrate.Remote

open Datacrate.Ingest Datacrate.Bounded Interaction Chunks Usize

/-- An ETag that the bytes of an object have to themselves. -/
def contentTag (bytes : Bytes) : String :=
  String.ofList ('e' :: bytes.map fun byte => Char.ofNat byte.toNat)

theorem byteChar_toNat (byte : UInt8) : (Char.ofNat byte.toNat).toNat = byte.toNat := by
  have small : byte.toNat < 256 := byte.toNat_lt
  have valid : byte.toNat.isValidChar := Or.inl (by omega)
  rw [Char.ofNat, dif_pos valid]
  rfl

theorem contentTag_injective : Function.Injective contentTag := by
  intro first second same
  have texts := (List.cons.injEq _ _ _ _).mp (String.ofList_injective same)
  refine List.map_injective_iff.mpr (fun byte other equal => ?_) texts.2
  have numbers := congrArg Char.toNat equal
  rw [byteChar_toNat, byteChar_toNat] at numbers
  exact UInt8.toNat_inj.mp numbers

theorem contentTag_solid (bytes : Bytes) : blank (contentTag bytes) = false := by
  rw [blank, contentTag, String.toList_ofList, List.all_cons]
  exact Bool.and_eq_false_imp.mpr fun white => absurd white (by decide)

/-- A run id longer than all others. -/
def freshRunId (runs : List (String × Job)) : String :=
  "datacrate-run-" ++ String.ofList (List.replicate (runs.map (·.1.length)).sum 'a')

theorem freshRunId_fresh (runs : List (String × Job)) : ∀ run ∈ runs, run.1 ≠ freshRunId runs := by
  intro run member same
  have shorter : run.1.length ≤ (runs.map (·.1.length)).sum :=
    List.single_le_sum (by simp) _ (List.mem_map_of_mem member)
  have length := congrArg String.length same
  have named : "datacrate-run-".length = 14 := rfl
  have longer : (String.ofList (List.replicate (runs.map (·.1.length)).sum 'a')).length =
      (runs.map (·.1.length)).sum := by
    rw [String.length_ofList, List.length_replicate]
  rw [freshRunId, String.length_append, longer, named] at length
  omega

theorem freshRunId_named (runs : List (String × Job)) : ∃ suffix, freshRunId runs = "datacrate-run-" ++ suffix :=
  ⟨_, rfl⟩

theorem freshRunId_solid (runs : List (String × Job)) : blank (freshRunId runs) = false := by
  have first : blank "datacrate-run-" = false := by decide
  rw [blank, freshRunId, String.toList_append, List.all_append]
  exact Bool.and_eq_false_imp.mpr fun white => absurd (white.symm.trans first) (by decide)

theorem freshRunId_plain (runs : List (String × Job)) : '/' ∉ (freshRunId runs).toList := by
  rw [freshRunId, String.toList_append, List.mem_append, not_or]
  refine ⟨by decide, fun member => ?_⟩
  rw [String.toList_ofList] at member
  cases List.eq_of_mem_replicate member

/-- What a store says of an object. -/
def Object.metadata (object : Object) (key : ObjectPath) : ObjectMeta where
  location := key
  lastModified := "1970-01-01T00:00:00+00:00"
  size := .ofNat object.bytes.length
  eTag := object.eTag
  version := object.version

section Sites

variable (s : Site) (key : ObjectPath) (bytes : Bytes)

def Site.put : Site :=
  { s with store := s.store.write key bytes (some (contentTag bytes)) none }

def Site.drop : Site :=
  { s with store := s.store.remove key }

def Site.begin (job : Job) : Site :=
  { s with runs := s.runs ++ [(freshRunId s.runs, job)] }

/-- The objects have the ETags of their contents. -/
def Site.Tagged : Prop :=
  ∀ key, ∀ object ∈ s.store.history key, object.eTag = some (contentTag object.bytes) ∧ object.version = none

variable {s key bytes}

theorem Site.put_present : ∃ object, (s.put key bytes).store.current key = some object ∧ object.bytes = bytes ∧
    object.eTag = some (contentTag bytes) ∧ object.version = none := by
  simp [Site.put, Store.write]

theorem Site.put_other {other : ObjectPath} (differ : other ≠ key) :
    (s.put key bytes).store.current other = s.store.current other := by
  simp [Site.put, Store.write, differ]

theorem Site.drop_other {other : ObjectPath} (differ : other ≠ key) :
    (s.drop key).store.current other = s.store.current other := by
  simp [Site.drop, Store.remove, differ]

theorem Site.Tagged.put (tagged : s.Tagged) : (s.put key bytes).Tagged := by
  intro other object member
  by_cases here : other = key
  · subst here
    simp only [Site.put, Store.write, if_pos, List.mem_cons] at member
    rcases member with rfl | earlier
    · exact ⟨rfl, rfl⟩
    · exact tagged other object earlier
  · simp only [Site.put, Store.write, if_neg here] at member
    exact tagged other object member

end Sites

/-- A store with nothing in it. -/
def vacant : Site where
  store :=
    { current := fun _ => none, history := fun _ => [], clock := 0, recorded := by simp, aged := by simp }
  runs := []

theorem vacant_tagged : vacant.Tagged := by
  intro key object member
  cases member

/-- A local system and a store that fail nothing. -/
def faultless (job : Job) : (request : PublishRequest) → Site → PublishResponse request × Site
  | .tempdir, s => (.ok (freshRunId s.runs), s.begin job)
  | .openFile _, s | .read _, s | .putMultipart _, s | .nextPart _, s | .abort _, s => (.ok (), s)
  | .complete key parts, s => (.ok (), s.put key parts.flatten)
  | .delete key, s => (.ok (), s.drop key)
  | .copy source target, s =>
    match s.store.current source with
    | some object => (.ok (), s.put target object.bytes)
    | none => (.error (.other "no such key"), s)
  | .head key, s =>
    match s.store.current key with
    | some object => (.ok (object.metadata key), s)
    | none => (.error (.other "no such key"), s)
  | .put key body, s => (.ok (), s.put key body)

section Requests

variable {truthful : Object → ObjectMeta → Prop} {job : Job} {s : Site}

theorem faultless_handles (honest : ∀ object key, truthful object (object.metadata key)) (request : PublishRequest)
    (s : Site) : Handles truthful job s request (faultless job request s).1 (faultless job request s).2 := by
  cases request with
  | tempdir => exact ⟨⟨_, rfl⟩, freshRunId_fresh s.runs, rfl⟩
  | openFile | read | putMultipart | nextPart | abort => rfl
  | complete key parts | put key body => exact ⟨rfl, Or.inl ⟨_, _, rfl⟩⟩
  | delete key => exact ⟨⟨rfl, Or.inl rfl⟩, fun _ failed => by cases failed⟩
  | copy source target =>
    rcases present : s.store.current source with _ | object
    · simp only [faultless, present]
      exact ⟨rfl, Or.inr ⟨⟨_, rfl⟩, rfl⟩⟩
    · simp only [faultless, present]
      exact ⟨rfl, Or.inl ⟨object, present, _, _, rfl⟩⟩
  | head key =>
    rcases present : s.store.current key with _ | object
    · simp only [faultless, present]
      exact ⟨rfl, fun _ _ failed => by cases failed⟩
    · simp only [faultless, present]
      refine ⟨rfl, fun metadata other reported held => ?_⟩
      cases reported
      cases present.symm.trans held
      exact honest object key

theorem faultless_tagged (tagged : s.Tagged) (request : PublishRequest) : (faultless job request s).2.Tagged := by
  cases request with
  | tempdir | openFile | read | putMultipart | nextPart | abort | delete => exact tagged
  | complete key parts | put key body => exact tagged.put
  | copy source target =>
    rw [faultless]
    split
    · exact tagged.put
    · exact tagged
  | head key =>
    rw [faultless]
    split <;> exact tagged

end Requests

section Publication

variable {formats : Formats} {outputKey key : ObjectPath} {job : Job} {s : Site}

theorem makeRoom_faultless (pending : Nat) :
    ∃ room, Program.outcome (faultless job) (makeRoom key pending) s = (s, .ok room) := by
  unfold makeRoom
  split
  · have awaited : Program.outcome (faultless job) (perform (.nextPart key)) s = (s, .ok ()) := rfl
    exact ⟨_, Program.outcome_andThen (Program.outcome_attempt awaited)⟩
  · exact ⟨_, rfl⟩

theorem sendParts_faultless (src : String) (contents : Bytes) (pending : Nat) (sent : List Bytes) :
    ∃ left, Program.outcome (faultless job) (sendParts src key (chunksOf chunkBytes contents) pending sent) s =
      (s, .ok (left, sent ++ chunksOf chunkBytes contents)) := by
  have answered : Program.outcome (faultless job) (perform (.read src)) s = (s, .ok ()) := rfl
  fun_induction chunksOf chunkBytes contents generalizing pending sent with
  | case1 contents empty =>
    obtain ⟨room, made⟩ := @makeRoom_faultless key job s pending
    refine ⟨room, (Program.outcome_andThen made).trans ?_⟩
    refine (Program.outcome_andThen (Program.outcome_attempt answered)).trans ?_
    rw [List.append_nil]
    rfl
  | case2 contents more ih =>
    obtain ⟨room, made⟩ := @makeRoom_faultless key job s pending
    by_cases short : (contents.take chunkBytes).length < chunkBytes
    · have last : contents.drop chunkBytes = [] := by
        rw [List.length_take] at short
        rw [List.drop_eq_nil_iff]
        omega
      refine ⟨room + 1, (Program.outcome_andThen made).trans ?_⟩
      refine (Program.outcome_andThen (Program.outcome_attempt answered)).trans ?_
      rw [if_pos short]
      simp [last]
      rfl
    · obtain ⟨left, rest⟩ := ih (room + 1) (sent ++ [contents.take chunkBytes])
      refine ⟨left, (Program.outcome_andThen made).trans ?_⟩
      refine (Program.outcome_andThen (Program.outcome_attempt answered)).trans ?_
      rw [if_neg short]
      refine rest.trans ?_
      rw [List.append_assoc, List.singleton_append]

theorem awaitParts_faultless (pending : Nat) :
    Program.outcome (faultless job) (awaitParts key pending) s = (s, .ok ()) := by
  have awaited : Program.outcome (faultless job) (perform (.nextPart key)) s = (s, .ok ()) := rfl
  induction pending with
  | zero => rfl
  | succ pending ih => exact (Program.outcome_andThen (Program.outcome_attempt awaited)).trans ih

theorem uploadFromTemp_faultless (src : String) (contents : Bytes) :
    Program.outcome (faultless job) (uploadFromTemp src contents key) s = (s.put key contents, .ok ()) := by
  have opened : Program.outcome (faultless job) (perform (.openFile src)) s = (s, .ok ()) := rfl
  have started : Program.outcome (faultless job) (perform (.putMultipart key)) s = (s, .ok ()) := rfl
  have completed : Program.outcome (faultless job) (perform (.complete key (chunksOf chunkBytes contents))) s =
      (s.put key contents, .ok ()) := by
    show (s.put key (chunksOf chunkBytes contents).flatten, Except.ok ()) = _
    rw [flatten_chunksOf chunkBytes_pos]
  obtain ⟨left, sent⟩ := @sendParts_faultless key job s src contents 0 []
  have all : Program.outcome (faultless job) (sendAll src contents key) s = (s.put key contents, .ok ()) := by
    refine (Program.outcome_andThen sent).trans ?_
    refine (Program.outcome_andThen (awaitParts_faultless left)).trans ?_
    exact Program.outcome_attempt completed
  refine (Program.outcome_andThen (Program.outcome_attempt opened)).trans ?_
  refine (Program.outcome_andThen (Program.outcome_attempt started)).trans ?_
  refine (Program.outcome_bind (sendAll src contents key) _ s).trans ?_
  rw [all]
  rfl

theorem deleteObject_faultless : Program.outcome (faultless job) (deleteObject key) s = (s.drop key, .ok ()) :=
  rfl

theorem copyStagedObject_faultless {source : ObjectPath} {object : Object}
    (present : s.store.current source = some object) :
    Program.outcome (faultless job) (copyStagedObject source key) s = (s.put key object.bytes, .ok ()) := by
  have answered : faultless job (.copy source key) s = (.ok (), s.put key object.bytes) := by
    simp only [faultless, present]
  have copied : Program.outcome (faultless job) (perform (.copy source key)) s = (s.put key object.bytes, .ok ()) :=
    congrArg Prod.swap answered
  exact Program.outcome_attempt copied

theorem headObject_faultless {object : Object} (present : s.store.current key = some object) :
    Program.outcome (faultless job) (headObject key) s = (s, .ok (object.metadata key)) := by
  have answered : faultless job (.head key) s = (.ok (object.metadata key), s) := by
    simp only [faultless, present]
  have reported : Program.outcome (faultless job) (perform (.head key)) s = (s, .ok (object.metadata key)) :=
    congrArg Prod.swap answered
  exact Program.outcome_attempt reported

theorem putManifest_faultless {manifest : CompletionManifest} {bytes : Bytes} (valid : manifest.validate = .ok ())
    (written : formats.toVec manifest = .ok bytes) :
    Program.outcome (faultless job) (putManifest formats manifest key) s = (s.put key bytes, .ok ()) := by
  unfold putManifest
  rw [valid, written]
  rfl

/-- The records of such a job can be written. -/
def Writable (formats : Formats) (outputKey : ObjectPath) (job : Job) : Prop :=
  ∀ runId metadata, ∃ bytes, formats.toVec (job.record outputKey runId metadata) = .ok bytes

/-- The bytes are a record of the job's output, which it knows by its ETag. -/
def Records (formats : Formats) (outputKey : ObjectPath) (job : Job) (bytes : Bytes) : Prop :=
  ∃ runId metadata, metadata.eTag = some (contentTag job.contents) ∧ metadata.version = none ∧
    (job.record outputKey runId metadata).validate = .ok () ∧
    formats.toVec (job.record outputKey runId metadata) = .ok bytes

theorem Job.writable {encoding : PartEncoding} (rows : job.rows < Usize.range) :
    Writable (.plain encoding) outputKey job :=
  fun _ _ => Formats.plain_writes ⟨(by decide : 2 < 2 ^ 32), rows⟩

theorem recordCompletion_faultless {staged : RemoteStagedOutput} (run : blank staged.runId = false)
    (named : blank outputKey.text = false) (writable : Writable formats outputKey job)
    (present : ∃ object, s.store.current outputKey = some object ∧ object.bytes = job.contents ∧
      object.eTag = some (contentTag job.contents) ∧ object.version = none) :
    ∃ bytes, Records formats outputKey job bytes ∧
      Program.outcome (faultless job) (recordCompletion formats outputKey job staged) s =
        (s.put (keyFor formats.encoding outputKey) bytes, .ok ()) := by
  obtain ⟨object, held, _, tagged, unversioned⟩ := present
  have identified : (object.metadata outputKey).version.all blank = false ∨
      (object.metadata outputKey).eTag.all blank = false := by
    refine Or.inr ?_
    show object.eTag.all blank = false
    rw [tagged]
    exact contentTag_solid job.contents
  have made : OutputIdentity.new staged.runId outputKey (object.metadata outputKey) =
      .ok ⟨staged.runId, outputKey, object.metadata outputKey⟩ := by
    have here : (object.metadata outputKey).location = outputKey := rfl
    rw [OutputIdentity.new, if_neg (not_not.mpr here), if_neg]
    rw [Bool.and_eq_true, not_and_or, Bool.not_eq_true, Bool.not_eq_true]
    exact identified
  have valid := @ofOutput_validate job.inputKey job.inputMeta job.rows job.digest
    ⟨staged.runId, outputKey, object.metadata outputKey⟩ run named identified
  obtain ⟨bytes, written⟩ := writable staged.runId (object.metadata outputKey)
  refine ⟨bytes, ⟨staged.runId, object.metadata outputKey, tagged, unversioned, valid, written⟩, ?_⟩
  refine (Program.outcome_andThen (Program.outcome_attempt (headObject_faultless held))).trans ?_
  refine (Program.outcome_andThen (Program.outcome_attempt (congrArg (Prod.mk s) made))).trans ?_
  refine (Program.outcome_andThen (Program.outcome_attempt (congrArg (Prod.mk s) (newV2_succeeds valid)))).trans ?_
  exact Program.outcome_attempt (putManifest_faultless valid written)

/-- The output is in place, and its record is to follow. -/
def Site.place (encoding : PartEncoding) (s : Site) (outputKey : ObjectPath) (job : Job) : Site :=
  (((s.begin job).put (stagingKey encoding outputKey (freshRunId s.runs)) job.contents).drop
    (keyFor encoding outputKey)).put outputKey job.contents

theorem publishStaged_faultless (named : blank outputKey.text = false) (writable : Writable formats outputKey job) :
    ∃ bytes, Records formats outputKey job bytes ∧ Program.outcome (faultless job) (publishStaged formats outputKey job
        ⟨freshRunId s.runs, stagingKey formats.encoding outputKey (freshRunId s.runs)⟩) (s.begin job) =
      ((s.place formats.encoding outputKey job).put (keyFor formats.encoding outputKey) bytes, .ok ()) := by
  have aside := stagingKey_ne_keyFor formats.encoding outputKey (freshRunId_named s.runs)
  obtain ⟨object, held, contents, _⟩ := @Site.put_present (s.begin job)
    (stagingKey formats.encoding outputKey (freshRunId s.runs)) job.contents
  have copied := @copyStagedObject_faultless outputKey job _ _ _ ((Site.drop_other aside.symm).trans held)
  rw [contents] at copied
  obtain ⟨bytes, records, recorded⟩ := @recordCompletion_faultless formats outputKey job
    (s.place formats.encoding outputKey job)
    ⟨freshRunId s.runs, stagingKey formats.encoding outputKey (freshRunId s.runs)⟩
    (freshRunId_solid s.runs) named writable Site.put_present
  refine ⟨bytes, records, ?_⟩
  refine (Program.outcome_andThen (Program.outcome_attempt
    (uploadFromTemp_faultless job.localOutput job.contents))).trans ?_
  refine (Program.outcome_andThen (Program.outcome_attempt deleteObject_faultless)).trans ?_
  exact (Program.outcome_andThen (Program.outcome_attempt copied)).trans recorded

/-- The publication is over. -/
def Site.published (encoding : PartEncoding) (s : Site) (outputKey : ObjectPath) (job : Job) (bytes : Bytes) : Site :=
  ((s.place encoding outputKey job).put (keyFor encoding outputKey) bytes).drop
    (stagingKey encoding outputKey (freshRunId s.runs))

theorem Site.published_output {encoding : PartEncoding} {bytes : Bytes} :
    ∃ output, (s.published encoding outputKey job bytes).store.current outputKey = some output ∧
      output.bytes = job.contents ∧ output.eTag = some (contentTag job.contents) ∧ output.version = none := by
  obtain ⟨output, present, rest⟩ := @Site.put_present
    (((s.begin job).put (stagingKey encoding outputKey (freshRunId s.runs)) job.contents).drop
      (keyFor encoding outputKey)) outputKey job.contents
  refine ⟨output, ?_, rest⟩
  rw [Site.published, Site.drop_other (stagingKey_ne_output _ _), Site.put_other (keyFor_ne_output _ _).symm]
  exact present

theorem Site.published_marker {encoding : PartEncoding} {bytes : Bytes} :
    ∃ marker, (s.published encoding outputKey job bytes).store.current (keyFor encoding outputKey) = some marker ∧
      marker.bytes = bytes := by
  obtain ⟨marker, present, same, _⟩ :=
    @Site.put_present (s.place encoding outputKey job) (keyFor encoding outputKey) bytes
  refine ⟨marker, ?_, same⟩
  rw [Site.published, Site.drop_other (stagingKey_ne_keyFor _ _ (freshRunId_named s.runs))]
  exact present

/-- Without faults a publication succeeds. -/
theorem publish_faultless (named : blank outputKey.text = false) (writable : Writable formats outputKey job) :
    ∃ bytes, Records formats outputKey job bytes ∧ Program.outcome (faultless job) (publish formats outputKey job) s =
      (s.published formats.encoding outputKey job bytes, .ok ()) := by
  have began : Program.outcome (faultless job) (perform .tempdir) s = (s.begin job, .ok (freshRunId s.runs)) := rfl
  have new : Program.outcome (faultless job) (RemoteStagedOutput.new formats.encoding outputKey) s =
      (s.begin job, .ok ⟨freshRunId s.runs, stagingKey formats.encoding outputKey (freshRunId s.runs)⟩) :=
    Program.outcome_andThen (Program.outcome_attempt began)
  obtain ⟨bytes, records, steps⟩ := @publishStaged_faultless formats outputKey job s named writable
  refine ⟨bytes, records, ?_⟩
  refine (Program.outcome_andThen (Program.outcome_attempt new)).trans ?_
  refine (Program.outcome_bind (publishStaged formats outputKey job _) _ _).trans ?_
  rw [steps]
  exact Program.outcome_attempt deleteObject_faultless

end Publication

/-- The current object, if a body can have its length. -/
def Store.look (store : Store) (key : ObjectPath) :
    Except StoreError { object : Object // object.bytes.length < Usize.range } :=
  match store.current key with
  | some object => if fits : object.bytes.length < Usize.range then .ok ⟨object, fits⟩ else .error (.other "too large")
  | none => .error (.notFound "no such key")

theorem ByteRange.of_length_le (range : ByteRange) (bytes : Bytes) : (range.of bytes).length ≤ bytes.length := by
  rw [ByteRange.of, List.length_take, List.length_drop]
  omega

/-- A response with the range of the object in one piece. -/
def Object.result (object : Object) (fits : object.bytes.length < Usize.range) (key : ObjectPath) (range : ByteRange) :
    GetResult where
  metadata := object.metadata key
  range := range
  body := [.ok ⟨range.of object.bytes, (range.of_length_le object.bytes).trans_lt fits⟩]

def Object.whole (object : Object) : ByteRange where
  start := 0
  stop := .ofNat object.bytes.length

def Chunk.single (byte : UInt8) : Chunk where
  bytes := [byte]
  fits := by
    rw [List.length_singleton]
    decide

/-- A response with the object byte by byte. -/
def Object.pieces (object : Object) (key : ObjectPath) : GetResult where
  metadata := object.metadata key
  range := object.whole
  body := (object.bytes.map .single).map .ok

/-- A store that nobody writes to, and a local system that fails nothing. -/
def deliver (store : Store) : (request : DownloadRequest) → Reading → DownloadResponse request × Reading
  | .create dest, s => (.ok (), s.write dest (some []))
  | .writeAll dest chunk, s => (.ok (), s.write dest ((s.files dest).map (· ++ chunk)))
  | .head key, s => ((store.look key).map (·.val.metadata key), s)
  | .get key, s =>
    match store.current key with
    | some object => (.ok (object.pieces key), s)
    | none => (.error (.notFound "no such key"), s)
  | .getOpts key options, s =>
    let response := (store.look key).map fun object =>
      object.val.result object.property key (options.range.getD object.val.whole)
    (response, s.answered options.range response)

section Deliveries

variable {store : Store} {site : Site} {key : ObjectPath} {dest : String} {object : Object} {s : Reading}

theorem Store.look_ok {found : { object : Object // object.bytes.length < Usize.range }}
    (ok : store.look key = .ok found) : store.current key = some found.val := by
  unfold Store.look at ok
  split at ok
  · rename_i present
    split at ok
    · cases ok
      exact present
    · cases ok
  · cases ok

theorem Store.look_present (present : store.current key = some object) (fits : object.bytes.length < Usize.range) :
    store.look key = .ok ⟨object, fits⟩ := by
  rw [Store.look, present]
  exact dif_pos fits

theorem Object.metadata_describes (fits : object.bytes.length < Usize.range) :
    Describes (object.metadata key) object where
  size := UInt64.toNat_ofNat_of_lt' fits
  eTag := rfl
  version := rfl

theorem Object.pieces_flatten (object : Object) :
    ((object.bytes.map Chunk.single).map Chunk.bytes).flatten = object.bytes := by
  rw [List.map_map]
  exact List.flatMap_singleton' object.bytes

theorem Object.pieces_arrives {bytes : Bytes} (arrives : (object.pieces key).Arrives bytes) : bytes = object.bytes := by
  obtain ⟨chunks, body, rfl⟩ := arrives
  have ok : Function.Injective (Except.ok : Chunk → Except StoreError Chunk) := fun _ _ => Except.ok.inj
  obtain rfl : object.bytes.map .single = chunks := List.map_injective_iff.mpr ok body
  exact object.pieces_flatten

theorem Object.pieces_bytes : (object.pieces key).bytes = .ok object.bytes := by
  have arrived : ∀ chunks : List Chunk,
      (chunks.map Except.ok).mapM id = (.ok chunks : Except StoreError (List Chunk)) := by
    intro chunks
    induction chunks with
    | nil => rfl
    | cons chunk chunks ih =>
      rw [List.map_cons, List.mapM_cons, ih]
      rfl
  rw [GetResult.bytes, Object.pieces, arrived]
  exact congrArg Except.ok object.pieces_flatten

theorem Object.result_arrives {fits : object.bytes.length < Usize.range} {range : ByteRange} {bytes : Bytes}
    (arrives : (object.result fits key range).Arrives bytes) : bytes = range.of object.bytes := by
  obtain ⟨chunks, body, rfl⟩ := arrives
  obtain ⟨chunk, rfl⟩ : ∃ chunk, chunks = [chunk] := by
    have length := congrArg List.length body
    rw [List.length_map] at length
    exact List.length_eq_one_iff.mp length.symm
  cases body
  exact List.append_nil _

theorem deliver_follows (request : DownloadRequest) :
    s.Follows request (deliver store request s).1 (deliver store request s).2 := by
  cases request with
  | create | head | getOpts | writeAll => rfl
  | get key =>
    rcases present : store.current key with _ | object
    · simp only [deliver, present]
      rfl
    · simp only [deliver, present]
      rfl

theorem deliver_honest (request : DownloadRequest) : Honest site request (deliver site.store request s).1 := by
  cases request with
  | create | writeAll => trivial
  | head key =>
    rcases found : site.store.look key with error | object
    · simp only [deliver, found]
      trivial
    · simp only [deliver, found]
      exact ⟨object.val, site.store.recorded _ _ (Store.look_ok found), Object.metadata_describes object.property⟩
  | get key =>
    rcases present : site.store.current key with _ | object
    · simp only [deliver, present]
      trivial
    · simp only [deliver, present]
      exact ⟨object, present, fun bytes => Object.pieces_arrives⟩
  | getOpts key options =>
    rcases found : site.store.look key with error | object
    · simp only [deliver, found]
      trivial
    · simp only [deliver, found]
      exact ⟨object.val, site.store.recorded _ _ (Store.look_ok found), Object.metadata_describes object.property,
        fun bytes => Object.result_arrives⟩

/-- The response passes every check of the reader. -/
theorem Object.result_checked {version eTag : Option String} {requested : ByteRange}
    (fits : object.bytes.length < Usize.range) (named : identityMatches version eTag (object.metadata key) = true) :
    checkResponse key (object.metadata key) version eTag requested (object.result fits key requested) = .ok () := by
  have same : (object.result fits key requested).metadata = object.metadata key := rfl
  have range : (object.result fits key requested).range = requested := rfl
  have here : (object.metadata key).location = key := rfl
  rw [checkResponse, same, range, if_neg (not_not.mpr here), if_neg (not_not.mpr rfl), if_neg (not_not.mpr named),
    if_neg (not_not.mpr rfl)]

/-- A range within the object is as long as it says. -/
theorem ByteRange.received_of {requested : ByteRange} {bytes : Bytes} (ordered : requested.start ≤ requested.stop)
    (inside : requested.stop.toNat ≤ bytes.length) :
    saturatingAdd 0 (UInt64.ofNat (requested.of bytes).length) = requested.stop - requested.start := by
  have apart := UInt64.le_iff_toNat_le.mp ordered
  have length : (requested.of bytes).length = requested.stop.toNat - requested.start.toNat := by
    rw [ByteRange.of, ByteRange.width, List.length_take, List.length_drop]
    omega
  have small := requested.stop.toNat_lt
  have word : (UInt64.ofNat (requested.stop.toNat - requested.start.toNat)).toNat =
      requested.stop.toNat - requested.start.toNat :=
    UInt64.toNat_ofNat_of_lt' ((Nat.sub_le _ _).trans_lt small)
  rw [← UInt64.toNat_inj, toNat_saturatingAdd, length, word, UInt64.toNat_sub_of_le _ _ ordered, UInt64.toNat_zero,
    Usize.range]
  omega

theorem writeBody_delivers {requested : ByteRange} (fits : object.bytes.length < Usize.range)
    (ordered : requested.start ≤ requested.stop) (inside : requested.stop.toNat ≤ object.bytes.length) :
    Program.outcome (deliver store)
        (writeBody key dest (requested.stop - requested.start) (object.result fits key requested).body 0) s =
      (s.write dest ((s.files dest).map (· ++ requested.of object.bytes)), .ok ()) := by
  have stored : Program.outcome (deliver store) (fetch (.writeAll dest (requested.of object.bytes))) s =
      (s.write dest ((s.files dest).map (· ++ requested.of object.bytes)), .ok ()) := rfl
  have arrived : Program.outcome (deliver store)
      (settled (.ok ⟨requested.of object.bytes, (requested.of_length_le object.bytes).trans_lt fits⟩)) s =
      (s, (.ok _ : Except StoreError Chunk)) := rfl
  have received := ByteRange.received_of ordered inside
  unfold Object.result writeBody
  refine (Program.outcome_andThen (Program.outcome_attempt arrived)).trans ?_
  simp only [received]
  rw [if_neg (UInt64.lt_irrefl _)]
  refine (Program.outcome_andThen (Program.outcome_attempt stored)).trans ?_
  -- Nothing is left of the body, and as much was received as was requested.
  unfold writeBody
  rw [if_neg (not_not.mpr rfl)]
  rfl

theorem downloadRange_delivers {version eTag : Option String} {requested : ByteRange}
    (present : store.current key = some object) (fits : object.bytes.length < Usize.range)
    (named : identityMatches version eTag (object.metadata key) = true)
    (ordered : requested.start ≤ requested.stop) (inside : requested.stop.toNat ≤ object.bytes.length) :
    ∃ t, Program.outcome (deliver store) (downloadRange key dest (object.metadata key) version eTag requested) s =
      (t, .ok ()) := by
  have answered : Program.outcome (deliver store) (fetch (.getOpts key
      { range := some requested, version, ifMatch := if version.isNone then eTag else none, head := false })) s =
      (s.answered (some requested) (.ok (object.result fits key requested)),
        .ok (object.result fits key requested)) := by
    have found := Store.look_present present fits
    show ((deliver store _ s).2, (deliver store _ s).1) = _
    simp only [deliver, found]
    rfl
  have agreed : ∀ u, Program.outcome (deliver store)
      (settled (checkResponse key (object.metadata key) version eTag requested (object.result fits key requested))) u =
        (u, .ok ()) := fun u => congrArg (Prod.mk u) (Object.result_checked fits named)
  have body := @writeBody_delivers store key dest object
    (s.answered (some requested) (.ok (object.result fits key requested))) requested fits ordered inside
  exact ⟨_, (Program.outcome_andThen (Program.outcome_attempt answered)).trans
    ((Program.outcome_andThen (agreed _)).trans body)⟩

/-- Without faults the ranges arrive one after another. -/
theorem downloadRanges_delivers {version eTag : Option String} (offset : UInt64)
    (present : store.current key = some object) (fits : object.bytes.length < Usize.range)
    (named : identityMatches version eTag (object.metadata key) = true) (inside : offset.toNat ≤ object.bytes.length) :
    ∃ t, Program.outcome (deliver store) (downloadRanges key dest (object.metadata key) version eTag offset) s =
      (t, .ok ()) := by
  have size : (object.metadata key).size.toNat = object.bytes.length := (Object.metadata_describes fits).size
  fun_induction downloadRanges key dest (object.metadata key) version eTag offset generalizing s with
  | case1 offset more ih =>
    have bound := toNat_rangeEnd (object.metadata key).size offset
    rw [UInt64.lt_iff_toNat_lt] at more
    have within : (rangeEnd (object.metadata key).size offset).toNat ≤ object.bytes.length := by omega
    have ordered : offset ≤ rangeEnd (object.metadata key).size offset := by
      rw [UInt64.le_iff_toNat_le]
      omega
    obtain ⟨t, ranged⟩ := @downloadRange_delivers store key dest object s version eTag
      ⟨offset, rangeEnd (object.metadata key).size offset⟩ present fits named ordered within
    obtain ⟨u, rest⟩ := @ih t within
    exact ⟨u, (Program.outcome_andThen ranged).trans rest⟩
  | case2 => exact ⟨s, rfl⟩

/-- Without faults an object with an ETag is downloaded. -/
theorem downloadCaptured_delivers {eTag : String} (present : store.current key = some object)
    (fits : object.bytes.length < Usize.range) (unversioned : object.version = none) (tagged : object.eTag = some eTag)
    (solid : eTag ≠ "") :
    ∃ t, Program.outcome (deliver store) (downloadCaptured key dest (object.metadata key)) s =
      (t, .ok (object.metadata key)) := by
  have version : (object.metadata key).version.filter (· ≠ "") = none := by
    rw [Object.metadata, unversioned]
    rfl
  have tag : (object.metadata key).eTag.filter (· ≠ "") = some eTag := by
    rw [Object.metadata, tagged]
    exact if_pos (decide_eq_true solid)
  have here : (object.metadata key).location = key := rfl
  have named : identityMatches none (some eTag) (object.metadata key) = true := decide_eq_true tagged
  obtain ⟨t, ranged⟩ := @downloadRanges_delivers store key dest object s none (some eTag) 0 present fits named
    (Nat.zero_le _)
  refine ⟨t, ?_⟩
  unfold downloadCaptured
  rw [if_neg (not_not.mpr here), version, tag]
  exact Program.outcome_andThen ranged

theorem downloadToTemp_delivers {eTag : String} (present : store.current key = some object)
    (fits : object.bytes.length < Usize.range) (unversioned : object.version = none) (tagged : object.eTag = some eTag)
    (solid : eTag ≠ "") :
    ∃ t, Program.outcome (deliver store) (downloadToTemp key dest) s = (t, .ok (object.metadata key)) := by
  have created : Program.outcome (deliver store) (fetch (.create dest)) s = (s.write dest (some []), .ok ()) := rfl
  have captured : Program.outcome (deliver store) (fetch (.head key)) (s.write dest (some [])) =
      (s.write dest (some []), .ok (object.metadata key)) := by
    have found := Store.look_present present fits
    show (_, (store.look key).map (·.val.metadata key)) = _
    rw [found]
    rfl
  obtain ⟨t, downloaded⟩ := @downloadCaptured_delivers store key dest object (s.write dest (some [])) eTag present fits
    unversioned tagged solid
  refine ⟨t, (Program.outcome_andThen (Program.outcome_attempt created)).trans ?_⟩
  exact (Program.outcome_andThen (Program.outcome_attempt captured)).trans downloaded

/-- Without faults a reader gets the output that the record names. -/
theorem downloadCompletedOutput_delivers {formats : Formats} {outputKey : ObjectPath} {job : Job}
    {output marker : Object} (marked : store.current (keyFor formats.encoding outputKey) = some marker)
    (records : Records formats outputKey job marker.bytes)
    (present : store.current outputKey = some output) (fits : output.bytes.length < Usize.range)
    (tagged : output.eTag = some (contentTag job.contents)) (unversioned : output.version = none) :
    ∃ t manifest, Program.outcome (deliver store) (downloadCompletedOutput formats outputKey dest) s =
      (t, .ok manifest) := by
  obtain ⟨runId, metadata, recorded, plain, valid, written⟩ := records
  have solid : contentTag job.contents ≠ "" := ne_empty_of_not_blank (contentTag_solid job.contents)
  have version : (job.record outputKey runId metadata).outputVersion = none := by
    show metadata.version.filter (!blank ·) = none
    rw [plain]
    rfl
  have eTag : (job.record outputKey runId metadata).outputETag = some (contentTag job.contents) :=
    usable_eq_some_iff.mpr ⟨recorded, contentTag_solid job.contents⟩
  have got : Program.outcome (deliver store) (fetch (.get (keyFor formats.encoding outputKey))) s =
      (s, .ok (marker.pieces (keyFor formats.encoding outputKey))) := by
    show ((deliver store _ s).2, (deliver store _ s).1) = _
    simp only [deliver, marked]
  have read : Program.outcome (deliver store) (settled (marker.pieces (keyFor formats.encoding outputKey)).bytes) s =
      (s, .ok marker.bytes) := congrArg (Prod.mk s) Object.pieces_bytes
  have decoded : Program.outcome (deliver store) (settled (decodeCompletionManifest formats marker.bytes)) s =
      (s, .ok (job.record outputKey runId metadata)) := congrArg (Prod.mk s) (decode_written valid written)
  have captured : ∀ options : GetOptions, options.range = none →
      Program.outcome (deliver store) (fetch (.getOpts outputKey options)) s =
        (s, .ok (output.result fits outputKey output.whole)) := by
    intro options plain
    have found := Store.look_present present fits
    show ((deliver store _ s).2, (deliver store _ s).1) = _
    simp only [deliver, found, plain]
    rfl
  have created : Program.outcome (deliver store) (fetch (.create dest)) s = (s.write dest (some []), .ok ()) := rfl
  have named : identityMatches none (some (contentTag job.contents))
      (output.result fits outputKey output.whole).metadata = true := decide_eq_true tagged
  obtain ⟨t, downloaded⟩ := @downloadCaptured_delivers store outputKey dest output (s.write dest (some [])) _ present
    fits unversioned tagged solid
  refine ⟨t, job.record outputKey runId metadata, ?_⟩
  refine (Program.outcome_andThen (Program.outcome_attempt got)).trans ?_
  refine (Program.outcome_andThen (Program.outcome_attempt read)).trans ?_
  refine (Program.outcome_andThen decoded).trans ?_
  have schema : (job.record outputKey runId metadata).schemaVersion = 2 := rfl
  have key : (job.record outputKey runId metadata).outputKey = some outputKey.text := rfl
  rw [if_neg (not_not.mpr schema), if_neg (not_not.mpr key)]
  refine (Program.outcome_andThen (Program.outcome_attempt (captured _ rfl))).trans ?_
  rw [version, eTag, if_neg (not_not.mpr named)]
  refine (Program.outcome_andThen (Program.outcome_attempt created)).trans ?_
  exact Program.outcome_andThen downloaded

theorem deliver_held (request : DownloadRequest) : (deliver store request s).2.held = s.held := by
  cases request with
  | create | head | writeAll => rfl
  | getOpts key options =>
    simp only [deliver, Reading.answered]
    split <;> rfl
  | get key =>
    rcases present : store.current key with _ | object
    · simp only [deliver, present]
    · simp only [deliver, present]

end Deliveries

end Datacrate.Remote
