import Datacrate.Bounded.Errors
import Datacrate.Lib.Chunks
import Datacrate.Lib.Interaction
import Datacrate.Remote.Manifest

namespace Datacrate.Remote

open Datacrate.Ingest Datacrate.Bounded Interaction Chunks

/-- File read size and multipart part size. -/
def chunkBytes : Nat :=
  8 * 1024 * 1024

theorem chunkBytes_pos : 0 < chunkBytes := by
  decide

/-- The most parts of an upload under way at once. -/
def maxUploadParts : Nat :=
  2

/-- What publication asks of the local system and of the store. `nextPart`
awaits one of the parts under way. -/
inductive PublishRequest where
  | tempdir
  | openFile (path : String)
  | read (path : String)
  | putMultipart (key : ObjectPath)
  | nextPart (key : ObjectPath)
  | complete (key : ObjectPath) (parts : List Bytes)
  | abort (key : ObjectPath)
  | delete (key : ObjectPath)
  | copy (source target : ObjectPath)
  | head (key : ObjectPath)
  | put (key : ObjectPath) (body : Bytes)

@[reducible] def PublishResponse : PublishRequest → Type
  | .tempdir => Except (String × String) String
  | .openFile _ | .read _ => Except String Unit
  | .head _ => Except StoreError ObjectMeta
  | _ => Except StoreError Unit

abbrev Publishing := Program PublishResponse

abbrev perform (request : PublishRequest) : Publishing (PublishResponse request) :=
  ask request

/-- The arguments of one publication besides its output key, with the
contents of the local file. -/
structure Job where
  localOutput : String
  contents : Bytes
  inputKey : ObjectPath
  inputMeta : ObjectMeta
  rows : Nat
  digest : UInt64

/-- The completion record of a run for the output with this metadata. -/
def Job.record (job : Job) (outputKey : ObjectPath) (runId : String) (metadata : ObjectMeta) : CompletionManifest :=
  .ofOutput job.inputKey job.inputMeta job.rows job.digest { runId, key := outputKey, metadata }

structure RemoteStagedOutput where
  runId : String
  key : ObjectPath

def stagingKey (encoding : PartEncoding) (output : ObjectPath) (runId : String) : ObjectPath :=
  .ofText encoding (output.text ++ ".staging/" ++ runId)

def RemoteStagedOutput.new (encoding : PartEncoding) (output : ObjectPath) :
    ExceptT PipelineIoError Publishing RemoteStagedOutput := do
  let runId ← attempt (perform .tempdir) fun (path, source) => .openOutput path source
  return { runId, key := stagingKey encoding output runId }

/-- One part more may be put under way. -/
def makeRoom (key : ObjectPath) (pending : Nat) : ExceptT PipelineIoError Publishing Nat :=
  if pending = maxUploadParts then do
    attempt (perform (.nextPart key)) (.uploadObject key)
    return pending - 1
  else return pending

/-- The loop over the buffers read from the file. It ends with a buffer that
is not full, and returns how many parts are under way, and all parts. -/
def sendParts (src : String) (key : ObjectPath) :
    List Bytes → Nat → List Bytes → ExceptT PipelineIoError Publishing (Nat × List Bytes)
  | [], pending, sent => do
    let pending ← makeRoom key pending
    attempt (perform (.read src)) (.openInput src)
    return (pending, sent)
  | buffer :: buffers, pending, sent => do
    let pending ← makeRoom key pending
    attempt (perform (.read src)) (.openInput src)
    if buffer.length < chunkBytes then return (pending + 1, sent ++ [buffer])
    sendParts src key buffers (pending + 1) (sent ++ [buffer])

def awaitParts (key : ObjectPath) : Nat → ExceptT PipelineIoError Publishing Unit
  | 0 => return ()
  | pending + 1 => do
    attempt (perform (.nextPart key)) (.uploadObject key)
    awaitParts key pending

def sendAll (src : String) (contents : Bytes) (key : ObjectPath) : ExceptT PipelineIoError Publishing Unit := do
  let (pending, parts) ← sendParts src key (chunksOf chunkBytes contents) 0 []
  awaitParts key pending
  attempt (perform (.complete key parts)) (.uploadObject key)

/-- The error of an upload whose abort failed as well keeps both. -/
def aborted (source : PipelineIoError) : Except StoreError Unit → PipelineIoError
  | .ok () => source
  | .error abortSource => .multipartAbort source abortSource

def writeMultipart (src : String) (contents : Bytes) (key : ObjectPath) :
    ExceptT PipelineIoError Publishing Unit :=
  Program.bind (sendAll src contents key) fun
    | .ok () => settled (.ok ())
    | .error source => Program.bind (perform (.abort key)) fun outcome => settled (.error (aborted source outcome))

def uploadFromTemp (src : String) (contents : Bytes) (key : ObjectPath) :
    ExceptT PipelineIoError Publishing Unit := do
  attempt (perform (.openFile src)) (.openInput src)
  attempt (perform (.putMultipart key)) (.uploadObject key)
  writeMultipart src contents key

def headObject (key : ObjectPath) : ExceptT PipelineIoError Publishing ObjectMeta :=
  attempt (perform (.head key)) (.headObject key)

def putManifest (formats : Formats) (manifest : CompletionManifest) (key : ObjectPath) :
    ExceptT PipelineIoError Publishing Unit := do
  settled manifest.validate
  let body ← settled ((formats.toVec manifest).mapError .writeManifest)
  attempt (perform (.put key body)) (.uploadObject key)

/-- A missing object counts as deleted. -/
def deletion (key : ObjectPath) : Except StoreError Unit → Except PipelineIoError Unit
  | .ok () | .error (.notFound _) => .ok ()
  | .error source => .error (.deleteObject key source)

def deleteObject (key : ObjectPath) : ExceptT PipelineIoError Publishing Unit :=
  Program.bind (perform (.delete key)) fun outcome => settled (deletion key outcome)

def copyStagedObject (source target : ObjectPath) : ExceptT PipelineIoError Publishing Unit :=
  attempt (perform (.copy source target)) (.uploadObject target)

/-- A failed step, with what it leaves behind. -/
abbrev StepFailure := RemotePublicationPhase × RemotePublicationOutcome × PipelineIoError

/-- A failed `put` of the marker may have taken effect; its other errors
come before it. -/
def completionOutcome : PipelineIoError → RemotePublicationOutcome
  | .uploadObject _ _ => .completionUnknown
  | _ => .publishedWithoutCompletion

section

variable (formats : Formats) (outputKey : ObjectPath) (job : Job)

/-- The last steps of the closure of `publish`, which read and validate the
output identity and write the completion record. -/
def recordCompletion (staged : RemoteStagedOutput) : ExceptT StepFailure Publishing Unit := do
  let captured ← attempt (headObject outputKey) (.captureOutputIdentity, .publishedWithoutCompletion, ·)
  let identity ← attempt (settled (OutputIdentity.new staged.runId outputKey captured))
    (.captureOutputIdentity, .publishedWithoutCompletion, ·)
  let manifest ← attempt
    (settled (CompletionManifest.newV2 job.inputKey job.inputMeta job.rows job.digest identity))
    (.captureOutputIdentity, .publishedWithoutCompletion, ·)
  attempt (putManifest formats manifest (keyFor formats.encoding outputKey)) fun source =>
    (.writeCompletion, completionOutcome source, source)

/-- The closure of `publish`. -/
def publishStaged (staged : RemoteStagedOutput) : ExceptT StepFailure Publishing Unit := do
  attempt (uploadFromTemp job.localOutput job.contents staged.key) (.upload, .notPublished, ·)
  attempt (deleteObject (keyFor formats.encoding outputKey)) (.invalidateCompletion, .notPublished, ·)
  attempt (copyStagedObject staged.key outputKey) (.publishOutput, .publicationUnknown, ·)
  recordCompletion formats outputKey job staged

def failure (staged : RemoteStagedOutput) (phase : RemotePublicationPhase) (outcome : RemotePublicationOutcome)
    (source : PipelineIoError) (cleanupError : Option PipelineIoError) : PipelineError PipelineIoError :=
  .remotePublication
    { phase, outcome, outputKey, manifestKey := keyFor formats.encoding outputKey, stagingKey := staged.key, source,
      cleanupError }

def errorOf : Except PipelineIoError Unit → Option PipelineIoError
  | .ok () => none
  | .error error => some error

/-- The end of `publish`: the staging key of the run is removed either way. -/
def cleanup (staged : RemoteStagedOutput) : Except StepFailure Unit →
    ExceptT (PipelineError PipelineIoError) Publishing Unit
  | .error (phase, outcome, source) =>
    Program.bind (deleteObject staged.key) fun deleted =>
      settled (.error (failure formats outputKey staged phase outcome source (errorOf deleted)))
  | .ok () => attempt (deleteObject staged.key) fun source =>
      failure formats outputKey staged .cleanupStaging .completedCleanupUnknown source none

def publish : ExceptT (PipelineError PipelineIoError) Publishing Unit := do
  let staged ← attempt (RemoteStagedOutput.new formats.encoding outputKey) .io
  Program.bind (publishStaged formats outputKey job staged) (cleanup formats outputKey staged)

end

end Datacrate.Remote
