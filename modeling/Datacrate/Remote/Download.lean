import Datacrate.Lib.Usize
import Datacrate.Remote.Publish

namespace Datacrate.Remote

open Datacrate.Ingest Interaction Usize

/-- What a `get_opts` request asks for. -/
structure GetOptions where
  range : Option ByteRange
  version : Option String
  ifMatch : Option String
  head : Bool
  deriving DecidableEq, Repr

/-- A piece of a response body. -/
structure Chunk where
  bytes : Bytes
  fits : bytes.length < Usize.range

/-- A response, with the pieces its body comes in. -/
structure GetResult where
  metadata : ObjectMeta
  range : ByteRange
  body : List (Except StoreError Chunk)

/-- What a download asks of the local system and of the store. -/
inductive DownloadRequest where
  | create (dest : String)
  | head (key : ObjectPath)
  | get (key : ObjectPath)
  | getOpts (key : ObjectPath) (options : GetOptions)
  | writeAll (dest : String) (chunk : Bytes)

@[reducible] def DownloadResponse : DownloadRequest → Type
  | .create _ | .writeAll _ _ => Except String Unit
  | .head _ => Except StoreError ObjectMeta
  | .get _ | .getOpts _ _ => Except StoreError GetResult

abbrev Downloading := Program DownloadResponse

abbrev fetch (request : DownloadRequest) : Downloading (DownloadResponse request) :=
  ask request

def invalid {α : Type} (key : ObjectPath) (violation : SnapshotViolation) : Except PipelineIoError α :=
  .error (.invalidSnapshot key violation)

/-- A failed read condition has its own error. -/
def downloadError (key : ObjectPath) : StoreError → PipelineIoError
  | .precondition source => .snapshotPrecondition key (.precondition source)
  | .notModified source => .snapshotPrecondition key (.notModified source)
  | source => .downloadObject key source

/-- A version counts before an ETag. -/
def identityMatches (version eTag : Option String) (metadata : ObjectMeta) : Bool :=
  match version with
  | some version => metadata.version = some version
  | none => metadata.eTag = eTag

/-- The end of the range that starts here. -/
def rangeEnd (size offset : UInt64) : UInt64 :=
  min size (saturatingAdd offset (UInt64.ofNat chunkBytes))

theorem toNat_rangeEnd (size offset : UInt64) :
    (rangeEnd size offset).toNat = min size.toNat (offset.toNat + chunkBytes) := by
  have bound := size.toNat_lt
  have chunk : (UInt64.ofNat chunkBytes).toNat = chunkBytes := by decide
  unfold rangeEnd
  rw [toNat_min, toNat_saturatingAdd, chunk]
  unfold Usize.range
  omega

section

variable (key : ObjectPath) (dest : String)

/-- The checks of a response before its body is read. -/
def checkResponse (captured : ObjectMeta) (version eTag : Option String) (requested : ByteRange)
    (response : GetResult) : Except PipelineIoError Unit :=
  if response.metadata.location ≠ key then invalid key .location
  else if response.metadata.size ≠ captured.size then invalid key (.size captured.size response.metadata.size)
  else if ¬ identityMatches version eTag response.metadata then invalid key .identity
  else if response.range ≠ requested then invalid key (.range requested response.range)
  else .ok ()

/-- The loop over the pieces of a body. -/
def writeBody (expected : UInt64) :
    List (Except StoreError Chunk) → UInt64 → ExceptT PipelineIoError Downloading Unit
  | [], received =>
    if received ≠ expected then settled (invalid key (.length expected received)) else return ()
  | piece :: body, received => do
    let chunk ← attempt (settled piece) (.downloadObject key)
    let received := saturatingAdd received (UInt64.ofNat chunk.bytes.length)
    if expected < received then settled (invalid key (.length expected received))
    else
      attempt (fetch (.writeAll dest chunk.bytes)) (.openOutput dest)
      writeBody expected body received

/-- One round of the loop over the ranges. -/
def downloadRange (captured : ObjectMeta) (version eTag : Option String) (requested : ByteRange) :
    ExceptT PipelineIoError Downloading Unit := do
  let options :=
    { range := some requested, version, ifMatch := if version.isNone then eTag else none, head := false }
  let response ← attempt (fetch (.getOpts key options)) (downloadError key)
  settled (checkResponse key captured version eTag requested response)
  writeBody key dest (requested.stop - requested.start) response.body 0

def downloadRanges (captured : ObjectMeta) (version eTag : Option String) (offset : UInt64) :
    ExceptT PipelineIoError Downloading Unit :=
  if _ : offset < captured.size then do
    downloadRange key dest captured version eTag { start := offset, stop := rangeEnd captured.size offset }
    downloadRanges captured version eTag (rangeEnd captured.size offset)
  else return ()
termination_by captured.size.toNat - offset.toNat
decreasing_by
  rename_i more
  rw [UInt64.lt_iff_toNat_lt] at more
  rw [toNat_rangeEnd]
  have chunk := chunkBytes_pos
  omega

def downloadCaptured (captured : ObjectMeta) : ExceptT PipelineIoError Downloading ObjectMeta :=
  if captured.location ≠ key then settled (invalid key .location)
  else
    let version := captured.version.filter (· ≠ "")
    let eTag := captured.eTag.filter (· ≠ "")
    if version.isNone && eTag.isNone then settled (invalid key .missingIdentity)
    else do
      downloadRanges key dest captured version eTag 0
      return captured

def downloadToTemp : ExceptT PipelineIoError Downloading ObjectMeta := do
  attempt (fetch (.create dest)) (.openOutput dest)
  let captured ← attempt (fetch (.head key)) (.downloadObject key)
  downloadCaptured key dest captured

end

/-- The whole of a response body. -/
def GetResult.bytes (response : GetResult) : Except StoreError Bytes :=
  (response.body.mapM id).map fun chunks => (chunks.map Chunk.bytes).flatten

def downloadCompletedOutput (formats : Formats) (outputKey : ObjectPath) (dest : String) :
    ExceptT PipelineIoError Downloading CompletionManifest := do
  let manifestKey := keyFor formats.encoding outputKey
  let response ← attempt (fetch (.get manifestKey)) (.downloadObject manifestKey)
  let bytes ← attempt (settled response.bytes) (.downloadObject manifestKey)
  let manifest ← settled (decodeCompletionManifest formats bytes)
  if manifest.schemaVersion ≠ 2 then settled (.error (.completionIdentityRequired manifest.schemaVersion))
  else if manifest.outputKey ≠ some outputKey.text then settled (.error (.invalidManifest .outputKeyMismatch))
  else
    let version := manifest.outputVersion
    let eTag := manifest.outputETag
    let options := { range := none, version, ifMatch := if version.isNone then eTag else none, head := true }
    let captured ← attempt (fetch (.getOpts outputKey options)) (downloadError outputKey)
    if ¬ identityMatches version eTag captured.metadata then settled (invalid outputKey .identity)
    else
      attempt (fetch (.create dest)) (.openOutput dest)
      let _ ← downloadCaptured outputKey dest captured.metadata
      return manifest

end Datacrate.Remote
