import Datacrate.Ingest.Batch

namespace Datacrate.Remote

open Datacrate.Ingest

/-- The metadata of an object. Times are kept as their RFC 3339 texts. -/
structure ObjectMeta where
  location : ObjectPath
  lastModified : String
  size : UInt64
  eTag : Option String
  version : Option String
  deriving DecidableEq, Repr

/-- Unicode white space. -/
def isWhitespace (char : Char) : Bool :=
  let code := char.toNat
  (9 ≤ code && code ≤ 13) || code == 0x20 || code == 0x85 || code == 0xA0 || code == 0x1680 ||
    (0x2000 ≤ code && code ≤ 0x200A) || code == 0x2028 || code == 0x2029 || code == 0x202F || code == 0x205F ||
    code == 0x3000

/-- Trimming leaves nothing of the text. -/
def blank (text : String) : Bool :=
  text.toList.all isWhitespace

/-- Reported row count, an order-independent fingerprint and input metadata. -/
structure CompletionManifest where
  schemaVersion : Nat
  inputKey : String
  inputSize : UInt64
  inputETag : Option String
  inputLastModified : String
  rowCount : Nat
  contentDigest : String
  runId : Option String
  inputVersion : Option String
  outputKey : Option String
  outputETag : Option String
  outputVersion : Option String
  digestScheme : Option String
  deriving DecidableEq, Repr

/-- What comes from the store's key type and from the JSON library. -/
structure Formats where
  encoding : PartEncoding
  toVec : CompletionManifest → Except String Bytes
  fromSlice : Bytes → Except String CompletionManifest
  roundTrip : ∀ manifest bytes, toVec manifest = .ok bytes → fromSlice bytes = .ok manifest

def legacyDigestScheme : String :=
  "legacy-ahash-wrapping-sum-v1"

structure OutputIdentity where
  runId : String
  key : ObjectPath
  metadata : ObjectMeta

def OutputIdentity.new (runId : String) (key : ObjectPath) (metadata : ObjectMeta) :
    Except PipelineIoError OutputIdentity :=
  if metadata.location ≠ key then .error (.invalidSnapshot key .location)
  else if metadata.version.all blank && metadata.eTag.all blank then .error (.invalidSnapshot key .missingIdentity)
  else .ok { runId, key, metadata }

def required (value : Option String) (violation : ManifestViolation) : Except PipelineIoError Unit :=
  if value.all blank then .error (.invalidManifest violation) else .ok ()

def CompletionManifest.validate (manifest : CompletionManifest) : Except PipelineIoError Unit :=
  if manifest.schemaVersion = 1 then .ok ()
  else if manifest.schemaVersion = 2 then do
    required manifest.runId .missingRunId
    required manifest.outputKey .missingOutputKey
    if manifest.outputETag.isNone && manifest.outputVersion.isNone then
      throw (.invalidManifest .missingOutputIdentity)
    if manifest.outputETag.any blank || manifest.outputVersion.any blank then
      throw (.invalidManifest .emptyOutputIdentity)
    required manifest.digestScheme .missingDigestScheme
    if manifest.digestScheme ≠ some legacyDigestScheme then
      throw (.unsupportedDigestScheme (manifest.digestScheme.getD ""))
  else .error (.unsupportedManifestVersion manifest.schemaVersion)

def hexDigit (digit : Nat) : Char :=
  if digit < 10 then Char.ofNat ('0'.toNat + digit) else Char.ofNat ('a'.toNat + (digit - 10))

/-- Sixteen lowercase hexadecimal digits. -/
def digestText (digest : UInt64) : String :=
  String.ofList ((List.range 16).map fun i => hexDigit (digest.toNat / 16 ^ (15 - i) % 16))

def CompletionManifest.new (inputKey : ObjectPath) (inputMeta : ObjectMeta) (rowCount : Nat)
    (contentDigest : UInt64) : CompletionManifest where
  schemaVersion := 1
  inputKey := inputKey.text
  inputSize := inputMeta.size
  inputETag := inputMeta.eTag
  inputLastModified := inputMeta.lastModified
  rowCount := rowCount
  contentDigest := digestText contentDigest
  runId := none
  inputVersion := none
  outputKey := none
  outputETag := none
  outputVersion := none
  digestScheme := none

/-- The record of a run, before its own check. -/
def CompletionManifest.ofOutput (inputKey : ObjectPath) (inputMeta : ObjectMeta) (rowCount : Nat)
    (contentDigest : UInt64) (output : OutputIdentity) : CompletionManifest :=
  { CompletionManifest.new inputKey inputMeta rowCount contentDigest with
    schemaVersion := 2
    runId := some output.runId
    inputVersion := inputMeta.version
    outputKey := some output.key.text
    outputETag := output.metadata.eTag.filter (!blank ·)
    outputVersion := output.metadata.version.filter (!blank ·)
    digestScheme := some legacyDigestScheme }

def CompletionManifest.newV2 (inputKey : ObjectPath) (inputMeta : ObjectMeta) (rowCount : Nat)
    (contentDigest : UInt64) (output : OutputIdentity) : Except PipelineIoError CompletionManifest := do
  let manifest := CompletionManifest.ofOutput inputKey inputMeta rowCount contentDigest output
  manifest.validate
  return manifest

def decodeCompletionManifest (formats : Formats) (bytes : Bytes) : Except PipelineIoError CompletionManifest := do
  let manifest ← (formats.fromSlice bytes).mapError .readManifest
  manifest.validate
  return manifest

/-- The manifest's own key for an output key. -/
def keyFor (encoding : PartEncoding) (outputKey : ObjectPath) : ObjectPath :=
  .ofText encoding (outputKey.text ++ ".manifest.json")

theorem OutputIdentity.new_ok {runId : String} {key : ObjectPath} {metadata : ObjectMeta} {identity : OutputIdentity}
    (made : OutputIdentity.new runId key metadata = .ok identity) :
    identity = { runId, key, metadata } ∧ (metadata.version.all blank = false ∨ metadata.eTag.all blank = false) := by
  unfold OutputIdentity.new at made
  split at made
  · cases made
  split at made
  · cases made
  · rename_i identified
    rw [Bool.and_eq_true, not_and_or, Bool.not_eq_true, Bool.not_eq_true] at identified
    exact ⟨(Except.ok.inj made).symm, identified⟩

theorem CompletionManifest.newV2_ok {inputKey : ObjectPath} {inputMeta : ObjectMeta} {rowCount : Nat}
    {contentDigest : UInt64} {output : OutputIdentity} {manifest : CompletionManifest}
    (made : newV2 inputKey inputMeta rowCount contentDigest output = .ok manifest) :
    manifest = ofOutput inputKey inputMeta rowCount contentDigest output ∧ manifest.validate = .ok () := by
  unfold newV2 at made
  rcases valid : (ofOutput inputKey inputMeta rowCount contentDigest output).validate with error | done
  · simp [valid, bind, Except.bind] at made
  · simp only [valid, bind, Except.bind, pure, Except.pure, Except.ok.injEq] at made
    exact ⟨made.symm, made ▸ valid⟩

/-- A text is kept when it is not blank. -/
theorem usable_eq_some_iff {text : Option String} {value : String} :
    text.filter (!blank ·) = some value ↔ text = some value ∧ blank value = false := by
  rw [Option.filter_eq_some_iff, Bool.not_eq_true']

theorem usable_eq_none_iff {text : Option String} : text.filter (!blank ·) = none ↔ text.all blank = true := by
  cases text with
  | none => exact iff_of_true rfl rfl
  | some value => simp [Option.filter]

theorem ne_empty_of_not_blank {value : String} (solid : blank value = false) : value ≠ "" := by
  rintro rfl
  cases solid

/-- A valid record of version 2 names an output version or an ETag, and
neither is blank. -/
theorem CompletionManifest.validate_identity {manifest : CompletionManifest} (valid : manifest.validate = .ok ())
    (two : manifest.schemaVersion = 2) :
    (∀ version, manifest.outputVersion = some version → blank version = false) ∧
      (∀ eTag, manifest.outputETag = some eTag → blank eTag = false) ∧
      (manifest.outputVersion = none → ∃ eTag, manifest.outputETag = some eTag) := by
  unfold validate at valid
  rw [if_neg (by omega), if_pos two] at valid
  simp only [required, bind, Except.bind] at valid
  split at valid
  · cases valid
  split at valid
  · cases valid
  split at valid
  · cases valid
  rename_i identified
  split at valid
  · cases valid
  rename_i named
  simp only [Bool.and_eq_true, Option.isNone_iff_eq_none, not_and, Bool.or_eq_true, not_or] at identified named
  refine ⟨fun version same => ?_, fun eTag same => ?_, fun missing => ?_⟩
  · simpa [same] using named.2
  · simpa [same] using named.1
  · exact Option.ne_none_iff_exists'.mp fun none => identified none missing

theorem decodeCompletionManifest_ok {formats : Formats} {bytes : Bytes} {manifest : CompletionManifest}
    (decoded : decodeCompletionManifest formats bytes = .ok manifest) :
    formats.fromSlice bytes = .ok manifest ∧ manifest.validate = .ok () := by
  unfold decodeCompletionManifest at decoded
  rcases read : formats.fromSlice bytes with error | raw
  · simp [read, bind, Except.bind, Except.mapError] at decoded
  rcases valid : raw.validate with error | done
  · simp [read, valid, bind, Except.bind, Except.mapError] at decoded
  · simp only [read, valid, bind, Except.bind, Except.mapError, pure, Except.pure, Except.ok.injEq] at decoded
    exact ⟨congrArg Except.ok decoded, decoded ▸ valid⟩

end Datacrate.Remote
