import Datacrate.Lib.Requests
import Datacrate.Remote.Download
import Datacrate.Remote.Json

namespace Datacrate.Remote

open Datacrate.Ingest Interaction

/-- The metadata request for exactly this object: by its version unless that
is blank, and otherwise by its ETag. -/
def ObjectMeta.Requested (metadata : ObjectMeta) (options : GetOptions) : Prop :=
  (∃ version, metadata.version = some version ∧ blank version = false ∧
    options = { range := none, version := some version, ifMatch := none, head := true }) ∨
  (metadata.version.all blank = true ∧ ∃ eTag, metadata.eTag = some eTag ∧ blank eTag = false ∧
    options = { range := none, version := none, ifMatch := some eTag, head := true })

/-- The options a reader of this record makes its metadata request with. -/
def CompletionManifest.metadataOptions (manifest : CompletionManifest) : GetOptions where
  range := none
  version := manifest.outputVersion
  ifMatch := if manifest.outputVersion.isNone then manifest.outputETag else none
  head := true

theorem decode_written {formats : Formats} {manifest : CompletionManifest} {bytes : Bytes}
    (valid : manifest.validate = .ok ()) (wrote : formats.toVec manifest = .ok bytes) :
    decodeCompletionManifest formats bytes = .ok manifest := by
  rw [decodeCompletionManifest, formats.roundTrip manifest bytes wrote]
  show (manifest.validate >>= fun _ => pure manifest) = .ok manifest
  rw [valid]
  rfl

/-- Whatever is put as a manifest can be read as that manifest. -/
theorem putManifest_issues (formats : Formats) (manifest : CompletionManifest) (key : ObjectPath) :
    Program.Issues (fun request => ∃ body, request = .put key body ∧
      decodeCompletionManifest formats body = .ok manifest) (putManifest formats manifest key) := by
  unfold putManifest
  cases valid : manifest.validate with
  | error failure => trivial
  | ok =>
    cases wrote : formats.toVec manifest with
    | error failure => trivial
    | ok body =>
      exact .attempt (.ask ⟨body, rfl, decode_written valid wrote⟩)

/-- The identity of an output with a run id and a key makes a valid record. -/
theorem ofOutput_validate {inputKey : ObjectPath} {inputMeta : ObjectMeta} {rows : Nat} {digest : UInt64}
    {output : OutputIdentity} (run : blank output.runId = false) (named : blank output.key.text = false)
    (identified : output.metadata.version.all blank = false ∨ output.metadata.eTag.all blank = false) :
    (CompletionManifest.ofOutput inputKey inputMeta rows digest output).validate = .ok () := by
  have unmatched : ((output.metadata.eTag.filter (!blank ·)).isNone &&
      (output.metadata.version.filter (!blank ·)).isNone) = false := by
    rw [Bool.and_eq_false_iff, ← Bool.not_eq_true, ← Bool.not_eq_true, Option.isNone_iff_eq_none,
      Option.isNone_iff_eq_none, usable_eq_none_iff, usable_eq_none_iff, Bool.not_eq_true, Bool.not_eq_true]
    exact identified.symm
  have solid : ∀ value : Option String, (value.filter (!blank ·)).any blank = false := by
    intro value
    cases usable : value.filter (!blank ·) with
    | none => rfl
    | some text => exact (usable_eq_some_iff.mp usable).2
  have scheme : blank legacyDigestScheme = false := by decide
  simp only [CompletionManifest.validate, CompletionManifest.ofOutput, required, Option.all_some, run, named,
    unmatched, solid, scheme]
  rfl

theorem newV2_succeeds {inputKey : ObjectPath} {inputMeta : ObjectMeta} {rows : Nat} {digest : UInt64}
    {output : OutputIdentity}
    (valid : (CompletionManifest.ofOutput inputKey inputMeta rows digest output).validate = .ok ()) :
    CompletionManifest.newV2 inputKey inputMeta rows digest output =
      .ok (CompletionManifest.ofOutput inputKey inputMeta rows digest output) := by
  rw [CompletionManifest.newV2, valid]
  rfl

/-- A reader that gets a record of version 2 for its key asks next for the
metadata of the recorded identity. -/
theorem downloadCompletedOutput_requests {formats : Formats} {key : ObjectPath} {dest : String}
    {manifest : CompletionManifest} {response : GetResult} {bytes : Bytes} (read : response.bytes = .ok bytes)
    (decoded : decodeCompletionManifest formats bytes = .ok manifest) (version : manifest.schemaVersion = 2)
    (named : manifest.outputKey = some key.text) :
    ∃ rest, Traces (downloadCompletedOutput formats key dest)
      [⟨.get (keyFor formats.encoding key), .ok response⟩]
      (.call (.getOpts key manifest.metadataOptions) rest) := by
  unfold downloadCompletedOutput
  refine Exists.imp (fun rest same => Traces.single same) ?_
  simp only [read, attempt, settled, Program.bind, Except.mapError, bind, ExceptT.bind, ExceptT.mk, ExceptT.bindCont,
    decoded, if_neg (not_not.mpr version), if_neg (not_not.mpr named)]
  exact ⟨_, rfl⟩

theorem ofOutput_requested {inputKey : ObjectPath} {inputMeta : ObjectMeta} {rows : Nat} {digest : UInt64}
    {output : OutputIdentity}
    (identified : output.metadata.version.all blank = false ∨ output.metadata.eTag.all blank = false) :
    output.metadata.Requested (CompletionManifest.ofOutput inputKey inputMeta rows digest output).metadataOptions := by
  cases versioned : output.metadata.version.filter (!blank ·) with
  | some version =>
    obtain ⟨same, solid⟩ := usable_eq_some_iff.mp versioned
    refine .inl ⟨version, same, solid, ?_⟩
    simp only [CompletionManifest.metadataOptions, CompletionManifest.ofOutput, versioned]
    rfl
  | none =>
    have unversioned := usable_eq_none_iff.mp versioned
    cases tagged : output.metadata.eTag.filter (!blank ·) with
    | some eTag =>
      obtain ⟨same, solid⟩ := usable_eq_some_iff.mp tagged
      refine .inr ⟨unversioned, eTag, same, solid, ?_⟩
      simp only [CompletionManifest.metadataOptions, CompletionManifest.ofOutput, versioned, tagged]
      rfl
    | none =>
      rw [unversioned, usable_eq_none_iff.mp tagged] at identified
      cases identified with
      | inl other => cases other
      | inr other => cases other

/-- What is written as a manifest is read as it, in either version. The record
of an accepted identity is made, read, and taken for the output it names, and
the reader then asks for exactly the recorded object. -/
theorem manifest_agreement (encoding : PartEncoding) (json : JsonLibrary) :
    (∀ manifest bytes, manifest.validate = .ok () → (Formats.ofJson encoding json).toVec manifest = .ok bytes →
      decodeCompletionManifest (.ofJson encoding json) bytes = .ok manifest) ∧
    (∀ manifest key, Program.Issues (fun request => ∃ body, request = .put key body ∧
      decodeCompletionManifest (.ofJson encoding json) body = .ok manifest)
      (putManifest (.ofJson encoding json) manifest key)) ∧
    ∀ runId key metadata identity inputKey inputMeta rows digest,
      OutputIdentity.new runId key metadata = .ok identity → blank runId = false → blank key.text = false →
      ∃ manifest, CompletionManifest.newV2 inputKey inputMeta rows digest identity = .ok manifest ∧
        manifest.schemaVersion = 2 ∧ manifest.outputKey = some key.text ∧
        ∀ bytes, (Formats.ofJson encoding json).toVec manifest = .ok bytes →
          decodeCompletionManifest (.ofJson encoding json) bytes = .ok manifest ∧
          ∀ response dest, response.bytes = .ok bytes → ∃ options rest, metadata.Requested options ∧
            Traces (downloadCompletedOutput (.ofJson encoding json) key dest)
              [⟨.get (keyFor encoding key), .ok response⟩] (.call (.getOpts key options) rest) := by
  refine ⟨fun manifest bytes => decode_written, fun manifest key => putManifest_issues _ manifest key, ?_⟩
  intro runId key metadata identity inputKey inputMeta rows digest made run named
  obtain ⟨rfl, identified⟩ := OutputIdentity.new_ok made
  have valid := @ofOutput_validate inputKey inputMeta rows digest ⟨runId, key, metadata⟩ run named identified
  refine ⟨_, newV2_succeeds valid, rfl, rfl, fun bytes wrote => ?_⟩
  have decoded := decode_written valid wrote
  refine ⟨decoded, fun response dest arrived => ?_⟩
  obtain ⟨rest, asked⟩ := @downloadCompletedOutput_requests _ key dest _ response _ arrived decoded rfl rfl
  exact ⟨_, rest, @ofOutput_requested inputKey inputMeta rows digest ⟨runId, key, metadata⟩ identified, asked⟩

/-- The record of a small output is made, written as JSON text and read
back. -/
theorem output_handed_over : ∃ identity manifest bytes,
    OutputIdentity.new "datacrate-run-1" ⟨["output.parquet"], by decide⟩
      ⟨⟨["output.parquet"], by decide⟩, "1970-01-01T00:00:00+00:00", 4, some "e", none⟩ = .ok identity ∧
    CompletionManifest.newV2 ⟨["input.csv"], by decide⟩
      ⟨⟨["input.csv"], by decide⟩, "1970-01-01T00:00:00+00:00", 27, none, some "v"⟩ 2 7 identity = .ok manifest ∧
    (Formats.plain percentEncoding).toVec manifest = .ok bytes ∧
    decodeCompletionManifest (.plain percentEncoding) bytes = .ok manifest := by
  have agreement := manifest_agreement percentEncoding jsonText
  have named : OutputIdentity.new "datacrate-run-1" ⟨["output.parquet"], by decide⟩
      ⟨⟨["output.parquet"], by decide⟩, "1970-01-01T00:00:00+00:00", 4, some "e", none⟩ = .ok _ := rfl
  obtain ⟨manifest, made, version, _, read⟩ := agreement.2.2 _ _ _ _ ⟨["input.csv"], by decide⟩
    ⟨⟨["input.csv"], by decide⟩, "1970-01-01T00:00:00+00:00", 27, none, some "v"⟩ 2 7 named (by decide) (by decide)
  obtain ⟨same, _⟩ := CompletionManifest.newV2_ok made
  have sized : manifest.Sized := ⟨by rw [version]; decide, by rw [same]; decide⟩
  obtain ⟨bytes, wrote⟩ := @Formats.plain_writes percentEncoding manifest sized
  exact ⟨_, manifest, bytes, named, made, wrote, (read bytes wrote).1⟩

end Datacrate.Remote
