import Datacrate.Remote.Path

namespace Datacrate.Remote

abbrev Bytes := List UInt8

/-- An error of the object store, with its text. -/
inductive StoreError where
  | notFound (source : String)
  | precondition (source : String)
  | notModified (source : String)
  | other (source : String)
  deriving DecidableEq, Repr

/-- A half-open range of an object's bytes. -/
structure ByteRange where
  start : UInt64
  stop : UInt64
  deriving DecidableEq, Repr

/-- A conditional download response did not match the captured object. -/
inductive SnapshotViolation where
  | missingIdentity
  | location
  | identity
  | size (expected actual : UInt64)
  | range (expected actual : ByteRange)
  | length (expected actual : UInt64)
  deriving DecidableEq, Repr

/-- A missing required version-2 completion field. -/
inductive ManifestViolation where
  | outputKeyMismatch
  | missingRunId
  | missingOutputKey
  | missingOutputIdentity
  | emptyOutputIdentity
  | missingDigestScheme
  deriving DecidableEq, Repr

/-- The remote operation at which publication failed. -/
inductive RemotePublicationPhase where
  | upload
  | invalidateCompletion
  | publishOutput
  | captureOutputIdentity
  | writeCompletion
  | cleanupStaging
  deriving DecidableEq, Repr

/-- What is known about final output and completion after an error. -/
inductive RemotePublicationOutcome where
  | notPublished
  | publicationUnknown
  | publishedWithoutCompletion
  | completionUnknown
  | completedCleanupUnknown
  deriving DecidableEq, Repr

/-- Recovery information with the primary error and that of the cleanup. -/
structure RemotePublicationError (ε : Type) where
  phase : RemotePublicationPhase
  outcome : RemotePublicationOutcome
  outputKey : ObjectPath
  manifestKey : ObjectPath
  stagingKey : ObjectPath
  source : ε
  cleanupError : Option ε
  deriving DecidableEq, Repr

end Datacrate.Remote
