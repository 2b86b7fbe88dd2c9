import Datacrate.Remote.Errors

namespace Datacrate.Bounded

open Datacrate.Remote

/-- The local operation that failed before or during publication. -/
inductive LocalPublicationPhase where
  | create
  | write
  | close
  | fileSync
  | rename
  | parentSync
  deriving DecidableEq, Repr

/-- What is known about final-path visibility after a local error. -/
inductive LocalPublicationOutcome where
  | notPublished
  | publishedDurabilityUncertain
  deriving DecidableEq, Repr

/-- Errors of the bounded pipeline, over the errors `ε` of its reader and
writer. -/
inductive PipelineError (ε : Type) where
  | remotePublication (error : RemotePublicationError ε)
  | localPublication (phase : LocalPublicationPhase) (outcome : LocalPublicationOutcome) (output : String)
      (source : ε)
  | batchTooLarge (bytes limit : Nat)
  | batchGrowthExceedsBudget (bytes available : Nat)
  | byteChargeOverflow
  | io (source : ε)
  | cancelled
  deriving DecidableEq, Repr

end Datacrate.Bounded
