import Datacrate.Bounded.Pipeline
import Datacrate.Lib.Replacement

namespace Datacrate.Bounded

open Datacrate.Ingest
open Disk (NamedTempFile Staging)

/-- A path as the standard library splits it. -/
structure LocalPath where
  above : Option String
  fileName : String

def LocalPath.parent (output : LocalPath) : String :=
  (output.above.filter (· ≠ "")).getD "."

def stagingPrefix : String :=
  ".datacrate-"

def IsStaging (name : String) : Prop :=
  stagingPrefix.toList <+: name.toList

/-- What a run is given, and where it publishes. -/
structure LocalRun where
  env : Setting
  transform : Option Callback
  output : LocalPath

structure Owner (δ : Type) where
  run : Pipeline
  staging : Staging δ

def Owner.initial (δ : Type) : Owner δ where
  run := .initial
  staging := .absent

/-- The consumer is inside the Parquet writer. -/
def Consumer.Encodes : Consumer → Prop
  | .writing _ _ | .closing _ => True
  | _ => False

section

variable {δ β : Type} [DecidableEq δ]

/-- The entry that `rename` replaces, in the directory that both paths of the
run name. -/
def LocalRun.entry (resolve : String → δ) (job : LocalRun) : Disk.Entry δ :=
  ⟨resolve job.output.parent, job.output.fileName⟩

variable (resolve : String → δ) (encode : List RecordBatch → β) (job : LocalRun)

/-- A step of a run on the files that it shares with others. What the Parquet
writer has put to its file is known once it is closed. -/
inductive StagedStep : Disk δ β → Owner δ → Disk δ β → Owner δ → Prop
  | control {disk staging} {s t : Pipeline} {cause} : Controls job.env s cause t →
      s.main = .start ∨ s.main = .connecting ∨ s.main = .running ∨ (∃ result, s.main = .deciding result) →
      StagedStep disk ⟨s, staging⟩ disk ⟨t, staging⟩
  | thread {disk staging} {s t : Pipeline} {cause} : PipelineStep job.env job.transform s cause t →
      t.main = s.main → (s.consumer.Encodes → t.consumer = s.consumer) →
      StagedStep disk ⟨s, staging⟩ disk ⟨t, staging⟩
  | tempfile {disk} {s : Pipeline} {name empty} : s.main = .creating → IsStaging name →
      disk.files ⟨resolve job.output.parent, name⟩ = none →
      StagedStep disk ⟨s, .absent⟩ (disk.create ⟨resolve job.output.parent, name⟩ empty)
        ⟨s, .owned ⟨⟨resolve job.output.parent, name⟩, disk.created⟩⟩
  | failTempfile {disk} {s : Pipeline} {source} : s.main = .creating →
      StagedStep disk ⟨s, .absent⟩ disk
        ⟨{ s with main := .done (.error (ioFailure job.env.output .create source)) }, .absent⟩
  | failReopen {disk file} {s : Pipeline} {source} : s.main = .creating →
      StagedStep disk ⟨s, .owned file⟩ disk
        ⟨{ s with main := .done (.error (ioFailure job.env.output .create source)) }, .owned file⟩
  | failWriter {disk} {file : NamedTempFile δ} {s : Pipeline} {source content} : s.main = .creating →
      disk.files file.path = some file.file →
      StagedStep disk ⟨s, .owned file⟩ (disk.write file.file content)
        ⟨{ s with main := .done (.error (failure job.env.output .write (.writeParquet source))) }, .owned file⟩
  | create {disk} {file : NamedTempFile δ} {s : Pipeline} {content} : s.main = .creating →
      disk.files file.path = some file.file →
      StagedStep disk ⟨s, .owned file⟩ (disk.write file.file content) ⟨{ s with main := .connecting }, .owned file⟩
  | write {disk} {file : NamedTempFile δ} {s t : Pipeline} {cause report checked content} :
      s.consumer = .writing report checked → Consumes job.env job.transform s cause t →
      StagedStep disk ⟨s, .owned file⟩ (disk.write file.file content) ⟨t, .owned file⟩
  | close {disk} {file : NamedTempFile δ} {s : Pipeline} {report} : s.consumer = .closing report →
      StagedStep disk ⟨s, .owned file⟩ (disk.write file.file (encode s.written))
        ⟨{ s with consumer := .unwinding (.ok report), closed := true }, .owned file⟩
  | failClose {disk} {file : NamedTempFile δ} {s : Pipeline} {report source content} : s.consumer = .closing report →
      StagedStep disk ⟨s, .owned file⟩ (disk.write file.file content)
        ⟨{ s with consumer := .unwinding (.error (failure job.env.output .close (.writeParquet source))) }, .owned file⟩
  | sync {disk} {file : NamedTempFile δ} {s : Pipeline} {report} : s.main = .syncing report →
      StagedStep disk ⟨s, .owned file⟩ (disk.sync file.file) ⟨{ s with main := .renaming report }, .owned file⟩
  | failSync {disk file} {s : Pipeline} {report source} : s.main = .syncing report →
      StagedStep disk ⟨s, .owned file⟩ disk
        ⟨{ s with main := .done (.error (ioFailure job.env.output .fileSync source)) }, .owned file⟩
  | rename {disk} {file : NamedTempFile δ} {s : Pipeline} {report n} : s.main = .renaming report →
      disk.files file.path = some n →
      StagedStep disk ⟨s, .owned file⟩ (disk.rename file.path (job.entry resolve))
        ⟨{ s with main := .syncingParent report, published := some (s.written, s.closed) }, .persisted file.file⟩
  | failRename {disk file} {s : Pipeline} {report source} : s.main = .renaming report →
      StagedStep disk ⟨s, .owned file⟩ disk
        ⟨{ s with main := .done (.error (ioFailure job.env.output .rename source)) }, .owned file⟩
  | publish {disk n} {s : Pipeline} {report} : s.main = .syncingParent report →
      StagedStep disk ⟨s, .persisted n⟩ (disk.syncDirectory (resolve job.output.parent))
        ⟨{ s with main := .done (.ok report) }, .persisted n⟩
  | failParent {disk n} {s : Pipeline} {report source} : s.main = .syncingParent report →
      StagedStep disk ⟨s, .persisted n⟩ disk
        ⟨{ s with main := .done (.error (ioFailure job.env.output .parentSync source)) }, .persisted n⟩
  | drop {disk} {file : NamedTempFile δ} {s : Pipeline} : (∃ result, s.main = .done result) ∨ s.main = .panicked →
      StagedStep disk ⟨s, .owned file⟩ (disk.remove file.path) ⟨s, .dropped file true⟩
  | failDrop {disk file} {s : Pipeline} : (∃ result, s.main = .done result) ∨ s.main = .panicked →
      StagedStep disk ⟨s, .owned file⟩ disk ⟨s, .dropped file false⟩

end

section Refinement

variable {δ β : Type} [DecidableEq δ] {resolve : String → δ} {encode : List RecordBatch → β} {job : LocalRun}
  {disk disk' : Disk δ β} {owner owner' : Owner δ}

/-- On shared files a run does what it does on its own. -/
theorem StagedStep.refines (step : StagedStep resolve encode job disk owner disk' owner') :
    owner'.run = owner.run ∨ PipelineMoves job.env job.transform owner.run owner'.run := by
  cases step with
  | tempfile | drop | failDrop => exact Or.inl rfl
  | control moved => exact Or.inr ⟨_, .control moved⟩
  | thread moved => exact Or.inr ⟨_, moved⟩
  | write _ moved => exact Or.inr ⟨_, .consume moved⟩
  | failTempfile creating | failReopen creating => exact Or.inr ⟨_, .control (.failCreate creating)⟩
  | failWriter creating => exact Or.inr ⟨_, .control (.failWriter creating)⟩
  | create creating => exact Or.inr ⟨_, .control (.create creating)⟩
  | close closing => exact Or.inr ⟨_, .consume (.close closing)⟩
  | failClose closing => exact Or.inr ⟨_, .consume (.failClose closing)⟩
  | sync syncing => exact Or.inr ⟨_, .control (.sync syncing)⟩
  | failSync syncing => exact Or.inr ⟨_, .control (.failSync syncing)⟩
  | rename moving => exact Or.inr ⟨_, .control (.rename moving)⟩
  | failRename moving => exact Or.inr ⟨_, .control (.failRename moving)⟩
  | publish syncing => exact Or.inr ⟨_, .control (.publish syncing)⟩
  | failParent syncing => exact Or.inr ⟨_, .control (.failParent syncing)⟩

theorem StagedStep.handles (step : StagedStep resolve encode job disk owner disk' owner') :
    Disk.Handling IsStaging (job.entry resolve) disk owner.staging disk' owner'.staging := by
  cases step with
  | tempfile _ granted vacant => exact .begin granted vacant
  | failWriter | create | write | close | failClose => exact .write
  | sync => exact .sync
  | «rename» => exact .rename
  | publish => exact .settle
  | drop => exact .drop
  | failDrop => exact .abandon
  | control | thread | failTempfile | failReopen | failSync | failRename | failParent => exact .quiet

end Refinement

end Datacrate.Bounded
