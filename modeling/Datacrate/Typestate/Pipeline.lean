import Datacrate.Arrow.Conformance
import Datacrate.Lib.Requests
import Datacrate.Lib.Usize

namespace Datacrate.Typestate

open Contracts (TypeShape conforms)
open Arrow Interaction

/-- The operation whose preflight, callback or output validation failed. -/
inductive Stage where
  | sourceFactory
  | source
  | transform (index : Nat)
  | sink
  deriving DecidableEq, Repr

inductive Failure (ε : Type) where
  | mapping (error : MappingError)
  | validation (error : BatchValidationError)
  | callback (error : ε)
  | countOverflow

/-- A failure with its stage and the index of the input batch, which is
absent during preflight and the opening of the source. -/
structure ContractPipelineError (ε : Type) where
  stage : Stage
  batchIndex : Option Nat
  failure : Failure ε

/-- The callbacks of a pipeline. `next` pulls the input iterator. -/
inductive Call (α : Type) where
  | openSource
  | next
  | transform (index : Nat) (batch : RecordBatch α)
  | sink (batch : RecordBatch α)

@[reducible] def Answer (α ε : Type) : Call α → Type
  | .openSource | .sink _ => Except ε Unit
  | .next => Option (Except ε (RecordBatch α))
  | .transform _ _ => Except ε (RecordBatch α)

section

variable {α ε : Type}

abbrev Running (α ε : Type) := ExceptT (ContractPipelineError ε) (Program (Answer α ε))

abbrev invoke (call : Call α) : Program (Answer α ε) (Answer α ε call) :=
  ask call

def prepare (made : Except MappingError BatchValidator) (stage : Stage) :
    Except (ContractPipelineError ε) BatchValidator :=
  made.mapError fun error => ⟨stage, none, .mapping error⟩

def validate (validator : BatchValidator) (batch : RecordBatch α) (stage : Stage) (index : Nat) :
    Except (ContractPipelineError ε) Unit :=
  (validator.validate batch).mapError fun error => ⟨stage, some index, .validation error⟩

/-- A source followed by transforms, by what they declare to return. -/
structure Plan where
  source : TypeShape
  transforms : List TypeShape

/-- The declared outputs in order. -/
def Plan.declared (plan : Plan) : List TypeShape :=
  plan.source :: plan.transforms

/-- The last declaration, which the next stage must accept. -/
def Plan.declaration (plan : Plan) : TypeShape :=
  plan.transforms.getLastD plan.source

/-- A plan is built only along connections that conform. -/
inductive ContractPipeline : Plan → Prop
  | source (shape : TypeShape) : ContractPipeline ⟨shape, []⟩
  | transform {plan : Plan} (input output : TypeShape) : ContractPipeline plan →
      conforms plan.declaration input .exactOrdered = true →
      ContractPipeline ⟨plan.source, plan.transforms ++ [output]⟩

/-- A terminal sink whose declaration conforms to the last output. -/
structure ContractSink where
  plan : Plan
  pipeline : ContractPipeline plan
  sink : TypeShape
  conforming : conforms plan.declaration sink .exactOrdered = true

/-- A preflighted pipeline. The callbacks are the environment's. -/
structure PreparedPipeline where
  sourceValidator : BatchValidator
  transforms : List BatchValidator

def prepareTransforms : Nat → List TypeShape → Except (ContractPipelineError ε) (List BatchValidator)
  | _, [] => .ok []
  | index, shape :: rest => do
    let validator ← prepare (BatchValidator.new shape) (.transform index)
    let others ← prepareTransforms (index + 1) rest
    return validator :: others

/-- Prepares every declared representation before any source is opened. The
sink's validator is not kept. -/
def ContractSink.build (declared : ContractSink) : Except (ContractPipelineError ε) PreparedPipeline := do
  let sourceValidator ← prepare (BatchValidator.new declared.plan.source) .source
  let transforms ← prepareTransforms 0 declared.plan.transforms
  let _ ← prepare (BatchValidator.new declared.sink) .sink
  return { sourceValidator, transforms }

/-- Batches and rows accepted by successful sink calls. -/
structure ContractRunReport where
  batchesProcessed : Nat
  rowsProcessed : Nat
  deriving DecidableEq, Repr

/-- One more batch was counted, without overflow. -/
def Counted (report next : ContractRunReport) : Prop :=
  next.batchesProcessed = report.batchesProcessed + 1 ∧ next.batchesProcessed < Usize.range

/-- The transforms of one batch in order, each output checked. -/
def applyTransforms (index : Nat) : Nat → List BatchValidator → RecordBatch α → Running α ε (RecordBatch α)
  | _, [], batch => settled (.ok batch)
  | step, validator :: rest, batch => do
    let batch ← attempt (invoke (.transform step batch)) fun error => ⟨.transform step, some index, .callback error⟩
    settled (validate validator batch (.transform step) index)
    applyTransforms index (step + 1) rest batch

/-- The counters are checked before the sink is called, and count the batch
after. -/
def deliver (report : ContractRunReport) (batch : RecordBatch α) :
    Running α ε { next : ContractRunReport // Counted report next } :=
  let index := report.batchesProcessed
  match batches : Usize.checkedAdd report.batchesProcessed 1,
    Usize.checkedAdd report.rowsProcessed batch.numRows with
  | some batchesProcessed, some rowsProcessed => do
    attempt (invoke (.sink batch)) fun error => ⟨.sink, some index, .callback error⟩
    return ⟨{ batchesProcessed, rowsProcessed }, by
      obtain ⟨sum, fits⟩ := Usize.checkedAdd_eq_some_iff.mp batches
      exact ⟨sum, sum ▸ fits⟩⟩
  | _, _ => settled (.error ⟨.sink, some index, .countOverflow⟩)

/-- What is done with one item of the input. -/
def PreparedPipeline.process (pipeline : PreparedPipeline) (report : ContractRunReport)
    (received : Except ε (RecordBatch α)) : Running α ε { next : ContractRunReport // Counted report next } := do
  let index := report.batchesProcessed
  let batch ← settled (received.mapError fun error => ⟨.source, some index, .callback error⟩)
  settled (validate pipeline.sourceValidator batch .source index)
  let batch ← applyTransforms index 0 pipeline.transforms batch
  deliver report batch

/-- The loop over the input. It ends with the input, a failure or a count
that no longer fits. -/
def PreparedPipeline.drain (pipeline : PreparedPipeline) (report : ContractRunReport) :
    Running α ε ContractRunReport := do
  match ← infallible (invoke .next) with
  | none => return report
  | some received =>
    let next ← pipeline.process report received
    pipeline.drain next.1
termination_by Usize.range - report.batchesProcessed
decreasing_by
  have counted := next.2.1
  have fits := next.2.2
  omega

/-- Opens the source once and runs the callbacks in order. -/
def PreparedPipeline.run (pipeline : PreparedPipeline) : Running α ε ContractRunReport := do
  attempt (invoke .openSource) fun error => ⟨.sourceFactory, none, .callback error⟩
  pipeline.drain ⟨0, 0⟩

end

end Datacrate.Typestate
