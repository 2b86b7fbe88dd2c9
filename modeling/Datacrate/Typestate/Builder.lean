import Datacrate.Bounded.Sequential
import Datacrate.Lib.Fallible

namespace Datacrate.Typestate

open Ingest Bounded Chunks

/-- A builder stage that has not been supplied yet. -/
inductive Missing where
  | missing

structure Present (α : Type) where
  supplied : α

/-- A transform or a sink of a whole batch. -/
abbrev BatchStep := RecordBatch → Except PipelineIoError RecordBatch

/-- The stages supplied so far, each tracked by its type. -/
structure PipelineBuilder (Src Xf Snk : Type) where
  sourceStage : Src
  transformStage : Xf
  sinkStage : Snk

namespace PipelineBuilder

variable {Src Xf Snk : Type}

def new : PipelineBuilder Missing Missing Missing :=
  ⟨.missing, .missing, .missing⟩

def source (builder : PipelineBuilder Missing Xf Snk) (file : CsvFile) : PipelineBuilder (Present CsvFile) Xf Snk :=
  ⟨⟨file⟩, builder.transformStage, builder.sinkStage⟩

def transform (builder : PipelineBuilder Src Missing Snk) (step : BatchStep) :
    PipelineBuilder Src (Present BatchStep) Snk :=
  ⟨builder.sourceStage, ⟨step⟩, builder.sinkStage⟩

def sink (builder : PipelineBuilder Src Xf Missing) (step : BatchStep) : PipelineBuilder Src Xf (Present BatchStep) :=
  ⟨builder.sourceStage, builder.transformStage, ⟨step⟩⟩

end PipelineBuilder

def validateIngestBatch (batch : RecordBatch) : Except PipelineIoError Unit :=
  match validatedColumns batch with
  | .ok _ => .ok ()
  | .error violation => .error (.invalidBatch violation)

/-- Runs a complete pipeline on the whole file as one batch. No outcome is the
panic of reading it. -/
def PipelineBuilder.build (arrow : ArrowLibrary)
    (builder : PipelineBuilder (Present CsvFile) (Present BatchStep) (Present BatchStep)) :
    Option (Except PipelineIoError RecordBatch) :=
  (fixtureToRecordBatch arrow builder.sourceStage.supplied).map fun read => do
    let batch ← read
    let batch ← (builder.transformStage.supplied batch).mapError (.callback .transform 0)
    validateIngestBatch batch
    let batch ← (builder.sinkStage.supplied batch).mapError (.callback .sink 0)
    validateIngestBatch batch
    return batch

section

variable {env : Setting} {transform : BatchStep} {each : Row → Except PipelineIoError (List Row)}
  {rows : List Row} {source : PipelineIoError}

/-- The rows that the whole file becomes. -/
def transformed (each : Row → Except PipelineIoError (List Row)) (file : CsvFile) : Except PipelineIoError (List Row) := do
  let rows ← parseRows file
  let made ← (rows.mapM each).mapError (.callback .transform 0)
  return made.flatten

end

end Datacrate.Typestate
