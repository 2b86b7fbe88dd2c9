import Datacrate.Typestate.Pipeline

namespace Datacrate.Typestate

open Arrow Interaction

section

variable {α ε : Type}

/-- Each validator accepts the batch at its place. -/
def Accepts (validators : List BatchValidator) (batches : List (RecordBatch α)) : Prop :=
  List.Forall₂ (fun validator batch => validator.validate batch = .ok ()) validators batches

/-- The declared outputs of a prepared pipeline, the source's first. -/
def PreparedPipeline.outputs (pipeline : PreparedPipeline) : List BatchValidator :=
  pipeline.sourceValidator :: pipeline.transforms

/-- Successive transforms, each called with what the one before returned. -/
def transformEvents : Nat → RecordBatch α → List (RecordBatch α) → List (Event (Answer α ε))
  | _, _, [] => []
  | step, batch, output :: rest => ⟨.transform step batch, .ok output⟩ :: transformEvents (step + 1) output rest

/-- An item of the input with what the transforms so far returned for it. -/
structure Passage (α : Type) where
  received : RecordBatch α
  outputs : List (RecordBatch α)

/-- The composition of the transforms so far, applied to the item. -/
def Passage.final (passage : Passage α) : RecordBatch α :=
  passage.outputs.getLastD passage.received

def Passage.batches (passage : Passage α) : List (RecordBatch α) :=
  passage.received :: passage.outputs

/-- Pulled from the input and put through transforms. -/
def Passage.events (passage : Passage α) : List (Event (Answer α ε)) :=
  ⟨.next, some (.ok passage.received)⟩ :: transformEvents 0 passage.received passage.outputs

/-- The whole passage of an item that the sink took. -/
def Passage.delivered (passage : Passage α) : List (Event (Answer α ε)) :=
  passage.events ++ [⟨.sink passage.final, .ok ()⟩]

/-- The item and every output were accepted by the validators in place. -/
def Passage.Checked (pipeline : PreparedPipeline) (passage : Passage α) : Prop :=
  Accepts pipeline.outputs passage.batches

/-- All so far were accepted, and some transform is still to be called. -/
def Passage.Underway (pipeline : PreparedPipeline) (passage : Passage α) (validator : BatchValidator) : Prop :=
  ∃ before after, pipeline.outputs = before ++ validator :: after ∧ Accepts before passage.batches

/-- Behind an accepted item the transforms in place are next. -/
theorem Passage.underway_of_transforms {pipeline : PreparedPipeline} {batch : RecordBatch α}
    {outputs : List (RecordBatch α)} {before after : List BatchValidator} {validator : BatchValidator}
    (split : pipeline.transforms = before ++ validator :: after)
    (accepted : pipeline.sourceValidator.validate batch = .ok ()) (accepts : Accepts before outputs) :
    Passage.Underway pipeline ⟨batch, outputs⟩ validator :=
  ⟨pipeline.sourceValidator :: before, after, congrArg (pipeline.sourceValidator :: ·) split, .cons accepted accepts⟩

/-- The end of a run after some sink calls and rows: what happened since the
last of them, and the outcome. -/
inductive Stopped (pipeline : PreparedPipeline) (index rows : Nat) :
    List (Event (Answer α ε)) → Except (ContractPipelineError ε) ContractRunReport → Prop
  | exhausted : Stopped pipeline index rows [⟨.next, none⟩] (.ok ⟨index, rows⟩)
  | sourceFailed (error : ε) : Stopped pipeline index rows [⟨.next, some (.error error)⟩]
      (.error ⟨.source, some index, .callback error⟩)
  | sourceRejected {batch : RecordBatch α} {error : BatchValidationError} :
      pipeline.sourceValidator.validate batch = .error error →
      Stopped pipeline index rows [⟨.next, some (.ok batch)⟩] (.error ⟨.source, some index, .validation error⟩)
  | transformFailed {passage : Passage α} {validator : BatchValidator} (error : ε) :
      passage.Underway pipeline validator →
      Stopped pipeline index rows
        (passage.events ++ [⟨.transform passage.outputs.length passage.final, .error error⟩])
        (.error ⟨.transform passage.outputs.length, some index, .callback error⟩)
  | transformRejected {passage : Passage α} {validator : BatchValidator} {output : RecordBatch α}
      {error : BatchValidationError} : passage.Underway pipeline validator →
      validator.validate output = .error error →
      Stopped pipeline index rows
        (passage.events ++ [⟨.transform passage.outputs.length passage.final, .ok output⟩])
        (.error ⟨.transform passage.outputs.length, some index, .validation error⟩)
  | overflowed {passage : Passage α} : passage.Checked pipeline →
      Usize.range ≤ index + 1 ∨ Usize.range ≤ rows + passage.final.numRows →
      Stopped pipeline index rows passage.events (.error ⟨.sink, some index, .countOverflow⟩)
  | sinkFailed {passage : Passage α} (error : ε) : passage.Checked pipeline →
      Stopped pipeline index rows (passage.events ++ [⟨.sink passage.final, .error error⟩])
        (.error ⟨.sink, some index, .callback error⟩)

theorem validate_ok_iff {validator : BatchValidator} {batch : RecordBatch α} {stage : Stage} {index : Nat} :
    (validate validator batch stage index : Except (ContractPipelineError ε) Unit) = .ok () ↔
      validator.validate batch = .ok () := by
  unfold validate
  cases validator.validate batch <;> simp [Except.mapError]

theorem validate_error {validator : BatchValidator} {batch : RecordBatch α} {stage : Stage} {index : Nat}
    {failure : ContractPipelineError ε} (failed : validate validator batch stage index = .error failure) :
    ∃ error, validator.validate batch = .error error ∧ failure = ⟨stage, some index, .validation error⟩ := by
  unfold validate at failed
  cases result : validator.validate batch with
  | ok done =>
    rw [result] at failed
    cases failed
  | error error =>
    rw [result] at failed
    cases failed
    exact ⟨error, rfl, rfl⟩

/-- What became of a batch in the transforms from one on. -/
inductive Transforming (index step : Nat) (validators : List BatchValidator) (batch : RecordBatch α) :
    List (Event (Answer α ε)) → Except (ContractPipelineError ε) (RecordBatch α) → Prop
  | done {outputs : List (RecordBatch α)} : Accepts validators outputs →
      Transforming index step validators batch (transformEvents step batch outputs) (.ok (outputs.getLastD batch))
  | failed {before after : List BatchValidator} {validator : BatchValidator} {outputs : List (RecordBatch α)}
      (error : ε) : validators = before ++ validator :: after → Accepts before outputs →
      Transforming index step validators batch
        (transformEvents step batch outputs ++
          [⟨.transform (step + outputs.length) (outputs.getLastD batch), .error error⟩])
        (.error ⟨.transform (step + outputs.length), some index, .callback error⟩)
  | rejected {before after : List BatchValidator} {validator : BatchValidator} {outputs : List (RecordBatch α)}
      {output : RecordBatch α} {error : BatchValidationError} : validators = before ++ validator :: after →
      Accepts before outputs → validator.validate output = .error error →
      Transforming index step validators batch
        (transformEvents step batch outputs ++
          [⟨.transform (step + outputs.length) (outputs.getLastD batch), .ok output⟩])
        (.error ⟨.transform (step + outputs.length), some index, .validation error⟩)

theorem Transforming.next {index step : Nat} {validator : BatchValidator} {validators : List BatchValidator}
    {batch output : RecordBatch α} {trace : List (Event (Answer α ε))}
    {outcome : Except (ContractPipelineError ε) (RecordBatch α)} (accepted : validator.validate output = .ok ())
    (rest : Transforming index (step + 1) validators output trace outcome) :
    Transforming index step (validator :: validators) batch (⟨.transform step batch, .ok output⟩ :: trace) outcome := by
  cases rest with
  | @done outputs accepts =>
    have last : (output :: outputs).getLastD batch = outputs.getLastD output := List.getLastD_cons
    exact last ▸ .done (.cons accepted accepts)
  | @failed before after next outputs error split accepts =>
    have whole : Transforming index step (validator :: validators) batch
        (transformEvents step batch (output :: outputs) ++
          [⟨.transform (step + (output :: outputs).length) ((output :: outputs).getLastD batch), .error error⟩]) _ :=
      .failed error (congrArg (validator :: ·) split) (.cons accepted accepts)
    rwa [List.getLastD_cons, List.length_cons, Nat.add_comm outputs.length, ← Nat.add_assoc] at whole
  | @rejected before after next outputs last error split accepts refused =>
    have whole : Transforming index step (validator :: validators) batch
        (transformEvents step batch (output :: outputs) ++
          [(⟨.transform (step + (output :: outputs).length) ((output :: outputs).getLastD batch), .ok last⟩ :
            Event (Answer α ε))]) _ :=
      .rejected (congrArg (validator :: ·) split) (.cons accepted accepts) refused
    rwa [List.getLastD_cons, List.length_cons, Nat.add_comm outputs.length, ← Nat.add_assoc] at whole

/-- Induction on the transforms still to come. -/
theorem applyTransforms_traces {index step : Nat} {validators : List BatchValidator} {batch : RecordBatch α}
    {trace : List (Event (Answer α ε))} {outcome : Except (ContractPipelineError ε) (RecordBatch α)}
    (traces : Traces (applyTransforms index step validators batch) trace (.pure outcome)) :
    Transforming index step validators batch trace outcome := by
  induction validators generalizing step batch trace with
  | nil =>
    obtain ⟨rfl, rfl⟩ := traces.settled
    exact .done .nil
  | cons validator rest ih =>
    rw [applyTransforms] at traces
    rcases traces.andThen with ⟨failure, called, rfl⟩ | ⟨first, second, output, rfl, called, after⟩
    · obtain ⟨result, asked, same⟩ := called.attempt
      cases asked.ask
      cases result with
      | ok output => cases same
      | error error =>
        cases same
        exact .failed error rfl .nil
    · obtain ⟨result, asked, same⟩ := called.attempt
      cases asked.ask
      cases result with
      | error error => cases same
      | ok returned =>
        cases same
        rcases after.andThen with ⟨failure, checked, rfl⟩ | ⟨nothing, second, done, rfl, checked, rest⟩
        · obtain ⟨rfl, refused⟩ := checked.settled
          obtain ⟨error, invalid, rfl⟩ := validate_error refused.symm
          exact .rejected rfl .nil invalid
        · obtain ⟨rfl, allowed⟩ := checked.settled
          exact (ih rest).next (validate_ok_iff.mp allowed.symm)

/-- What became of one item. -/
inductive Processing (pipeline : PreparedPipeline) (report : ContractRunReport)
    (received : Except ε (RecordBatch α)) : List (Event (Answer α ε)) →
      Except (ContractPipelineError ε) { next : ContractRunReport // Counted report next } → Prop
  | delivered {passage : Passage α} {next : { next : ContractRunReport // Counted report next }} :
      received = .ok passage.received → passage.Checked pipeline →
      next.1.rowsProcessed = report.rowsProcessed + passage.final.numRows →
      next.1.rowsProcessed < Usize.range →
      Processing pipeline report received
        (transformEvents 0 passage.received passage.outputs ++ [⟨.sink passage.final, .ok ()⟩]) (.ok next)
  | stopped {trace : List (Event (Answer α ε))} {failure : ContractPipelineError ε} :
      Stopped pipeline report.batchesProcessed report.rowsProcessed (⟨.next, some received⟩ :: trace)
        (.error failure) →
      Processing pipeline report received trace (.error failure)

theorem checkedAdd_eq_none_iff {a b : Nat} : Usize.checkedAdd a b = none ↔ Usize.range ≤ a + b := by
  unfold Usize.checkedAdd
  split <;> simp only [reduceCtorEq, false_iff, true_iff] <;> omega

/-- The counters decide before the sink is called. -/
theorem deliver_traces {pipeline : PreparedPipeline} {report : ContractRunReport} {passage : Passage α}
    {trace : List (Event (Answer α ε))}
    {outcome : Except (ContractPipelineError ε) { next : ContractRunReport // Counted report next }}
    (checked : passage.Checked pipeline) (traces : Traces (deliver report passage.final) trace (.pure outcome)) :
    Processing pipeline report (.ok passage.received)
      (transformEvents 0 passage.received passage.outputs ++ trace) outcome := by
  unfold deliver at traces
  split at traces
  · rename_i batches rows counted summed
    obtain ⟨sum, fits⟩ := Usize.checkedAdd_eq_some_iff.mp summed
    rcases traces.andThen with ⟨failure, called, rfl⟩ | ⟨first, second, done, rfl, called, after⟩
    · obtain ⟨result, asked, same⟩ := called.attempt
      cases asked.ask
      cases result with
      | ok done => cases same
      | error error =>
        cases same
        exact .stopped (.sinkFailed error checked)
    · obtain ⟨result, asked, same⟩ := called.attempt
      cases asked.ask
      cases result with
      | error error => cases same
      | ok done =>
        obtain ⟨rfl, rfl⟩ := Traces.pure after
        exact .delivered rfl checked sum (sum ▸ fits)
  · rename_i full
    obtain ⟨rfl, rfl⟩ := traces.settled
    rw [List.append_nil]
    refine .stopped (.overflowed checked ?_)
    cases counted : Usize.checkedAdd report.batchesProcessed 1 with
    | none => exact Or.inl (checkedAdd_eq_none_iff.mp counted)
    | some batches =>
      cases summed : Usize.checkedAdd report.rowsProcessed passage.final.numRows with
      | none => exact Or.inr (checkedAdd_eq_none_iff.mp summed)
      | some rows => exact absurd summed (full batches rows counted)

/-- One item, from what was pulled to the sink. -/
theorem process_traces {pipeline : PreparedPipeline} {report : ContractRunReport}
    {received : Except ε (RecordBatch α)} {trace : List (Event (Answer α ε))}
    {outcome : Except (ContractPipelineError ε) { next : ContractRunReport // Counted report next }}
    (traces : Traces (pipeline.process report received) trace (.pure outcome)) :
    Processing pipeline report received trace outcome := by
  unfold PreparedPipeline.process at traces
  cases received with
  | error error =>
    rcases traces.andThen with ⟨failure, failed, rfl⟩ | ⟨first, second, batch, rfl, pulled, after⟩
    · obtain ⟨rfl, same⟩ := failed.settled
      cases same
      exact .stopped (.sourceFailed error)
    · exact absurd pulled.settled.2 (by simp [Except.mapError])
  | ok batch =>
    rcases traces.andThen with ⟨failure, failed, rfl⟩ | ⟨nothing, later, pulled, rfl, received, checking⟩
    · exact absurd failed.settled.2 (by simp [Except.mapError])
    obtain ⟨rfl, same⟩ := received.settled
    cases same
    rcases checking.andThen with ⟨failure, invalid, rfl⟩ | ⟨nothing, last, done, rfl, valid, running⟩
    · obtain ⟨rfl, same⟩ := invalid.settled
      obtain ⟨error, refused, rfl⟩ := validate_error same.symm
      exact .stopped (.sourceRejected refused)
    obtain ⟨rfl, same⟩ := valid.settled
    have accepted := validate_ok_iff.mp same.symm
    rcases running.andThen with ⟨failure, failed, rfl⟩ | ⟨first, second, final, rfl, through, sinking⟩
    · have transforming := applyTransforms_traces failed
      generalize result : (Except.error failure : Except (ContractPipelineError ε) (RecordBatch α)) = outcome
        at transforming
      cases transforming with
      | done accepts => cases result
      | @failed before after validator outputs error split accepts =>
        cases result
        have underway := Passage.underway_of_transforms split accepted accepts
        rw [Nat.zero_add]
        exact .stopped (.transformFailed error underway)
      | @rejected before after validator outputs output error split accepts refused =>
        cases result
        have underway := Passage.underway_of_transforms split accepted accepts
        rw [Nat.zero_add]
        exact .stopped (.transformRejected underway refused)
    · have transforming := applyTransforms_traces through
      generalize result : (Except.ok final : Except (ContractPipelineError ε) (RecordBatch α)) = outcome
        at transforming
      cases transforming with
      | @done outputs accepts =>
        cases result
        have checked : Passage.Checked pipeline ⟨batch, outputs⟩ := .cons accepted accepts
        exact deliver_traces checked sinking
      | failed => cases result
      | rejected => cases result

/-- Rows of the batches the sink took. -/
def deliveredRows (passages : List (Passage α)) : Nat :=
  (passages.map (·.final.numRows)).sum

/-- Induction on how many batches can still be counted. -/
theorem drain_traces {pipeline : PreparedPipeline} {report : ContractRunReport}
    {trace : List (Event (Answer α ε))} {outcome : Except (ContractPipelineError ε) ContractRunReport}
    (traces : Traces (pipeline.drain report) trace (.pure outcome)) :
    ∃ passages tail, (∀ passage ∈ passages, passage.Checked pipeline) ∧
      trace = passages.flatMap Passage.delivered ++ tail ∧
      Stopped pipeline (report.batchesProcessed + passages.length)
        (report.rowsProcessed + deliveredRows passages) tail outcome := by
  generalize left : Usize.range - report.batchesProcessed = remaining
  induction remaining using Nat.strong_induction_on generalizing report trace with
  | h remaining ih =>
    rw [PreparedPipeline.drain] at traces
    rcases traces.andThen with ⟨failure, pulled, rfl⟩ | ⟨first, second, answer, rfl, pulled, after⟩
    · obtain ⟨_, _, same⟩ := pulled.infallible
      cases same
    obtain ⟨received, asked, same⟩ := pulled.infallible
    cases same
    cases asked.ask
    cases answer with
    | none =>
      obtain ⟨rfl, rfl⟩ := Traces.pure after
      exact ⟨[], _, by simp, rfl, .exhausted⟩
    | some received =>
      rcases after.andThen with ⟨failure, stopped, rfl⟩ | ⟨first, second, next, rfl, counted, rest⟩
      · generalize result : (Except.error failure : Except (ContractPipelineError ε)
          { next : ContractRunReport // Counted report next }) = outcome at stopped
        cases process_traces stopped with
        | delivered => cases result
        | stopped ending =>
          cases result
          exact ⟨[], _, by simp, rfl, ending⟩
      · generalize result : (Except.ok next : Except (ContractPipelineError ε)
          { next : ContractRunReport // Counted report next }) = outcome at counted
        cases process_traces counted with
        | stopped ending => cases result
        | @delivered passage next pulled checked rows fits =>
          cases result
          subst pulled
          have grew := next.2.1
          have bounded := next.2.2
          obtain ⟨passages, tail, each, rfl, ending⟩ := ih _ (by omega) rest rfl
          refine ⟨passage :: passages, tail, List.forall_mem_cons.mpr ⟨checked, each⟩, ?_, ?_⟩
          · simp [Passage.delivered, Passage.events]
          · rw [rows, grew] at ending
            rw [List.length_cons, deliveredRows, List.map_cons, List.sum_cons]
            rw [show report.batchesProcessed + (passages.length + 1) = report.batchesProcessed + 1 + passages.length by
              omega, ← Nat.add_assoc]
            exact ending

/-- The batches of successful sink calls, in order. -/
def sunk (trace : List (Event (Answer α ε))) : List (RecordBatch α) :=
  trace.filterMap fun event =>
    match event with
    | ⟨.sink batch, .ok _⟩ => some batch
    | _ => none

/-- The items pulled from the input, in order. -/
def pulled (trace : List (Event (Answer α ε))) : List (Except ε (RecordBatch α)) :=
  trace.filterMap fun event =>
    match event with
    | ⟨.next, received⟩ => received
    | _ => none

/-- A batch handed on was accepted by the declared output right before. -/
def HandsOnAccepted (pipeline : PreparedPipeline) : Call α → Prop
  | .transform step batch => ∃ validator, pipeline.outputs[step]? = some validator ∧ validator.validate batch = .ok ()
  | .sink batch => ∃ validator, pipeline.outputs.getLast? = some validator ∧ validator.validate batch = .ok ()
  | _ => True

section Observed

variable {step : Nat} {batch : RecordBatch α} {outputs : List (RecordBatch α)}

theorem sunk_append (first second : List (Event (Answer α ε))) : sunk (first ++ second) = sunk first ++ sunk second :=
  List.filterMap_append

theorem pulled_append (first second : List (Event (Answer α ε))) :
    pulled (first ++ second) = pulled first ++ pulled second :=
  List.filterMap_append

theorem sunk_transformEvents : sunk (transformEvents step batch outputs : List (Event (Answer α ε))) = [] := by
  induction outputs generalizing step batch with
  | nil => rfl
  | cons output rest ih => exact ih

theorem pulled_transformEvents : pulled (transformEvents step batch outputs : List (Event (Answer α ε))) = [] := by
  induction outputs generalizing step batch with
  | nil => rfl
  | cons output rest ih => exact ih

theorem sunk_events (passage : Passage α) : sunk (passage.events : List (Event (Answer α ε))) = [] :=
  sunk_transformEvents

theorem pulled_events (passage : Passage α) :
    pulled (passage.events : List (Event (Answer α ε))) = [.ok passage.received] :=
  congrArg (_ :: ·) pulled_transformEvents

theorem sunk_delivered (passages : List (Passage α)) :
    sunk (passages.flatMap Passage.delivered : List (Event (Answer α ε))) = passages.map Passage.final := by
  induction passages with
  | nil => rfl
  | cons passage rest ih =>
    rw [List.flatMap_cons, sunk_append, ih, Passage.delivered, sunk_append, sunk_events]
    rfl

theorem pulled_delivered (passages : List (Passage α)) :
    pulled (passages.flatMap Passage.delivered : List (Event (Answer α ε))) =
      passages.map fun passage => .ok passage.received := by
  induction passages with
  | nil => rfl
  | cons passage rest ih =>
    rw [List.flatMap_cons, pulled_append, ih, Passage.delivered, pulled_append, pulled_events]
    rfl

theorem mem_transformEvents {event : Event (Answer α ε)} (member : event ∈ transformEvents step batch outputs) :
    ∃ i input, (batch :: outputs)[i]? = some input ∧ i < outputs.length ∧ event.1 = .transform (step + i) input := by
  induction outputs generalizing step batch with
  | nil => cases member
  | cons output rest ih =>
    rcases List.mem_cons.mp member with rfl | later
    · exact ⟨0, batch, rfl, by simp, rfl⟩
    · obtain ⟨i, input, found, within, same⟩ := ih later
      refine ⟨i + 1, input, found, by simpa using within, ?_⟩
      rw [same, show step + 1 + i = step + (i + 1) by omega]

end Observed

theorem Accepts.at {validators : List BatchValidator} {batches : List (RecordBatch α)}
    (accepts : Accepts validators batches) {i : Nat} {batch : RecordBatch α} (found : batches[i]? = some batch) :
    ∃ validator, validators[i]? = some validator ∧ validator.validate batch = .ok () := by
  induction accepts generalizing i with
  | nil => simp at found
  | cons accepted _ ih =>
    cases i with
    | zero =>
      cases found
      exact ⟨_, rfl, accepted⟩
    | succ i => exact ih found

theorem Passage.final_eq (passage : Passage α) :
    passage.batches[passage.outputs.length]? = some passage.final := by
  obtain ⟨received, outputs⟩ := passage
  simp only [Passage.batches, Passage.final]
  induction outputs generalizing received with
  | nil => rfl
  | cons output rest ih => rw [List.getLastD_cons]; exact ih output

/-- A passage accepted so far by the first of the declared outputs. -/
theorem Passage.hands_on {pipeline : PreparedPipeline} {passage : Passage α} {before after : List BatchValidator}
    (split : pipeline.outputs = before ++ after) (accepts : Accepts before passage.batches) :
    (∀ event ∈ (passage.events : List (Event (Answer α ε))), HandsOnAccepted pipeline event.1) ∧
      HandsOnAccepted pipeline (.transform passage.outputs.length passage.final) := by
  have covered : ∀ {i batch}, passage.batches[i]? = some batch →
      HandsOnAccepted pipeline (.transform i batch) := by
    intro i batch found
    obtain ⟨validator, here, accepted⟩ := accepts.at found
    refine ⟨validator, ?_, accepted⟩
    rw [split, List.getElem?_append_left (List.getElem?_eq_some_iff.mp here).1]
    exact here
  refine ⟨fun event member => ?_, covered passage.final_eq⟩
  rcases List.mem_cons.mp member with rfl | later
  · trivial
  · obtain ⟨i, input, found, _, same⟩ := mem_transformEvents later
    rw [same, Nat.zero_add]
    exact covered found

theorem Passage.hands_on_sink {pipeline : PreparedPipeline} {passage : Passage α}
    (checked : passage.Checked pipeline) : HandsOnAccepted pipeline (.sink passage.final) := by
  obtain ⟨validator, here, accepted⟩ := Accepts.at checked passage.final_eq
  have length := List.Forall₂.length_eq checked
  refine ⟨validator, ?_, accepted⟩
  rw [List.getLast?_eq_getElem?, length, Passage.batches, List.length_cons, Nat.add_sub_cancel]
  exact here

end

end Datacrate.Typestate
