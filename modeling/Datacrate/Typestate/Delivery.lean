import Datacrate.Typestate.Run

namespace Datacrate.Typestate

open Contracts (TypeShape conforms)
open Arrow Interaction

section Build

variable {ε : Type}

theorem prepare_ok_iff {made : Except MappingError BatchValidator} {stage : Stage} {validator : BatchValidator} :
    (prepare made stage : Except (ContractPipelineError ε) BatchValidator) = .ok validator ↔
      made = .ok validator := by
  unfold prepare
  cases made <;> simp [Except.mapError]

theorem prepareTransforms_ok {index : Nat} {shapes : List TypeShape} {validators : List BatchValidator}
    (prepared : (prepareTransforms index shapes : Except (ContractPipelineError ε) _) = .ok validators) :
    shapes.map BatchValidator.new = validators.map .ok := by
  induction shapes generalizing index validators with
  | nil =>
    cases prepared
    rfl
  | cons shape rest ih =>
    rw [prepareTransforms] at prepared
    obtain ⟨validator, here, more⟩ := Fallible.bind_ok_iff.mp prepared
    obtain ⟨others, later, whole⟩ := Fallible.bind_ok_iff.mp more
    cases Fallible.pure_ok_iff.mp whole
    rw [List.map_cons, List.map_cons, ih later, prepare_ok_iff.mp here]

theorem Plan.getLast?_declared (plan : Plan) : plan.declared.getLast? = some plan.declaration := by
  rw [Plan.declared, Plan.declaration, List.getLast?_cons, List.getLastD_eq_getLast?]

/-- A built pipeline checks each declared output with its own validator, and
the last of them is the sink's. -/
theorem build_ok {declared : ContractSink} {pipeline : PreparedPipeline}
    (built : (declared.build : Except (ContractPipelineError ε) _) = .ok pipeline) :
    declared.plan.declared.map BatchValidator.new = pipeline.outputs.map .ok ∧
      ∃ validator, pipeline.outputs.getLast? = some validator ∧ BatchValidator.new declared.sink = .ok validator := by
  rw [ContractSink.build] at built
  obtain ⟨source, sourceMade, more⟩ := Fallible.bind_ok_iff.mp built
  obtain ⟨transforms, transformsMade, more⟩ := Fallible.bind_ok_iff.mp more
  obtain ⟨sink, sinkMade, whole⟩ := Fallible.bind_ok_iff.mp more
  cases Fallible.pure_ok_iff.mp whole
  have outputs : declared.plan.declared.map BatchValidator.new = (source :: transforms).map .ok := by
    rw [Plan.declared, List.map_cons, List.map_cons, prepareTransforms_ok transformsMade,
      prepare_ok_iff.mp sourceMade]
  refine ⟨outputs, sink, ?_, prepare_ok_iff.mp sinkMade⟩
  have last := congrArg List.getLast? outputs
  obtain ⟨mapped, maps, rfl⟩ := BatchValidator.new_ok_iff.mp (prepare_ok_iff.mp sinkMade)
  have same := BatchValidator.new_ok_iff.mpr ⟨mapped, (schema_ok_iff_of_conforms declared.conforming).mpr maps, rfl⟩
  rw [List.getLast?_map, List.getLast?_map, Plan.getLast?_declared, Option.map_some, same] at last
  obtain ⟨validator, found, equal⟩ := Option.map_eq_some_iff.mp last.symm
  rw [← Except.ok.inj equal]
  exact found

theorem prepareTransforms_ok_iff {index : Nat} {shapes : List TypeShape} :
    (∃ validators, (prepareTransforms index shapes : Except (ContractPipelineError ε) _) = .ok validators) ↔
      ∀ shape ∈ shapes, ∃ validator, BatchValidator.new shape = .ok validator := by
  induction shapes generalizing index with
  | nil => exact iff_of_true ⟨[], rfl⟩ (by simp)
  | cons shape rest ih =>
    rw [List.forall_mem_cons, ← @ih (index + 1)]
    constructor
    · rintro ⟨validators, prepared⟩
      rw [prepareTransforms] at prepared
      obtain ⟨validator, here, more⟩ := Fallible.bind_ok_iff.mp prepared
      obtain ⟨others, later, _⟩ := Fallible.bind_ok_iff.mp more
      exact ⟨⟨validator, prepare_ok_iff.mp here⟩, others, later⟩
    · rintro ⟨⟨validator, here⟩, others, later⟩
      refine ⟨validator :: others, ?_⟩
      rw [prepareTransforms]
      exact Fallible.bind_ok_iff.mpr ⟨validator, prepare_ok_iff.mpr here,
        Fallible.bind_ok_iff.mpr ⟨others, later, rfl⟩⟩

/-- A pipeline can be built when each of its declarations has a validator. -/
theorem build_ok_iff {declared : ContractSink} :
    (∃ pipeline, (declared.build : Except (ContractPipelineError ε) _) = .ok pipeline) ↔
      ∀ shape ∈ declared.plan.declared ++ [declared.sink], ∃ validator, BatchValidator.new shape = .ok validator := by
  rw [List.forall_mem_append, List.forall_mem_singleton, Plan.declared, List.forall_mem_cons,
    ← @prepareTransforms_ok_iff ε 0]
  constructor
  · rintro ⟨pipeline, built⟩
    rw [ContractSink.build] at built
    obtain ⟨source, sourceMade, more⟩ := Fallible.bind_ok_iff.mp built
    obtain ⟨transforms, transformsMade, more⟩ := Fallible.bind_ok_iff.mp more
    obtain ⟨sink, sinkMade, _⟩ := Fallible.bind_ok_iff.mp more
    exact ⟨⟨⟨source, prepare_ok_iff.mp sourceMade⟩, transforms, transformsMade⟩, sink, prepare_ok_iff.mp sinkMade⟩
  · rintro ⟨⟨⟨source, sourceMade⟩, transforms, transformsMade⟩, sink, sinkMade⟩
    refine ⟨⟨source, transforms⟩, ?_⟩
    rw [ContractSink.build]
    exact Fallible.bind_ok_iff.mpr ⟨source, prepare_ok_iff.mpr sourceMade, Fallible.bind_ok_iff.mpr
      ⟨transforms, transformsMade, Fallible.bind_ok_iff.mpr ⟨sink, prepare_ok_iff.mpr sinkMade, rfl⟩⟩⟩

end Build

section

variable {α ε : Type} {pipeline : PreparedPipeline}

/-- A passage that ends at a transform, whatever that answers, pulled one
item and gave the sink none. -/
theorem Passage.Underway.observed {passage : Passage α} {validator : BatchValidator}
    (underway : passage.Underway pipeline validator) (answer : Except ε (RecordBatch α)) :
    (∀ event ∈ passage.events ++ [⟨.transform passage.outputs.length passage.final, answer⟩],
      HandsOnAccepted pipeline event.1) ∧
    sunk (passage.events ++ [⟨.transform passage.outputs.length passage.final, answer⟩]) = [] ∧
    (pulled (passage.events ++ [⟨.transform passage.outputs.length passage.final, answer⟩])).length = 1 := by
  obtain ⟨before, after, split, accepts⟩ := underway
  obtain ⟨handed, last⟩ := Passage.hands_on split accepts
  rw [List.forall_mem_append, List.forall_mem_singleton, sunk_append, sunk_events, pulled_append, pulled_events]
  exact ⟨⟨handed, last⟩, rfl, rfl⟩

/-- After the last sink call nothing more is taken, and at most one item is
pulled. -/
theorem Stopped.observed {index rows : Nat} {tail : List (Event (Answer α ε))}
    {outcome : Except (ContractPipelineError ε) ContractRunReport}
    (stopped : Stopped pipeline index rows tail outcome) :
    (∀ event ∈ tail, HandsOnAccepted pipeline event.1) ∧ sunk tail = [] ∧
      ((outcome = .ok ⟨index, rows⟩ ∧ pulled tail = []) ∨
        ∃ failure, outcome = .error failure ∧ failure.batchIndex = some index ∧ (pulled tail).length = 1) := by
  cases stopped with
  | exhausted => exact ⟨by simp [HandsOnAccepted], rfl, Or.inl ⟨rfl, rfl⟩⟩
  | sourceFailed error => exact ⟨by simp [HandsOnAccepted], rfl, Or.inr ⟨_, rfl, rfl, rfl⟩⟩
  | sourceRejected refused => exact ⟨by simp [HandsOnAccepted], rfl, Or.inr ⟨_, rfl, rfl, rfl⟩⟩
  | transformFailed error underway =>
    obtain ⟨handed, unsunk, once⟩ := underway.observed (.error error)
    exact ⟨handed, unsunk, Or.inr ⟨_, rfl, rfl, once⟩⟩
  | @transformRejected passage validator output error underway refused =>
    obtain ⟨handed, unsunk, once⟩ := underway.observed (.ok output)
    exact ⟨handed, unsunk, Or.inr ⟨_, rfl, rfl, once⟩⟩
  | @overflowed passage checked full =>
    obtain ⟨handed, _⟩ := Passage.hands_on (List.append_nil _).symm checked
    rw [sunk_events, pulled_events]
    exact ⟨handed, rfl, Or.inr ⟨_, rfl, rfl, rfl⟩⟩
  | @sinkFailed passage error checked =>
    obtain ⟨handed, _⟩ := Passage.hands_on (List.append_nil _).symm checked
    rw [List.forall_mem_append, List.forall_mem_singleton, sunk_append, sunk_events, pulled_append, pulled_events]
    exact ⟨⟨handed, Passage.hands_on_sink checked⟩, rfl, Or.inr ⟨_, rfl, rfl, rfl⟩⟩

theorem delivered_hands_on {passages : List (Passage α)} (each : ∀ passage ∈ passages, passage.Checked pipeline) :
    ∀ event ∈ (passages.flatMap Passage.delivered : List (Event (Answer α ε))),
      HandsOnAccepted pipeline event.1 := by
  intro event member
  obtain ⟨passage, inside, member⟩ := List.mem_flatMap.mp member
  have checked := each passage inside
  rcases List.mem_append.mp member with earlier | last
  · exact (Passage.hands_on (List.append_nil _).symm checked).1 event earlier
  · rw [List.mem_singleton.mp last]
    exact Passage.hands_on_sink checked

/-- The run from the opening of the source on. -/
theorem run_traces {trace : List (Event (Answer α ε))}
    {outcome : Except (ContractPipelineError ε) ContractRunReport}
    (traces : Traces (pipeline.run) trace (.pure outcome)) :
    (∃ error, trace = [⟨.openSource, .error error⟩] ∧
      outcome = .error ⟨.sourceFactory, none, .callback error⟩) ∨
    ∃ passages tail, (∀ passage ∈ passages, passage.Checked pipeline) ∧
      trace = ⟨.openSource, .ok ()⟩ :: (passages.flatMap Passage.delivered ++ tail) ∧
      Stopped pipeline passages.length (deliveredRows passages) tail outcome := by
  rw [PreparedPipeline.run] at traces
  rcases traces.andThen with ⟨failure, opened, rfl⟩ | ⟨first, second, done, rfl, opened, after⟩
  · obtain ⟨result, asked, same⟩ := opened.attempt
    cases asked.ask
    cases result with
    | ok done => cases same
    | error error =>
      cases same
      exact Or.inl ⟨error, rfl, rfl⟩
  · obtain ⟨result, asked, same⟩ := opened.attempt
    cases asked.ask
    cases result with
    | error error => cases same
    | ok done =>
      obtain ⟨passages, tail, each, rfl, stopped⟩ := drain_traces after
      rw [Nat.zero_add, Nat.zero_add] at stopped
      exact Or.inr ⟨passages, tail, each, rfl, stopped⟩

end

/-- A run against any callbacks: the sink takes the items in order, each
through all transforms; every batch handed on was accepted by the declared
output before; counts, indices and stages are those of what happened. -/
theorem prepared_run_delivers :
    (∀ {ε : Type} (declared : ContractSink) (pipeline : PreparedPipeline),
      (declared.build : Except (ContractPipelineError ε) _) = .ok pipeline →
      declared.plan.declared.map BatchValidator.new = pipeline.outputs.map .ok ∧
        ∃ validator, pipeline.outputs.getLast? = some validator ∧
          BatchValidator.new declared.sink = .ok validator) ∧
    ∀ {α ε σ : Type} (pipeline : PreparedPipeline) (callbacks : (call : Call α) → σ → Answer α ε call × σ) (s : σ)
      (trace : List (Event (Answer α ε))) (outcome : Except (ContractPipelineError ε) ContractRunReport),
      Program.execute callbacks pipeline.run s = (trace, outcome) →
      (∀ event ∈ trace, HandsOnAccepted pipeline event.1) ∧
      ((∃ error, trace = [⟨.openSource, .error error⟩] ∧
          outcome = .error ⟨.sourceFactory, none, .callback error⟩) ∨
        ∃ passages tail, (∀ passage ∈ passages, passage.Checked pipeline) ∧
          trace = ⟨.openSource, .ok ()⟩ :: (passages.flatMap Passage.delivered ++ tail) ∧
          sunk trace = passages.map Passage.final ∧
          Stopped pipeline passages.length (deliveredRows passages) tail outcome) ∧
      (∀ report, outcome = .ok report → report.batchesProcessed = (sunk trace).length ∧
        report.rowsProcessed = ((sunk trace).map RecordBatch.numRows).sum ∧
        (pulled trace).length = (sunk trace).length) ∧
      ∀ failure index, outcome = .error failure → failure.batchIndex = some index →
        (sunk trace).length = index ∧ (pulled trace).length = index + 1 := by
  refine ⟨fun declared pipeline built => build_ok built, ?_⟩
  intro α ε σ pipeline callbacks s trace outcome executed
  have traces := Program.execute_traces callbacks pipeline.run s
  rw [executed] at traces
  rcases run_traces traces with ⟨error, rfl, rfl⟩ | ⟨passages, tail, each, rfl, stopped⟩
  · refine ⟨by simp [HandsOnAccepted], Or.inl ⟨error, rfl, rfl⟩, fun report same => (by cases same), ?_⟩
    intro failure index same indexed
    cases same
    cases indexed
  obtain ⟨handed, untaken, ending⟩ := stopped.observed
  have taken : sunk (⟨.openSource, .ok ()⟩ :: (passages.flatMap Passage.delivered ++ tail) :
      List (Event (Answer α ε))) = passages.map Passage.final := by
    change sunk (passages.flatMap Passage.delivered ++ tail) = _
    rw [sunk_append, sunk_delivered, untaken, List.append_nil]
  have drawn : pulled (⟨.openSource, .ok ()⟩ :: (passages.flatMap Passage.delivered ++ tail) :
      List (Event (Answer α ε))) = (passages.map fun passage => .ok passage.received) ++ pulled tail := by
    change pulled (passages.flatMap Passage.delivered ++ tail) = _
    rw [pulled_append, pulled_delivered]
  refine ⟨List.forall_mem_cons.mpr ⟨trivial, List.forall_mem_append.mpr ⟨delivered_hands_on each, handed⟩⟩,
    Or.inr ⟨passages, tail, each, rfl, taken, stopped⟩, ?_, ?_⟩
  · rintro report rfl
    rcases ending with ⟨same, none⟩ | ⟨failure, same, _⟩
    · cases same
      rw [taken, drawn, none, List.append_nil, List.length_map, List.length_map, List.map_map]
      exact ⟨rfl, rfl, rfl⟩
    · cases same
  · rintro failure index rfl indexed
    rcases ending with ⟨same, _⟩ | ⟨failed, same, at', one⟩
    · cases same
    · cases same
      cases at'.symm.trans indexed
      rw [taken, drawn, List.length_append, one, List.length_map, List.length_map]
      exact ⟨rfl, rfl⟩

end Datacrate.Typestate
