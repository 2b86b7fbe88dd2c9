import Datacrate.Arrow.Batch
import Datacrate.Scaffold.Command

namespace Datacrate.Scaffold

open Arrow Codegen Interaction Typestate
open Contracts (TypeShape FieldShape isOptional)

/-- The fields that the contract of a rendered schema asks of a batch. -/
def contractFields (original : Schema) : List Field :=
  arrowFields (renderedFields original.fields)

/-- A batch has the fields that the contract of the schema asks for, and each
of its rows holds a value of the contract. -/
def Carries {α : Type} (original : Schema) (batch : RecordBatch α) : Prop :=
  batch.schema.fields.map Field.plain = contractFields original ∧
    ∀ row < batch.numRows, (valueAt (renderedShape (.struct original.fields)) batch.toStruct row).isSome = true

/-- A type that its own rendered contract asks for: its lists have 32-bit
offsets and required items, called `item`. -/
inductive Native : DataType → Prop
  | leaf (kind : LeafType) : Native (.leaf kind)
  | list {item : Field} : item.name = "item" → item.nullable = false → Native item.dataType → Native (.list item)
  | struct {fields : List Field} : (∀ field ∈ fields, Native field.dataType) → Native (.struct fields)

section Contract

variable {α : Type} {fields : List Field} {dataType : DataType}

theorem native_list_iff {item : Field} :
    Native (.list item) ↔ item.name = "item" ∧ item.nullable = false ∧ Native item.dataType :=
  ⟨fun native => by cases native; exact ⟨‹_›, ‹_›, ‹_›⟩, fun parts => .list parts.1 parts.2.1 parts.2.2⟩

theorem native_struct_iff : Native (.struct fields) ↔ ∀ field ∈ fields, Native field.dataType :=
  ⟨fun native => by cases native; assumption, .struct⟩

/-- A type is what its rendering asks for exactly when it is native. -/
theorem plain_eq_arrowType_iff (renderable : Renderable dataType) :
    dataType.plain = arrowType (renderedShape dataType) ↔ Native dataType := by
  induction renderable with
  | @leaf kind known =>
    obtain ⟨primitive, here⟩ := Option.isSome_iff_exists.mp known
    refine iff_of_true ?_ (.leaf kind)
    rw [renderedShape, here, arrowType, Option.getD_some, primitiveType_rustPrimitive here]
    rfl
  | @list item _ ih =>
    obtain ⟨name, dataType, nullable, metadata⟩ := item
    rw [native_list_iff, ← ih, renderedShape, arrowType, DataType.plain, Field.plain_eq]
    simp only [isOptional_renderedShape, Field.new, DataType.list.injEq, Field.mk.injEq, and_true]
    tauto
  | @largeList item _ ih =>
    obtain ⟨name, dataType, nullable, metadata⟩ := item
    refine iff_of_false ?_ (fun native => by cases native)
    rw [renderedShape, arrowType, DataType.plain]
    simp
  | @struct fields _ ih =>
    rw [native_struct_iff, renderedShape, arrowType, DataType.plain, DataType.struct.injEq, plainFields_eq_map,
      arrowFields_eq_map, renderedFields_eq_map, List.map_map, List.map_inj_left]
    refine forall₂_congr fun field member => ?_
    rw [← ih field member, Function.comp_apply, arrowField_renderedField, Field.plain_eq]
    simp [Field.new]

/-- The validator of a rendered schema accepts the batches that carry it. -/
theorem rendered_validate_ok_iff {original : Schema} {validator : BatchValidator}
    (made : BatchValidator.new (renderedShape (.struct original.fields)) = .ok validator) (batch : RecordBatch α) :
    validator.validate batch = .ok () ↔ Carries original batch := by
  obtain ⟨mapped, maps, rfl⟩ := BatchValidator.new_ok_iff.mp made
  obtain ⟨shapes, same, mappable, _, rfl⟩ := schema_ok_iff.mp maps
  rw [renderedShape, TypeShape.struct.injEq] at same
  subst same
  unfold Carries contractFields
  simp only [renderedShape]
  refine (BatchValidator.validate_ok_iff mappable batch).trans (and_congr_right fun fits => ?_)
  refine forall₂_congr fun row inside => ?_
  exact (denotes_of_mappable mappable (RecordBatch.reads fits) (by rwa [batch.length_toStruct])).symm

/-- The fields asked for are those of the schema in all that is essential,
where no list has nullable items. -/
theorem contractFields_essential {original : Schema} (renderable : Renderable (.struct original.fields))
    (required : ItemsRequired (.struct original.fields)) : contractFields original = essentialFields original.fields := by
  have same := (essential_arrowType_iff renderable).mpr required
  rw [renderedShape, arrowType, essential, essential, DataType.struct.injEq] at same
  rw [contractFields, ← same, essential_arrowFields]

end Contract

section Runs

variable {α ε σ : Type} {floats : Floats} {machine : Machine floats} {args : PipelineArgs} {out : Option String}
  {program : PipelineSource floats} {declared : ContractSink} {pipeline : PreparedPipeline}
  {trace : List (Event (Answer α ε))} {outcome : Except (ContractPipelineError ε) ContractRunReport}

/-- What a run of a prepared pipeline hands on was accepted before. -/
theorem execute_hands_on {callbacks : (call : Call α) → σ → Answer α ε call × σ} {s : σ}
    (executed : Program.execute callbacks pipeline.run s = (trace, outcome)) :
    ∀ event ∈ trace, HandsOnAccepted pipeline event.1 := by
  have traces := Program.execute_traces callbacks pipeline.run s
  rw [executed] at traces
  rcases run_traces traces with ⟨error, rfl, _⟩ | ⟨passages, tail, each, rfl, stopped⟩
  · simp [HandsOnAccepted]
  · refine List.forall_mem_cons.mpr ⟨trivial, List.forall_mem_append.mpr ⟨delivered_hands_on each, ?_⟩⟩
    exact stopped.observed.1

/-- The validators of a prepared program are those of its two schemas. -/
theorem program_validators {tools : Toolchain} {parseMain : MainFn floats → Option String} {spec : PipelineSpec floats}
    (made : pipelineSource tools parseMain spec = .ok program) (declares : program.Declares declared)
    (built : (declared.build : Except (ContractPipelineError ε) _) = .ok pipeline) :
    (∀ (index : Nat) validator, pipeline.outputs[index]? = some validator → ∃ schema : Schema,
      [spec.sourceSchema, spec.sinkSchema][index]? = some schema ∧
        BatchValidator.new (renderedShape (.struct schema.fields)) = .ok validator) ∧
    ∀ validator, pipeline.outputs.getLast? = some validator →
      BatchValidator.new (renderedShape (.struct spec.sinkSchema.fields)) = .ok validator := by
  obtain ⟨sourceShape, sinkShape, stages⟩ := declares
  have source := ((program_shapes made _).1.mp sourceShape).2
  have sink := ((program_shapes made _).2.mp sinkShape).2
  obtain ⟨outputs, last, found, lastMade⟩ := build_ok built
  constructor
  · intro index validator here
    have at' := congrArg (·[index]?) outputs
    simp only [List.getElem?_map, here, Option.map_some] at at'
    obtain ⟨shape, declaredAt, shapeMade⟩ := Option.map_eq_some_iff.mp at'
    rw [Plan.declared, stages, source, sink] at declaredAt
    split at declaredAt
    · cases index with
      | zero =>
        cases declaredAt
        exact ⟨_, rfl, shapeMade⟩
      | succ index => simp at declaredAt
    · rcases index with _ | _ | index
      · cases declaredAt
        exact ⟨_, rfl, shapeMade⟩
      · cases declaredAt
        exact ⟨_, rfl, shapeMade⟩
      · simp at declaredAt
  · intro validator here
    cases found.symm.trans here
    rw [← sink]
    exact lastMade

/-- A run that was given batches of its own source alone, whose schema its
contract refuses, delivers none. -/
theorem refused_source_starves {source : Schema} {callbacks : (call : Call α) → σ → Answer α ε call × σ} {s : σ}
    (made : BatchValidator.new (renderedShape (.struct source.fields)) = .ok pipeline.sourceValidator)
    (foreign : source.fields.map Field.plain ≠ contractFields source)
    (executed : Program.execute callbacks pipeline.run s = (trace, outcome))
    (own : ∀ batch, (⟨.next, some (.ok batch)⟩ : Event (Answer α ε)) ∈ trace →
      batch.schema.fields.map Field.plain = source.fields.map Field.plain) :
    sunk trace = [] ∧ ∀ report, outcome = .ok report → report = ⟨0, 0⟩ := by
  have traces := Program.execute_traces callbacks pipeline.run s
  rw [executed] at traces
  rcases run_traces traces with ⟨error, rfl, rfl⟩ | ⟨passages, tail, each, rfl, stopped⟩
  · exact ⟨rfl, fun report same => by cases same⟩
  cases passages with
  | nil =>
    obtain ⟨_, unsunk, ended⟩ := stopped.observed
    refine ⟨unsunk, fun report same => ?_⟩
    rcases ended with ⟨exhausted, _⟩ | ⟨failure, failed, _⟩
    · cases exhausted.symm.trans same
      rfl
    · cases failed.symm.trans same
  | cons passage passages =>
    have accepted : pipeline.sourceValidator.validate passage.received = .ok () := by
      have checked := each passage List.mem_cons_self
      cases checked with
      | cons first _ => exact first
    have pulled := own passage.received (by simp [Passage.delivered, Passage.events])
    exact absurd (pulled.symm.trans ((rendered_validate_ok_iff made _).mp accepted).1) foreign

/-- A program that the command has written holds its data to the schemas that
the specs name: in every run, whatever the callbacks do, what a stage hands on
carries the schema declared there. The data of its own source passes just where
the source's schema is native; otherwise no batch of it is ever delivered. What
is asked of the source is all that is essential of it, but for nullable items. -/
theorem scaffolded_run_enforces (wrote : runPipeline machine args = .ok (out, program))
    (declares : program.Declares declared)
    (built : (declared.build : Except (ContractPipelineError ε) _) = .ok pipeline) :
    ∃ source target, Names machine args.sourceSchema source ∧ NamesTarget machine args.targetSchema target ∧
      (∀ {σ : Type} (callbacks : (call : Call α) → σ → Answer α ε call × σ) (s : σ) trace outcome,
        Program.execute callbacks pipeline.run s = (trace, outcome) →
        (∀ event ∈ trace, match event.1 with
          | .transform index batch => ∃ schema, [source, target.getD source][index]? = some schema ∧ Carries schema batch
          | .sink batch => Carries (target.getD source) batch
          | _ => True) ∧
        (¬ Native (.struct source.fields) →
          (∀ batch, (⟨.next, some (.ok batch)⟩ : Event (Answer α ε)) ∈ trace →
            batch.schema.fields.map Field.plain = source.fields.map Field.plain) →
          sunk trace = [] ∧ ∀ report, outcome = .ok report → report = ⟨0, 0⟩)) ∧
      (Native (.struct source.fields) → ∀ batch : RecordBatch α,
        batch.schema.fields.map Field.plain = source.fields.map Field.plain →
        (pipeline.sourceValidator.validate batch = .ok () ↔
          ∀ row < batch.numRows, (valueAt (renderedShape (.struct source.fields)) batch.toStruct row).isSome = true)) ∧
      (ItemsRequired (.struct source.fields) → contractFields source = essentialFields source.fields) := by
  obtain ⟨spec, made, _, ⟨named, targeted⟩, _⟩ := runPipeline_ok wrote
  obtain ⟨_, _, sourceMade, _⟩ := pipelineSource_ok made
  have renderable : Renderable (.struct spec.sourceSchema.fields) := (structSource_renders sourceMade).renderable
  obtain ⟨inside, last⟩ := program_validators made declares built
  have sourceValidator : BatchValidator.new (renderedShape (.struct spec.sourceSchema.fields)) =
      .ok pipeline.sourceValidator := by
    obtain ⟨schema, same, validator⟩ := inside 0 pipeline.sourceValidator rfl
    cases same
    exact validator
  have native : spec.sourceSchema.fields.map Field.plain = contractFields spec.sourceSchema ↔
      Native (.struct spec.sourceSchema.fields) := by
    rw [← plain_eq_arrowType_iff renderable, DataType.plain, renderedShape, arrowType, DataType.struct.injEq,
      plainFields_eq_map, contractFields]
  refine ⟨spec.sourceSchema, spec.targetSchema, named, targeted, ?_, ?_, contractFields_essential renderable⟩
  · intro σ callbacks s trace outcome executed
    refine ⟨fun event member => ?_, fun foreign => ?_⟩
    · have handed := execute_hands_on executed event member
      obtain ⟨call, answer⟩ := event
      cases call with
      | transform index batch =>
        obtain ⟨validator, here, accepted⟩ := handed
        obtain ⟨schema, at', validated⟩ := inside index validator here
        exact ⟨schema, at', (rendered_validate_ok_iff validated batch).mp accepted⟩
      | sink batch =>
        obtain ⟨validator, here, accepted⟩ := handed
        exact (rendered_validate_ok_iff (last validator here) batch).mp accepted
      | openSource | next => trivial
    · exact refused_source_starves sourceValidator (fun same => foreign (native.mp same)) executed
  · intro fits batch same
    rw [rendered_validate_ok_iff sourceValidator, Carries, ← native.mpr fits]
    exact and_iff_right same

end Runs

/-- The program of the orders can be prepared. -/
theorem orders_prepared : ∃ program declared pipeline, runPipeline ordersMachine ordersArgs = .ok (none, program) ∧
    program.Declares declared ∧ (declared.build : Except (ContractPipelineError String) _) = .ok pipeline := by
  obtain ⟨program, wrote⟩ := ordersArgs_wrote
  obtain ⟨spec, made, _, ⟨named, targeted⟩, located, _⟩ := runPipeline_ok wrote
  obtain ⟨source, target⟩ := ordersArgs_names named targeted
  obtain ⟨declared, compiles, pipeline, built⟩ := (@generated_pipeline_builds_iff _ _ _ _ _ String made).mpr (by
    rw [source, target]
    exact ⟨List.forall_mem_singleton.mpr ordersSchema_usable, ordersArgs_format located,
      Or.inr (by simp [PipelineSpec.Passes, target])⟩)
  exact ⟨program, declared, pipeline, wrote, compiles.declares, built⟩

theorem orders_run_enforced : ∃ (program : PipelineSource exampleFloats) (declared : ContractSink)
    (pipeline : PreparedPipeline), runPipeline ordersMachine ordersArgs = .ok (none, program) ∧
      program.Declares declared ∧ (declared.build : Except (ContractPipelineError String) _) = .ok pipeline ∧
      ∀ (callbacks : (call : Call Nat) → Nat → Answer Nat String call × Nat) trace outcome,
        Program.execute callbacks pipeline.run 0 = (trace, outcome) →
        ∀ event ∈ trace, ∀ batch, event.1 = .sink batch → Carries ordersSchema batch := by
  obtain ⟨program, declared, pipeline, wrote, declares, built⟩ := orders_prepared
  refine ⟨program, declared, pipeline, wrote, declares, built, fun callbacks trace outcome executed => ?_⟩
  obtain ⟨source, target, named, targeted, enforced, _⟩ := @scaffolded_run_enforces Nat _ _ _ _ _ _ _ _ wrote declares built
  obtain ⟨rfl, rfl⟩ := ordersArgs_names named targeted
  rintro ⟨call, answer⟩ member batch rfl
  exact (enforced callbacks 0 trace outcome executed).1 ⟨.sink batch, answer⟩ member

end Datacrate.Scaffold
