import Datacrate.Codegen.SchemaGate
import Datacrate.Scaffold.Chain
import Datacrate.Typestate.Delivery

namespace Datacrate.Scaffold

open Arrow Codegen
open Contracts (TypeShape conforms conforms_exactOrdered_iff)
open Typestate (ContractSink ContractPipelineError Plan build_ok_iff)

/-- Where the data of a generated pipeline lives at run time. -/
inductive SourceFormat where
  | parquet
  | csv
  | delta
  deriving DecidableEq, Repr

structure SourceData where
  location : String
  format : SourceFormat

/-- What one generated pipeline is made from. -/
structure PipelineSpec (floats : Floats) where
  name : String
  sourceSchema : Schema
  targetSchema : Option Schema
  sourceData : SourceData
  transform : Option (TransformSpec floats)
  sinkParquet : String

/-- The statement that binds the table `batch`. -/
inductive Registration where
  | registerParquet (ident location : String)
  | registerCsv (ident location : String)
  | openTable (location : String)
  deriving DecidableEq, Repr

/-- The closure of the sink: a file, or an object with the helper that puts
it. -/
inductive SinkCode where
  | writeParquet (path : String)
  | putObject (bucket key : String)
  deriving DecidableEq, Repr

/-- The generated `main`. -/
structure MainFn (floats : Floats) where
  stores : List String
  registration : Registration
  sourceIdent : String
  transform : List (Token floats)
  targetIdent : String
  sink : SinkCode

structure PipelineSource (floats : Floats) where
  structs : List RustStruct
  main : MainFn floats

inductive PipelineFailure where
  | schema (failure : Failure)
  | literalPanic
  | renderMain (source : String)

/-- Bucket and key of an `s3://` location. -/
def parseS3Location (location : String) : Option (String × String) :=
  (Text.stripPrefix "s3://".toList location.toList).bind fun rest =>
    (Text.splitOnce '/' rest).map fun parts => (String.ofList parts.1, String.ofList parts.2)

def registrationOf (ident : String) (data : SourceData) : Registration :=
  match data.format with
  | .parquet => .registerParquet ident data.location
  | .csv => .registerCsv ident data.location
  | .delta => .openTable data.location

def sinkOf (sinkParquet : String) : SinkCode :=
  match parseS3Location sinkParquet with
  | some (bucket, key) => .putObject bucket key
  | none => .writeParquet sinkParquet

/-- The store that is registered for a location, by its bucket. -/
def storesOf (location : String) : List String :=
  ((parseS3Location location).map (·.1)).toList

section Render

variable {floats : Floats} (tools : Toolchain) (parseMain : MainFn floats → Option String)

def structSourceOf (ident : String) (schema : Schema) : Except PipelineFailure (List RustStruct) :=
  (structSource tools ident schema).mapError .schema

/-- The structs of the target and its name. Without a target the source struct
is the sink's contract too. -/
def targetSourceOf (name : String) : Option Schema → Except PipelineFailure (List RustStruct × String)
  | some schema => (structSourceOf tools (name ++ "Target") schema).map fun structs => (structs, name ++ "Target")
  | none => .ok ([], name ++ "Source")

/-- The structs of source and target, and the `main` that wires them. -/
def pipelineSource (spec : PipelineSpec floats) : Except PipelineFailure (PipelineSource floats) := do
  let sourceIdent := spec.name ++ "Source"
  let sourceStructs ← structSourceOf tools sourceIdent spec.sourceSchema
  let target ← targetSourceOf tools spec.name spec.targetSchema
  match transformTokens spec.transform target.2 with
  | none => .error .literalPanic
  | some transform =>
    let main : MainFn floats :=
      { stores := storesOf spec.sourceData.location ++ storesOf spec.sinkParquet
        registration := registrationOf sourceIdent spec.sourceData
        sourceIdent
        transform
        targetIdent := target.2
        sink := sinkOf spec.sinkParquet }
    match parseMain main with
    | some source => .error (.renderMain source)
    | none => return { structs := sourceStructs ++ target.1, main }

end Render

section Builder

variable {floats : Floats}

/-- The builder chain of a generated `main`, over the shapes of its structs. -/
def PipelineSource.Declares (program : PipelineSource floats) (declared : ContractSink) : Prop :=
  ReadsAs program.structs program.main.sourceIdent declared.plan.source ∧
    ReadsAs program.structs program.main.targetIdent declared.sink ∧
    declared.plan.transforms = if program.main.transform = [] then [] else [declared.sink]

/-- The crates that the statement names. -/
def Registration.crates : Registration → List String
  | .registerParquet _ _ | .registerCsv _ _ => []
  | .openTable _ => ["deltalake"]

def SinkCode.crates : SinkCode → List String
  | .writeParquet _ => []
  | .putObject _ _ => ["tempfile"]

/-- The crates that the program names, in its header and in its `main`. -/
def MainFn.crates (main : MainFn floats) : List String :=
  ["connectors_derive", "contracts", "datafusion", "object_store", "parquet", "pipeline", "typestate", "tokio"] ++
    (if main.stores = [] then [] else ["url"]) ++ main.registration.crates ++ main.sink.crates

/-- The crates that an example of the crate `typestate` has. -/
def exampleCrates : List String :=
  ["typestate", "contracts", "arrow", "datafusion", "object_store", "pipeline", "tokio", "url", "connectors_derive",
    "parquet", "schema_codegen", "tempfile", "trybuild"]

/-- What the compiler asks of a program among the examples: its structs, its
crates and its builder chain. The rest of `main` is the same for all, but for
the code of a transform, which is left to DataFusion. -/
structure PipelineSource.Compiles (program : PipelineSource floats) (declared : ContractSink) : Prop where
  formed : WellFormed program.structs
  crates : program.main.crates ⊆ exampleCrates
  declares : program.Declares declared

/-- What the schema of one end of a pipeline needs. -/
structure Usable (schema : Schema) : Prop where
  apart : NamesApart (.struct schema.fields)
  unique : FieldsUnique (.struct schema.fields)
  shallow : levels (.struct schema.fields) ≤ maxDepth
  named : ∀ name ∈ fieldNames (.struct schema.fields), namesNothing name = false

/-- Source and target fit without a transform. -/
def PipelineSpec.Passes (spec : PipelineSpec floats) : Prop :=
  ∀ target ∈ spec.targetSchema, renderedFields target.fields = renderedFields spec.sourceSchema.fields

theorem transformTokens_eq_nil_iff {transform : Option (TransformSpec floats)} {target : String}
    {tokens : List (Token floats)} (made : transformTokens transform target = some tokens) :
    tokens = [] ↔ transform = none := by
  unfold transformTokens at made
  split at made
  · cases made
    simp
  · obtain ⟨chain, _, whole⟩ := Option.bind_eq_some_iff.mp made
    cases whole
    simp
  · cases made
    simp

theorem mapError_ok_iff {α ε δ : Type} {step : Except ε α} {wrap : ε → δ} {result : α} :
    step.mapError wrap = .ok result ↔ step = .ok result := by
  cases step <;> simp [Except.mapError]

/-- The names, structs and tokens that a rendered pipeline is put together
from. -/
theorem pipelineSource_ok {tools : Toolchain} {parseMain : MainFn floats → Option String} {spec : PipelineSpec floats}
    {program : PipelineSource floats} (made : pipelineSource tools parseMain spec = .ok program) :
    ∃ sourceFile targetFile, structSource tools (spec.name ++ "Source") spec.sourceSchema = .ok sourceFile ∧
      program.structs = sourceFile ++ targetFile ∧ program.main.sourceIdent = spec.name ++ "Source" ∧
      (program.main.transform = [] ↔ spec.transform = none) ∧
      program.main.registration = registrationOf (spec.name ++ "Source") spec.sourceData ∧
      match spec.targetSchema with
      | some schema => structSource tools (spec.name ++ "Target") schema = .ok targetFile ∧
          program.main.targetIdent = spec.name ++ "Target"
      | none => targetFile = [] ∧ program.main.targetIdent = spec.name ++ "Source" := by
  unfold pipelineSource at made
  obtain ⟨sourceFile, sourceMade, made⟩ := Fallible.bind_ok_iff.mp made
  obtain ⟨target, targetMade, made⟩ := Fallible.bind_ok_iff.mp made
  have rendered : structSource tools (spec.name ++ "Source") spec.sourceSchema = .ok sourceFile :=
    mapError_ok_iff.mp sourceMade
  split at made
  · cases made
  · rename_i transform tokens
    dsimp only at made
    split at made
    · cases made
    · cases made
      refine ⟨sourceFile, target.1, rendered, rfl, rfl, transformTokens_eq_nil_iff tokens, rfl, ?_⟩
      cases schema : spec.targetSchema with
      | none =>
        rw [schema] at targetMade
        cases targetMade
        exact ⟨rfl, rfl⟩
      | some targetSchema =>
        rw [schema, targetSourceOf] at targetMade
        cases structs : structSourceOf tools (spec.name ++ "Target") targetSchema with
        | error failure =>
          rw [structs] at targetMade
          cases targetMade
        | ok targetFile =>
          rw [structs] at targetMade
          cases targetMade
          exact ⟨mapError_ok_iff.mp structs, rfl⟩

theorem eraseDefaults_renderedShape (dataType : DataType) :
    (renderedShape dataType).eraseDefaults = renderedShape dataType := by
  induction dataType using DataType.induction with
  | leaf kind => rfl
  | map entries sorted _ => rfl
  | list item ih | largeList item ih =>
    cases item
    rw [renderedShape, TypeShape.eraseDefaults, ih]
  | struct fields ih =>
    rw [renderedShape, TypeShape.eraseDefaults, eraseFieldDefaults_eq_map, renderedFields_eq_map, List.map_map]
    refine congrArg _ (List.map_congr_left fun field member => ?_)
    have here := ih field member
    cases nullable : field.nullable <;>
      simp [renderedField, eraseFieldDefault, nullable, TypeShape.eraseDefaults, here]

theorem conforms_renderedShape_iff {first second : List Field} :
    conforms (renderedShape (.struct first)) (renderedShape (.struct second)) .exactOrdered = true ↔
      renderedFields first = renderedFields second := by
  rw [conforms_exactOrdered_iff, eraseDefaults_renderedShape, eraseDefaults_renderedShape, renderedShape, renderedShape,
    TypeShape.struct.injEq]

/-- A rendered shape has a validator where its schema repeats no field and is
not too deep. -/
theorem validator_renderedShape_iff {fields : List Field} (renderable : Renderable (.struct fields)) :
    (∃ validator, BatchValidator.new (renderedShape (.struct fields)) = .ok validator) ↔
      FieldsUnique (.struct fields) ∧ levels (.struct fields) ≤ maxDepth := by
  have mappable := mappable_renderedShape_iff renderable
  have depth := nesting_renderedShape (.struct fields)
  constructor
  · rintro ⟨validator, made⟩
    obtain ⟨mapped, maps, _⟩ := BatchValidator.new_ok_iff.mp made
    obtain ⟨_, _, whole, shallow, _⟩ := schema_ok_iff.mp maps
    exact ⟨mappable.mp whole, depth ▸ shallow⟩
  · rintro ⟨unique, shallow⟩
    exact ⟨_, BatchValidator.new_ok_iff.mpr ⟨_, schema_ok_iff.mpr ⟨_, by rw [renderedShape], mappable.mpr unique,
      depth.symm ▸ shallow, rfl⟩, rfl⟩⟩

/-- The schema that the sink's contract is rendered from. -/
def PipelineSpec.sinkSchema (spec : PipelineSpec floats) : Schema :=
  spec.targetSchema.getD spec.sourceSchema

/-- The structs of a schema under a marked name are well formed where its
fields are. -/
theorem wellFormed_marked_iff {tools : Toolchain} {before mark : String} {schema : Schema} {structs : List RustStruct}
    (made : structSource tools (before ++ mark) schema = .ok structs) (marked : mark ∈ marks)
    (unique : FieldsUnique (.struct schema.fields)) :
    WellFormed structs ↔ ∀ name ∈ fieldNames (.struct schema.fields), namesNothing name = false := by
  rw [wellFormed_structSource_iff made unique]
  exact and_iff_right fun _ _ => marked_names marked

/-- Both ends of a generated program have shapes just when the structs of each
are apart, and those of two ends never collide. -/
theorem program_shapes {tools : Toolchain} {parseMain : MainFn floats → Option String} {spec : PipelineSpec floats}
    {program : PipelineSource floats} (made : pipelineSource tools parseMain spec = .ok program) (shape : TypeShape) :
    (ReadsAs program.structs program.main.sourceIdent shape ↔
      (NamesApart (.struct spec.sourceSchema.fields) ∧ NamesApart (.struct spec.sinkSchema.fields)) ∧
        shape = renderedShape (.struct spec.sourceSchema.fields)) ∧
    (ReadsAs program.structs program.main.targetIdent shape ↔
      (NamesApart (.struct spec.sourceSchema.fields) ∧ NamesApart (.struct spec.sinkSchema.fields)) ∧
        shape = renderedShape (.struct spec.sinkSchema.fields)) := by
  obtain ⟨sourceFile, targetFile, sourceMade, structs, sourceIdent, _, _, targetMade⟩ := pipelineSource_ok made
  have decided : ∀ {apart : Prop} {ident : String} {rendered : TypeShape},
      ((definedNames program.structs).Nodup ↔ apart) →
      ((definedNames program.structs).Nodup → ReadsAs program.structs ident rendered) →
      (ReadsAs program.structs ident shape ↔ apart ∧ shape = rendered) := by
    intro apart ident rendered distinct read
    constructor
    · intro found
      exact ⟨distinct.mp found.1, found.unique (read found.1)⟩
    · rintro ⟨here, rfl⟩
      exact read (distinct.mpr here)
  have plain : '#' ∉ "".toList := by decide
  have sourceFree : ∀ name ∈ "Option" :: "Vec" :: contractTypes, name ∉ definedNames sourceFile := fun name standard =>
    free_of_marked sourceMade String.append_empty.symm (by decide) plain standard
  rw [PipelineSpec.sinkSchema]
  cases target : spec.targetSchema with
  | none =>
    rw [target] at targetMade
    obtain ⟨rfl, targetIdent⟩ := targetMade
    rw [List.append_nil] at structs
    have distinct := definedNames_nodup_iff sourceMade
    have read := fun distinct => readsAs_inside sourceMade distinct (List.Subset.refl _) sourceFree
    rw [← structs] at distinct read
    have both := distinct.trans and_self_iff.symm
    rw [sourceIdent, targetIdent, Option.getD_none]
    exact ⟨decided both read, decided both read⟩
  | some schema =>
    rw [target] at targetMade
    obtain ⟨otherMade, targetIdent⟩ := targetMade
    have spelled : ∀ mark ∈ marks, (bareName (spec.name ++ mark)).toList = (bareName spec.name).toList ++ mark.toList := by
      intro mark marked
      have plain : ∀ mark ∈ marks, '#' ∉ mark.toList := by decide
      rw [bareName_append (plain mark marked), String.toList_append]
    have disjoint := @definedNames_disjoint tools _ _ _ _ _ _ sourceMade otherMade (bareName spec.name).toList _ _ _ _
      (spelled "Source" (by decide)) (spelled "Target" (by decide)) (by decide)
    have distinct : (definedNames program.structs).Nodup ↔
        NamesApart (.struct spec.sourceSchema.fields) ∧ NamesApart (.struct schema.fields) := by
      rw [structs, definedNames_append, List.nodup_append, definedNames_nodup_iff sourceMade,
        definedNames_nodup_iff otherMade]
      exact ⟨fun parts => ⟨parts.1, parts.2.1⟩, fun parts => ⟨parts.1, parts.2, disjoint⟩⟩
    have free : ∀ name ∈ "Option" :: "Vec" :: contractTypes, name ∉ definedNames program.structs := by
      intro name standard
      rw [structs, definedNames_append, List.mem_append, not_or]
      exact ⟨sourceFree name standard,
        free_of_marked otherMade String.append_empty.symm (by decide) plain standard⟩
    have sourceInside : sourceFile ⊆ program.structs := structs ▸ List.subset_append_left _ _
    have targetInside : targetFile ⊆ program.structs := structs ▸ List.subset_append_right _ _
    rw [sourceIdent, targetIdent, Option.getD_some]
    exact ⟨decided distinct fun here => readsAs_inside sourceMade here sourceInside free,
      decided distinct fun here => readsAs_inside otherMade here targetInside free⟩

/-- A generated program names its crates among those of the examples where its
source is no Delta table. -/
theorem crates_inside_iff {tools : Toolchain} {parseMain : MainFn floats → Option String} {spec : PipelineSpec floats}
    {program : PipelineSource floats} (made : pipelineSource tools parseMain spec = .ok program) :
    program.main.crates ⊆ exampleCrates ↔ spec.sourceData.format ≠ .delta := by
  obtain ⟨_, _, _, _, _, _, registration, _⟩ := pipelineSource_ok made
  have fixed : ["connectors_derive", "contracts", "datafusion", "object_store", "parquet", "pipeline", "typestate",
      "tokio"] ++ (if program.main.stores = [] then [] else ["url"]) ⊆ exampleCrates := by
    split
    · decide
    · decide
  have sink : program.main.sink.crates ⊆ exampleCrates := by
    cases program.main.sink with
    | writeParquet path => exact List.nil_subset _
    | putObject bucket key =>
      rw [SinkCode.crates]
      decide
  rw [MainFn.crates, List.append_subset, List.append_subset, registration, registrationOf]
  simp only [fixed, sink, true_and, and_true]
  cases spec.sourceData.format with
  | parquet | csv => exact iff_of_true (List.nil_subset _) (by decide)
  | delta =>
    rw [Registration.crates]
    decide

section Ends

variable {tools : Toolchain} {parseMain : MainFn floats → Option String} {spec : PipelineSpec floats}
  {program : PipelineSource floats}

theorem PipelineSpec.usable_iff : (∀ schema ∈ spec.sourceSchema :: spec.targetSchema.toList, Usable schema) ↔
    Usable spec.sourceSchema ∧ Usable spec.sinkSchema := by
  rw [List.forall_mem_cons, PipelineSpec.sinkSchema]
  cases spec.targetSchema <;> simp

theorem PipelineSpec.passes_iff :
    spec.Passes ↔ renderedFields spec.sinkSchema.fields = renderedFields spec.sourceSchema.fields := by
  rw [PipelineSpec.Passes, PipelineSpec.sinkSchema]
  cases spec.targetSchema <;> simp

/-- Both schemas of a generated program have been rendered. -/
theorem program_renderable (made : pipelineSource tools parseMain spec = .ok program) :
    Renderable (.struct spec.sourceSchema.fields) ∧ Renderable (.struct spec.sinkSchema.fields) := by
  obtain ⟨sourceFile, targetFile, sourceMade, _, _, _, _, targetMade⟩ := pipelineSource_ok made
  have source := (structSource_renders sourceMade).renderable
  rw [PipelineSpec.sinkSchema]
  cases target : spec.targetSchema with
  | none => exact ⟨source, source⟩
  | some schema =>
    rw [target] at targetMade
    exact ⟨source, (structSource_renders targetMade.1).renderable⟩

/-- The structs of a generated program are well formed where the fields of both
schemas have names. -/
theorem program_wellFormed_iff (made : pipelineSource tools parseMain spec = .ok program)
    (sourceUnique : FieldsUnique (.struct spec.sourceSchema.fields))
    (sinkUnique : FieldsUnique (.struct spec.sinkSchema.fields)) :
    WellFormed program.structs ↔
      (∀ name ∈ fieldNames (.struct spec.sourceSchema.fields), namesNothing name = false) ∧
        ∀ name ∈ fieldNames (.struct spec.sinkSchema.fields), namesNothing name = false := by
  obtain ⟨sourceFile, targetFile, sourceMade, structs, _, _, _, targetMade⟩ := pipelineSource_ok made
  have source := wellFormed_marked_iff sourceMade (by decide) sourceUnique
  rw [PipelineSpec.sinkSchema] at sinkUnique ⊢
  rw [structs, WellFormed.append_iff, source]
  cases target : spec.targetSchema with
  | none =>
    rw [target] at targetMade
    obtain ⟨rfl, _⟩ := targetMade
    have empty : WellFormed [] := ⟨by simp, by simp, by simp⟩
    exact ⟨fun both => ⟨both.1, both.1⟩, fun both => ⟨both.1, empty⟩⟩
  | some schema =>
    rw [target] at targetMade sinkUnique
    exact and_congr_right fun _ => wellFormed_marked_iff targetMade.1 (by decide) sinkUnique

/-- The builder chain of a generated program declares the shapes of both
schemas, if a transform stands between them or they are the same. -/
theorem program_declares (made : pipelineSource tools parseMain spec = .ok program)
    (sourceApart : NamesApart (.struct spec.sourceSchema.fields)) (sinkApart : NamesApart (.struct spec.sinkSchema.fields))
    (connected : spec.transform ≠ none ∨
      renderedFields spec.sinkSchema.fields = renderedFields spec.sourceSchema.fields) :
    ∃ declared : ContractSink, program.Declares declared ∧
      ∀ shape ∈ declared.plan.declared ++ [declared.sink],
        shape = renderedShape (.struct spec.sourceSchema.fields) ∨
          shape = renderedShape (.struct spec.sinkSchema.fields) := by
  obtain ⟨_, _, _, _, _, transform, _⟩ := pipelineSource_ok made
  have source := ((program_shapes made _).1).mpr ⟨⟨sourceApart, sinkApart⟩, rfl⟩
  have sink := ((program_shapes made _).2).mpr ⟨⟨sourceApart, sinkApart⟩, rfl⟩
  by_cases absent : spec.transform = none
  · have same := connected.resolve_left (not_not.mpr absent)
    refine ⟨⟨⟨_, []⟩, .source (renderedShape (.struct spec.sourceSchema.fields)),
      renderedShape (.struct spec.sinkSchema.fields), conforms_renderedShape_iff.mpr same.symm⟩,
      ⟨source, sink, (if_pos (transform.mpr absent)).symm⟩, ?_⟩
    simp [Plan.declared]
  · have staged := mt transform.mp absent
    refine ⟨⟨⟨_, [] ++ [renderedShape (.struct spec.sinkSchema.fields)]⟩,
      .transform (renderedShape (.struct spec.sourceSchema.fields)) _
        (.source (renderedShape (.struct spec.sourceSchema.fields))) (conforms_renderedShape_iff.mpr rfl),
      renderedShape (.struct spec.sinkSchema.fields), conforms_renderedShape_iff.mpr rfl⟩,
      ⟨source, sink, (if_neg staged).symm⟩, ?_⟩
    simp [Plan.declared]

end Ends

/-- A generated pipeline compiles and prepares exactly when both ends keep
their structs apart, repeat no field, are not too deep and have names for all
fields, its source is no Delta table, and a transform stands between them or
they have the same fields. -/
theorem generated_pipeline_builds_iff {tools : Toolchain} {parseMain : MainFn floats → Option String}
    {spec : PipelineSpec floats} {program : PipelineSource floats} {ε : Type}
    (made : pipelineSource tools parseMain spec = .ok program) :
    (∃ declared, program.Compiles declared ∧
        ∃ prepared, (declared.build : Except (ContractPipelineError ε) _) = .ok prepared) ↔
      (∀ schema ∈ spec.sourceSchema :: spec.targetSchema.toList, Usable schema) ∧
        spec.sourceData.format ≠ .delta ∧ (spec.transform ≠ none ∨ spec.Passes) := by
  obtain ⟨_, _, _, _, _, transform, _⟩ := pipelineSource_ok made
  obtain ⟨sourceRenderable, sinkRenderable⟩ := program_renderable made
  have shapes := program_shapes made
  have crates := crates_inside_iff made
  rw [PipelineSpec.usable_iff, PipelineSpec.passes_iff]
  constructor
  · rintro ⟨declared, ⟨wellFormed, inside, sourceShape, sinkShape, stages⟩, built⟩
    obtain ⟨⟨sourceApart, sinkApart⟩, source⟩ := (shapes _).1.mp sourceShape
    have sink := ((shapes _).2.mp sinkShape).2
    have validators := build_ok_iff.mp built
    have sourceFits := (validator_renderedShape_iff sourceRenderable).mp
      (source ▸ validators declared.plan.source (by simp [Plan.declared]))
    have sinkFits := (validator_renderedShape_iff sinkRenderable).mp (sink ▸ validators declared.sink (by simp))
    have named := (program_wellFormed_iff made sourceFits.1 sinkFits.1).mp wellFormed
    refine ⟨⟨⟨sourceApart, sourceFits.1, sourceFits.2, named.1⟩, ⟨sinkApart, sinkFits.1, sinkFits.2, named.2⟩⟩,
      crates.mp inside, ?_⟩
    by_cases absent : spec.transform = none
    · have conform := declared.conforming
      rw [if_pos (transform.mpr absent)] at stages
      rw [Plan.declaration, stages, List.getLastD_nil, source, sink] at conform
      exact Or.inr (conforms_renderedShape_iff.mp conform).symm
    · exact Or.inl absent
  · rintro ⟨⟨source, sink⟩, foreign, connected⟩
    obtain ⟨declared, declares, only⟩ := program_declares made source.apart sink.apart connected
    have wellFormed := (program_wellFormed_iff made source.unique sink.unique).mpr ⟨source.named, sink.named⟩
    refine ⟨declared, ⟨wellFormed, crates.mpr foreign, declares⟩, build_ok_iff.mpr fun shape member => ?_⟩
    rcases only shape member with rfl | rfl
    · exact (validator_renderedShape_iff sourceRenderable).mpr ⟨source.unique, source.shallow⟩
    · exact (validator_renderedShape_iff sinkRenderable).mpr ⟨sink.unique, sink.shallow⟩

end Builder

end Datacrate.Scaffold
