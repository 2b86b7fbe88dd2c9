import Datacrate.Codegen.Documents
import Datacrate.Scaffold.Program

namespace Datacrate.Scaffold

open Arrow Codegen
open Typestate (ContractSink ContractPipelineError)

inductive SchemaSpec where
  | parquet (path : String)
  | dbt (yaml model : String)
  | erwin (xml entity : String)
  | delta (uri : String)
  deriving DecidableEq, Repr

inductive SchemaCodegenError where
  | openFile (path source : String)
  | reader (source : String)
  | declaration (source : DeclarationError)
  | render (source : PipelineFailure)

/-- What ends the command. The errors of the transform flags are those of
`parseTransform`. -/
inductive CommandError where
  | schema (source : SchemaCodegenError)
  | writeOutput (path source : String)
  | invalidSpec (spec : String)
  | missingSourceData (spec : String)
  | unknownSourceFormat (location : String)
  | transform (source : CliError)

structure PipelineArgs where
  sourceSchema : String
  sourceData : Option String
  sourceFormat : Option SourceFormat
  targetSchema : Option String
  transformSql : Option String
  transformDf : List String
  sinkParquet : String
  name : String
  out : Option String

/-- What the command takes from its machine: the files, the readers of schemas
and documents, and the tools that render a program. -/
structure Machine (floats : Floats) where
  readFile : String → Except String String
  writeFile : String → Option String
  readParquetSchema : String → Except String Schema
  readDeltaSchema : String → Except String Schema
  yaml : String → Except String SchemaFile
  xml : String → Except String (List Codegen.Node)
  tools : Toolchain
  parseMain : MainFn floats → Option String

def readPair (text : List Char) : Option (String × String) :=
  (Text.rsplitOnce ':' text).map fun parts => (String.ofList parts.1, String.ofList parts.2)

def specOfKind (kind : String) (rest : List Char) : Option SchemaSpec :=
  match kind with
  | "parquet" => some (.parquet (String.ofList rest))
  | "delta" => some (.delta (String.ofList rest))
  | "dbt" => (readPair rest).map fun pair => .dbt pair.1 pair.2
  | "erwin" => (readPair rest).map fun pair => .erwin pair.1 pair.2
  | _ => none

def readSchemaSpec (spec : String) : Option SchemaSpec :=
  (Text.splitOnce ':' spec.toList).bind fun parts => specOfKind (String.ofList parts.1) parts.2

def parseSchemaSpec (spec : String) : Except CommandError SchemaSpec :=
  match readSchemaSpec spec with
  | some spec => .ok spec
  | none => .error (.invalidSpec spec)

def inferFormat (location : String) : Option SourceFormat :=
  if ".csv".toList <:+ location.toList then some .csv
  else if ".parquet".toList <:+ location.toList then some .parquet
  else none

/-- The location of the data and the format that it shows. -/
def resolveSourceData (spec : SchemaSpec) (sourceData : Option String) :
    Except CommandError (String × Option SourceFormat) :=
  match sourceData with
  | some location => .ok (location, inferFormat location)
  | none =>
    match spec with
    | .parquet path => .ok (path, some .parquet)
    | .delta uri => .ok (uri, some .delta)
    | .dbt _ _ => .error (.missingSourceData "dbt:...")
    | .erwin _ _ => .error (.missingSourceData "erwin:...")

section Run

variable {floats : Floats} (machine : Machine floats)

def readToString (path : String) : Except SchemaCodegenError String :=
  (machine.readFile path).mapError (.openFile path)

def resolveSchema : SchemaSpec → Except SchemaCodegenError Schema
  | .parquet path => (machine.readParquetSchema path).mapError .reader
  | .delta uri => (machine.readDeltaSchema uri).mapError .reader
  | .dbt yaml model => do
    let text ← readToString machine yaml
    (parseDbtSchemaYml machine.yaml text model).mapError .declaration
  | .erwin xml entity => do
    let text ← readToString machine xml
    (parseErwinXml machine.xml text entity).mapError .declaration

def readSchema (spec : SchemaSpec) : Except CommandError Schema :=
  (resolveSchema machine spec).mapError .schema

def readTarget : Option String → Except CommandError (Option Schema)
  | some text => do
    let spec ← parseSchemaSpec text
    let schema ← readSchema machine spec
    return some schema
  | none => .ok none

/-- The program goes to a file or to the standard output. -/
def writeOutput (out : Option String) (program : PipelineSource floats) :
    Except CommandError (Option String × PipelineSource floats) :=
  match out.bind fun path => (machine.writeFile path).map fun source => (path, source) with
  | some (path, source) => .error (.writeOutput path source)
  | none => .ok (out, program)

def chooseFormat (args : PipelineArgs) (location : String) (inferred : Option SourceFormat) :
    Except CommandError SourceFormat :=
  match args.sourceFormat with
  | some explicit => .ok explicit
  | none => inferred.elim (.error (.unknownSourceFormat location)) .ok

def runPipeline (args : PipelineArgs) : Except CommandError (Option String × PipelineSource floats) := do
  let sourceSpec ← parseSchemaSpec args.sourceSchema
  let sourceSchema ← readSchema machine sourceSpec
  let targetSchema ← readTarget machine args.targetSchema
  let (location, inferred) ← resolveSourceData sourceSpec args.sourceData
  let format ← chooseFormat args location inferred
  let transform ← (parseTransform floats args.transformSql args.transformDf).mapError .transform
  let spec : PipelineSpec floats :=
    { name := args.name, sourceSchema, targetSchema, sourceData := ⟨location, format⟩, transform,
      sinkParquet := args.sinkParquet }
  let rendered ← (pipelineSource machine.tools machine.parseMain spec).mapError fun source => .schema (.render source)
  writeOutput machine args.out rendered

end Run

/-- How a spec is written. -/
def SchemaSpec.text : SchemaSpec → String
  | .parquet path => "parquet:" ++ path
  | .delta uri => "delta:" ++ uri
  | .dbt yaml model => "dbt:" ++ yaml ++ ":" ++ model
  | .erwin xml entity => "erwin:" ++ xml ++ ":" ++ entity

/-- Only paths may contain the separator. -/
def SchemaSpec.Proper : SchemaSpec → Prop
  | .parquet _ | .delta _ => True
  | .dbt _ table | .erwin _ table => ':' ∉ table.toList

theorem readPair_eq_some_iff {text : List Char} {first second : String} :
    readPair text = some (first, second) ↔ text = first.toList ++ ':' :: second.toList ∧ ':' ∉ second.toList := by
  rw [readPair, Option.map_eq_some_iff]
  constructor
  · rintro ⟨⟨before, after⟩, split, parts⟩
    cases parts
    rw [String.toList_ofList, String.toList_ofList]
    exact Text.rsplitOnce_eq_some_iff.mp split
  · intro written
    refine ⟨(first.toList, second.toList), Text.rsplitOnce_eq_some_iff.mpr written, ?_⟩
    rw [String.ofList_toList, String.ofList_toList]

/-- How the rest of a spec is written, and which kind leads it. -/
def SchemaSpec.parts : SchemaSpec → String × List Char
  | .parquet path => ("parquet", path.toList)
  | .delta uri => ("delta", uri.toList)
  | .dbt yaml model => ("dbt", yaml.toList ++ ':' :: model.toList)
  | .erwin xml entity => ("erwin", xml.toList ++ ':' :: entity.toList)

theorem SchemaSpec.text_parts (spec : SchemaSpec) :
    spec.text.toList = spec.parts.1.toList ++ ':' :: spec.parts.2 ∧ ':' ∉ spec.parts.1.toList := by
  cases spec <;> simp [text, parts, String.toList_append]

theorem specOfKind_eq_some_iff {kind : String} {rest : List Char} {spec : SchemaSpec} :
    specOfKind kind rest = some spec ↔ spec.parts = (kind, rest) ∧ spec.Proper := by
  constructor
  · intro read
    unfold specOfKind at read
    split at read
    · cases read
      exact ⟨by rw [SchemaSpec.parts, String.toList_ofList], trivial⟩
    · cases read
      exact ⟨by rw [SchemaSpec.parts, String.toList_ofList], trivial⟩
    · obtain ⟨⟨yaml, model⟩, split, rfl⟩ := Option.map_eq_some_iff.mp read
      obtain ⟨rfl, plain⟩ := readPair_eq_some_iff.mp split
      exact ⟨rfl, plain⟩
    · obtain ⟨⟨xml, entity⟩, split, rfl⟩ := Option.map_eq_some_iff.mp read
      obtain ⟨rfl, plain⟩ := readPair_eq_some_iff.mp split
      exact ⟨rfl, plain⟩
    · cases read
  · rintro ⟨written, proper⟩
    cases spec with
    | parquet path =>
      cases written
      rw [specOfKind, String.ofList_toList]
    | delta uri =>
      cases written
      rw [specOfKind, String.ofList_toList]
    | dbt yaml model =>
      cases written
      have split : readPair (yaml.toList ++ ':' :: model.toList) = some (yaml, model) :=
        readPair_eq_some_iff.mpr ⟨rfl, proper⟩
      rw [specOfKind, split]
      rfl
    | erwin xml entity =>
      cases written
      have split : readPair (xml.toList ++ ':' :: entity.toList) = some (xml, entity) :=
        readPair_eq_some_iff.mpr ⟨rfl, proper⟩
      rw [specOfKind, split]
      rfl

/-- A spec is read back from its text, and from no other. -/
theorem readSchemaSpec_eq_some_iff {text : String} {spec : SchemaSpec} :
    readSchemaSpec text = some spec ↔ text = spec.text ∧ spec.Proper := by
  obtain ⟨written, plain⟩ := spec.text_parts
  rw [readSchemaSpec, Option.bind_eq_some_iff]
  constructor
  · rintro ⟨⟨kind, rest⟩, split, read⟩
    obtain ⟨whole, _⟩ := Text.splitOnce_eq_some_iff.mp split
    obtain ⟨parts, proper⟩ := specOfKind_eq_some_iff.mp read
    refine ⟨String.toList_inj.mp ?_, proper⟩
    rw [whole, written, parts, String.toList_ofList]
  · rintro ⟨rfl, proper⟩
    refine ⟨(spec.parts.1.toList, spec.parts.2), Text.splitOnce_eq_some_iff.mpr ⟨written, plain⟩, ?_⟩
    rw [String.ofList_toList]
    exact specOfKind_eq_some_iff.mpr ⟨rfl, proper⟩

theorem parseSchemaSpec_ok_iff {text : String} {spec : SchemaSpec} :
    parseSchemaSpec text = .ok spec ↔ text = spec.text ∧ spec.Proper := by
  rw [← readSchemaSpec_eq_some_iff, parseSchemaSpec]
  cases readSchemaSpec text <;> simp

section Results

variable {floats : Floats} {machine : Machine floats} {args : PipelineArgs} {out : Option String}
  {program : PipelineSource floats}

/-- The spec names this schema on the machine. -/
def Names (machine : Machine floats) (text : String) (schema : Schema) : Prop :=
  ∃ spec : SchemaSpec, text = spec.text ∧ spec.Proper ∧ resolveSchema machine spec = .ok schema

/-- Where the data is: where the flag says, or where the spec of its schema
leads. -/
def Locates (args : PipelineArgs) (data : SourceData) : Prop :=
  ((args.sourceData = some data.location ∧ args.sourceFormat.or (inferFormat data.location) = some data.format) ∨
    args.sourceData = none ∧
      ((args.sourceSchema = "parquet:" ++ data.location ∧ args.sourceFormat.or (some .parquet) = some data.format) ∨
        args.sourceSchema = "delta:" ++ data.location ∧ args.sourceFormat.or (some .delta) = some data.format))

/-- The schema of the target, if a spec is given for it. -/
def NamesTarget (machine : Machine floats) (text : Option String) (schema : Option Schema) : Prop :=
  (text = none ∧ schema = none) ∨ ∃ spec target, text = some spec ∧ schema = some target ∧ Names machine spec target

theorem readSchema_ok_iff {spec : SchemaSpec} {schema : Schema} :
    readSchema machine spec = .ok schema ↔ resolveSchema machine spec = .ok schema :=
  mapError_ok_iff

theorem readTarget_ok_iff {text : Option String} {schema : Option Schema} :
    readTarget machine text = .ok schema ↔ NamesTarget machine text schema := by
  cases text with
  | none => simp [readTarget, NamesTarget, eq_comm]
  | some text =>
    rw [readTarget, Fallible.bind_ok_iff]
    constructor
    · rintro ⟨spec, parsed, rest⟩
      obtain ⟨target, read, returned⟩ := Fallible.bind_ok_iff.mp rest
      cases returned
      obtain ⟨written, proper⟩ := parseSchemaSpec_ok_iff.mp parsed
      exact Or.inr ⟨text, target, rfl, rfl, spec, written, proper, readSchema_ok_iff.mp read⟩
    · rintro (⟨impossible, _⟩ | ⟨_, target, same, rfl, spec, written, proper, read⟩)
      · cases impossible
      · cases same
        refine ⟨spec, parseSchemaSpec_ok_iff.mpr ⟨written, proper⟩, Fallible.bind_ok_iff.mpr ⟨target, ?_, rfl⟩⟩
        exact readSchema_ok_iff.mpr read

theorem chooseFormat_ok_iff {location : String} {inferred : Option SourceFormat} {format : SourceFormat} :
    chooseFormat args location inferred = .ok format ↔ args.sourceFormat.or inferred = some format := by
  rw [chooseFormat]
  cases args.sourceFormat with
  | some explicit => simp
  | none => cases inferred <;> simp

theorem locates_of_resolved {spec : SchemaSpec} {location : String} {inferred : Option SourceFormat}
    {format : SourceFormat} (written : args.sourceSchema = spec.text)
    (resolved : resolveSourceData spec args.sourceData = .ok (location, inferred))
    (chosen : chooseFormat args location inferred = .ok format) : Locates args ⟨location, format⟩ := by
  have format := chooseFormat_ok_iff.mp chosen
  unfold resolveSourceData at resolved
  cases data : args.sourceData with
  | some given =>
    rw [data] at resolved
    cases resolved
    exact Or.inl ⟨data, format⟩
  | none =>
    rw [data] at resolved
    cases spec with
    | parquet path =>
      cases resolved
      exact Or.inr ⟨data, Or.inl ⟨written, format⟩⟩
    | delta uri =>
      cases resolved
      exact Or.inr ⟨data, Or.inr ⟨written, format⟩⟩
    | dbt | erwin => cases resolved

theorem writeOutput_ok {written : Option String × PipelineSource floats}
    (wrote : writeOutput machine args.out program = .ok written) :
    written = (args.out, program) ∧ ∀ path, args.out = some path → machine.writeFile path = none := by
  unfold writeOutput at wrote
  cases out : args.out with
  | none =>
    rw [out] at wrote
    cases wrote
    exact ⟨rfl, fun _ impossible => by cases impossible⟩
  | some path =>
    rw [out, Option.bind_some] at wrote
    cases failed : machine.writeFile path with
    | some source =>
      rw [failed] at wrote
      cases wrote
    | none =>
      rw [failed] at wrote
      cases wrote
      refine ⟨rfl, fun other same => ?_⟩
      cases same
      exact failed

theorem parseTransform_none_iff {transform : Option (TransformSpec floats)}
    (parsed : parseTransform floats args.transformSql args.transformDf = .ok transform) :
    transform = none ↔ args.transformSql = none ∧ args.transformDf = [] := by
  unfold parseTransform at parsed
  split at parsed
  · cases parsed
  · rename_i sql _
    cases parsed
    simp [sql]
  · rename_i sql empty
    cases parsed
    simp [sql, List.isEmpty_iff.mp empty]
  · rename_i sql given
    obtain ⟨ops, _, made⟩ := Fallible.bind_ok_iff.mp parsed
    cases made
    have nonempty : args.transformDf ≠ [] := by
      intro empty
      simp [empty] at given
    simp [nonempty]

/-- What a run that wrote its program has read on the way. -/
theorem runPipeline_ok (wrote : runPipeline machine args = .ok (out, program)) :
    ∃ spec : PipelineSpec floats, pipelineSource machine.tools machine.parseMain spec = .ok program ∧
      spec.name = args.name ∧
      (Names machine args.sourceSchema spec.sourceSchema ∧ NamesTarget machine args.targetSchema spec.targetSchema) ∧
      Locates args spec.sourceData ∧ (spec.transform = none ↔ args.transformSql = none ∧ args.transformDf = []) ∧
      out = args.out ∧ ∀ path, args.out = some path → machine.writeFile path = none := by
  unfold runPipeline at wrote
  obtain ⟨sourceSpec, parsed, wrote⟩ := Fallible.bind_ok_iff.mp wrote
  obtain ⟨sourceSchema, resolved, wrote⟩ := Fallible.bind_ok_iff.mp wrote
  obtain ⟨targetSchema, target, wrote⟩ := Fallible.bind_ok_iff.mp wrote
  obtain ⟨⟨location, inferred⟩, located, wrote⟩ := Fallible.bind_ok_iff.mp wrote
  obtain ⟨format, chosen, wrote⟩ := Fallible.bind_ok_iff.mp wrote
  obtain ⟨transform, transformed, wrote⟩ := Fallible.bind_ok_iff.mp wrote
  obtain ⟨rendered, made, wrote⟩ := Fallible.bind_ok_iff.mp wrote
  obtain ⟨same, written⟩ := writeOutput_ok wrote
  cases same
  obtain ⟨text, proper⟩ := parseSchemaSpec_ok_iff.mp parsed
  refine ⟨_, mapError_ok_iff.mp made, rfl, ⟨⟨sourceSpec, text, proper, readSchema_ok_iff.mp resolved⟩, ?_⟩, ?_, ?_,
    rfl, written⟩
  · exact readTarget_ok_iff.mp target
  · exact locates_of_resolved text located chosen
  · exact parseTransform_none_iff (mapError_ok_iff.mp transformed)

/-- A program that the command has written registers the data where the flags
say, and compiles and prepares exactly when the schemas that the specs name
keep their structs apart, repeat no field, are not too deep and have names for
all fields, the data is no Delta table, and a transform was asked for or both
have the same fields. -/
theorem scaffolded_pipeline_builds_iff {ε : Type} (wrote : runPipeline machine args = .ok (out, program)) :
    (out = args.out ∧ ∀ path, args.out = some path → machine.writeFile path = none) ∧
    ∃ source target data, Names machine args.sourceSchema source ∧ NamesTarget machine args.targetSchema target ∧
      Locates args data ∧ program.main.registration = registrationOf (args.name ++ "Source") data ∧
      ((∃ declared, program.Compiles declared ∧
          ∃ prepared, (declared.build : Except (ContractPipelineError ε) _) = .ok prepared) ↔
        (∀ schema ∈ source :: target.toList, Usable schema) ∧ data.format ≠ .delta ∧
          (args.transformSql ≠ none ∨ args.transformDf ≠ [] ∨
            ∀ schema ∈ target, renderedFields schema.fields = renderedFields source.fields)) := by
  obtain ⟨spec, made, name, ⟨source, target⟩, located, transform, written⟩ := runPipeline_ok wrote
  refine ⟨written, spec.sourceSchema, spec.targetSchema, spec.sourceData, source, target, located, ?_, ?_⟩
  · obtain ⟨_, _, _, _, _, _, registration, _⟩ := pipelineSource_ok made
    rw [← name, registration]
  · have asked : spec.transform ≠ none ↔ args.transformSql ≠ none ∨ args.transformDf ≠ [] := by
      rw [ne_eq, transform, not_and_or]
    rw [generated_pipeline_builds_iff made, asked, or_assoc]
    rfl

/-- The spec of a declared table reads as these declarations. -/
def Declares (machine : Machine floats) (spec : SchemaSpec) (declarations : List Declaration) : Prop :=
  match spec with
  | .dbt yaml model => ∃ text file found, machine.readFile yaml = .ok text ∧ machine.yaml text = .ok file ∧
    file.Finds model found ∧ declarations = found.declarations
  | .erwin xml entity => ∃ text document found, machine.readFile xml = .ok text ∧ machine.xml text = .ok document ∧
    FindsEntity document entity found ∧ declarations = found.declarations
  | .parquet _ | .delta _ => False

theorem resolveSchema_declared {spec : SchemaSpec} {declarations : List Declaration}
    (declares : Declares machine spec declarations) :
    resolveSchema machine spec = (readDeclarations declarations).mapError .declaration := by
  cases spec with
  | parquet | delta => exact declares.elim
  | dbt yaml model =>
    obtain ⟨text, file, found, opened, decoded, finds, rfl⟩ := declares
    rw [resolveSchema, readToString, opened, ← parseDbtSchemaYml_found decoded finds]
    rfl
  | erwin xml entity =>
    obtain ⟨text, document, found, opened, parsed, finds, rfl⟩ := declares
    rw [resolveSchema, readToString, opened, ← parseErwinXml_found parsed finds]
    rfl

/-- Documents that declare the same columns scaffold the same pipeline, as the
target and, with the data given apart, as the source. -/
theorem scaffolded_declarations_agree {first second : SchemaSpec} {left right : List Declaration}
    (proper : first.Proper ∧ second.Proper) (firstDeclares : Declares machine first left)
    (secondDeclares : Declares machine second right) (columns : List.Forall₂ SameColumn left right) :
    runPipeline machine { args with targetSchema := some first.text } =
        runPipeline machine { args with targetSchema := some second.text } ∧
      (args.sourceData ≠ none → runPipeline machine { args with sourceSchema := first.text } =
        runPipeline machine { args with sourceSchema := second.text }) := by
  obtain ⟨schema, leftRead, rightRead⟩ := readDeclarations_agree_iff.mpr columns
  have firstRead : readSchema machine first = .ok schema := by
    rw [readSchema, resolveSchema_declared firstDeclares, leftRead]
    rfl
  have secondRead : readSchema machine second = .ok schema := by
    rw [readSchema, resolveSchema_declared secondDeclares, rightRead]
    rfl
  have firstParsed := parseSchemaSpec_ok_iff.mpr ⟨rfl, proper.1⟩
  have secondParsed := parseSchemaSpec_ok_iff.mpr ⟨rfl, proper.2⟩
  constructor
  · have firstTarget : readTarget machine (some first.text) = .ok (some schema) := by
      rw [readTarget, firstParsed]
      simp only [bind, Except.bind, firstRead, pure, Except.pure]
    have secondTarget : readTarget machine (some second.text) = .ok (some schema) := by
      rw [readTarget, secondParsed]
      simp only [bind, Except.bind, secondRead, pure, Except.pure]
    simp only [runPipeline, firstTarget, secondTarget]
    rfl
  · intro given
    obtain ⟨location, data⟩ := Option.ne_none_iff_exists'.mp given
    simp only [runPipeline, firstParsed, secondParsed, bind, Except.bind, firstRead, secondRead, data, resolveSourceData]
    rfl

end Results

/-- The reference documents, on a machine with nothing else. -/
def ordersMachine : Machine exampleFloats where
  readFile := fun _ => .ok ""
  writeFile := fun _ => none
  readParquetSchema := fun _ => .error "no such file"
  readDeltaSchema := fun _ => .error "no such table"
  yaml := fun _ => .ok ⟨[ordersModel]⟩
  xml := fun _ => .ok ordersDocument
  tools := lenient
  parseMain := fun _ => none

/-- The orders of the schema gate, passed on to a bucket as they are. -/
def ordersArgs : PipelineArgs where
  sourceSchema := "dbt:C:/orders.yml:orders"
  sourceData := some "s3://lake/orders.parquet"
  sourceFormat := none
  targetSchema := none
  transformSql := none
  transformDf := []
  sinkParquet := "s3://lake/out/orders.parquet"
  name := "Orders"
  out := none

theorem ordersArgs_parsed : parseSchemaSpec ordersArgs.sourceSchema = .ok (.dbt "C:/orders.yml" "orders") :=
  parseSchemaSpec_ok_iff.mpr ⟨by decide +kernel, by simp [SchemaSpec.Proper]⟩

theorem ordersArgs_read : readSchema ordersMachine (.dbt "C:/orders.yml" "orders") = .ok ordersSchema := by
  have found : resolveSchema ordersMachine (.dbt "C:/orders.yml" "orders") =
      (parseDbtSchemaYml (fun _ => .ok ⟨[ordersModel]⟩) "" "orders").mapError .declaration := rfl
  rw [readSchema, found, ordersModel_read]
  rfl

theorem ordersArgs_wrote : ∃ program, runPipeline ordersMachine ordersArgs = .ok (none, program) := by
  simp only [runPipeline, ordersArgs_parsed, bind, Except.bind, ordersArgs_read]
  exact ⟨_, rfl⟩

/-- The spec names the one schema, and there is no target. -/
theorem ordersArgs_names {source : Schema} {target : Option Schema}
    (named : Names ordersMachine ordersArgs.sourceSchema source)
    (targeted : NamesTarget ordersMachine ordersArgs.targetSchema target) : source = ordersSchema ∧ target = none := by
  obtain ⟨spec, text, proper, resolved⟩ := named
  cases ordersArgs_parsed.symm.trans (parseSchemaSpec_ok_iff.mpr ⟨text, proper⟩)
  cases ordersArgs_read.symm.trans (readSchema_ok_iff.mpr resolved)
  refine ⟨rfl, ?_⟩
  rcases targeted with ⟨_, none⟩ | ⟨_, _, impossible, _⟩
  · exact none
  · cases impossible

/-- The data is a Parquet object. -/
theorem ordersArgs_format {data : SourceData} (located : Locates ordersArgs data) : data.format ≠ .delta := by
  have inferred : inferFormat "s3://lake/orders.parquet" = some .parquet := by decide +kernel
  obtain ⟨location, kind⟩ := data
  rcases located with ⟨given, format⟩ | ⟨absent, _⟩
  · cases given
    rintro rfl
    have here : inferFormat "s3://lake/orders.parquet" = some .delta := format
    rw [inferred] at here
    cases here
  · cases absent

theorem ordersSchema_usable : Usable ordersSchema :=
  ⟨ordersSchema_recoverable.apart, ordersSchema_recoverable.unique, ordersSchema_recoverable.shallow, by decide⟩

theorem orders_scaffolded : ∃ program, runPipeline ordersMachine ordersArgs = .ok (none, program) ∧
    ∃ declared, program.Compiles declared ∧
      ∃ prepared, (declared.build : Except (ContractPipelineError String) _) = .ok prepared := by
  obtain ⟨program, wrote⟩ := ordersArgs_wrote
  refine ⟨program, wrote, ?_⟩
  obtain ⟨_, source, target, data, named, targeted, located, _, builds⟩ :=
    @scaffolded_pipeline_builds_iff _ _ _ _ _ String wrote
  obtain ⟨rfl, rfl⟩ := ordersArgs_names named targeted
  refine builds.mpr ⟨List.forall_mem_singleton.mpr ordersSchema_usable, ordersArgs_format located, Or.inr (Or.inr ?_)⟩
  simp

theorem orders_scaffolded_alike :
    runPipeline ordersMachine { ordersArgs with sourceSchema := "dbt:orders.yml:orders" } =
      runPipeline ordersMachine { ordersArgs with sourceSchema := "erwin:orders.xml:Orders" } := by
  have model : Declares ordersMachine (.dbt "orders.yml" "orders") ordersModel.declarations :=
    ⟨_, _, _, rfl, rfl, ordersModel_found, rfl⟩
  have entity : Declares ordersMachine (.erwin "orders.xml" "Orders") ordersEntity.declarations :=
    ⟨_, _, _, rfl, rfl, ordersEntity_found, rfl⟩
  have plain : (SchemaSpec.dbt "orders.yml" "orders").Proper ∧ (SchemaSpec.erwin "orders.xml" "Orders").Proper := by
    simp [SchemaSpec.Proper]
  exact (scaffolded_declarations_agree plain model entity ordersColumns_same).2 (by simp [ordersArgs])

end Datacrate.Scaffold
