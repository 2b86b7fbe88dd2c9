import Datacrate.Codegen.Gate

namespace Datacrate.Codegen

open Arrow
open Contracts (TypeShape FieldShape conforms schemaConformsCheck)

/-- The build script of the schema gate: a struct for each reference, all in
one file. What cannot be read or rendered is a panic, here none. -/
def generateSources (tools : Toolchain) (fromStr : String → Except String SchemaFile)
    (parse : String → Except String (List Node)) (parquet : Option Schema) (yaml xml : Option String) :
    Option (List RustStruct) := do
  let parquetSource ← (structSource tools "SourceOfTruth" (← parquet)).toOption
  let dbtSchema ← (parseDbtSchemaYml fromStr (← yaml) "orders").toOption
  let dbtSource ← (structSource tools "DbtSourceOfTruth" dbtSchema).toOption
  let erwinSchema ← (parseErwinXml parse (← xml) "Orders").toOption
  let erwinSource ← (structSource tools "ErwinSourceOfTruth" erwinSchema).toOption
  return parquetSource ++ dbtSource ++ erwinSource

/-- Each of the three generated structs passes its gate against the steward's
contract. -/
def GateCompiles (file : List RustStruct) (steward : TypeShape) : Prop :=
  WellFormed file ∧ ∀ ident ∈ ["SourceOfTruth", "DbtSourceOfTruth", "ErwinSourceOfTruth"], ∃ shape,
    ReadsAs file ident shape ∧ schemaConformsCheck shape steward .exactOrdered = .ok ()

section

variable {tools : Toolchain}

/-- The words that keep the structs of a generated program from the standard
types. -/
def marks : List String :=
  ["Source", "Target"]

/-- A name that is marked, and longer ones, are no standard names. -/
theorem marked_free {before mark : String} (marked : mark ∈ marks) (path : String) :
    bareName (before ++ mark) ++ path ∉ "Option" :: "Vec" :: contractTypes := by
  have plain : ∀ mark ∈ marks, '#' ∉ mark.toList := by decide
  have unmarked : ∀ name ∈ "Option" :: "Vec" :: contractTypes, ∀ mark ∈ marks, ¬ mark.toList <:+: name.toList := by
    decide +kernel
  intro standard
  refine unmarked _ standard mark marked ⟨(bareName before).toList, path.toList, ?_⟩
  rw [bareName_append (plain mark marked), String.toList_append, String.toList_append]

/-- A marked name is no reserved word. -/
theorem marked_names {before mark after : String} (marked : mark ∈ marks) :
    namesNothing (before ++ mark ++ after) = false := by
  have unmarked : ∀ word ∈ "_" :: reservedWords, ∀ mark ∈ marks, ¬ mark.toList <:+: word.toList := by decide +kernel
  rw [← Bool.not_eq_true, namesNothing, Bool.or_eq_true, beq_iff_eq, List.contains_iff_mem]
  intro nothing
  refine unmarked _ (List.mem_cons.mpr nothing.symm) mark marked ⟨before.toList, after.toList, ?_⟩
  rw [String.toList_append, String.toList_append]

/-- The rendered structs of a schema do not define a standard name. -/
theorem free_of_marked {structName before mark after : String} {original : Schema} {structs : List RustStruct}
    (made : structSource tools structName original = .ok structs) (spelled : structName = before ++ mark ++ after)
    (marked : mark ∈ marks) (plain : '#' ∉ after.toList) {name : String}
    (standard : name ∈ "Option" :: "Vec" :: contractTypes) : name ∉ definedNames structs := by
  rw [definedNames_structSource made, List.mem_map]
  rintro ⟨path, _, rfl⟩
  rw [spelled, bareName_append plain, String.append_assoc] at standard
  exact marked_free marked _ standard

/-- Structs under names that part at a letter have other names. -/
theorem definedNames_disjoint {firstName secondName : String} {first second : Schema}
    {firstFile secondFile : List RustStruct} (firstMade : structSource tools firstName first = .ok firstFile)
    (secondMade : structSource tools secondName second = .ok secondFile) {common cs ds : List Char} {c d : Char}
    (firstText : (bareName firstName).toList = common ++ c :: cs)
    (secondText : (bareName secondName).toList = common ++ d :: ds) (other : c ≠ d) :
    ∀ ident ∈ definedNames firstFile, ∀ later ∈ definedNames secondFile, ident ≠ later := by
  rw [definedNames_structSource firstMade, definedNames_structSource secondMade]
  intro ident member later laterMember same
  obtain ⟨path, _, rfl⟩ := List.mem_map.mp member
  obtain ⟨laterPath, _, rfl⟩ := List.mem_map.mp laterMember
  have texts := congrArg String.toList same
  rw [String.toList_append, String.toList_append, firstText, secondText, List.append_assoc, List.append_assoc,
    List.append_cancel_left_eq, List.cons_append, List.cons_append, List.cons.injEq] at texts
  exact other texts.1

theorem definedNames_append (first second : List RustStruct) :
    definedNames (first ++ second) = definedNames first ++ definedNames second :=
  List.map_append

/-- What the structs of a schema read as, in a file without standard names. -/
theorem readsAs_inside {structName : String} {original : Schema} {file structs : List RustStruct}
    (made : structSource tools structName original = .ok structs) (distinct : (definedNames file).Nodup)
    (inside : structs ⊆ file) (free : ∀ name ∈ "Option" :: "Vec" :: contractTypes, name ∉ definedNames file) :
    ReadsAs file structName (renderedShape (.struct original.fields)) := by
  refine ⟨distinct, (structSource_reads made distinct inside).reads fun name taken => ?_⟩
  rw [definition_eq_none_iff, bareName_standard taken]
  exact free name (standardNames_mem taken)

theorem WellFormed.append_iff {first second : List RustStruct} :
    WellFormed (first ++ second) ↔ WellFormed first ∧ WellFormed second := by
  constructor
  · rintro ⟨structs, fields, distinct⟩
    rw [List.forall_mem_append] at structs fields distinct
    exact ⟨⟨structs.1, fields.1, distinct.1⟩, ⟨structs.2, fields.2, distinct.2⟩⟩
  · rintro ⟨one, two⟩
    exact ⟨List.forall_mem_append.mpr ⟨one.structs, two.structs⟩, List.forall_mem_append.mpr ⟨one.fields, two.fields⟩,
      List.forall_mem_append.mpr ⟨one.distinct, two.distinct⟩⟩

theorem wellFormed_of_legible {structName : String} {original : Schema} {structs : List RustStruct}
    (made : structSource tools structName original = .ok structs) (recoverable : Recoverable original)
    (legible : Legible structName original.fields) : WellFormed structs :=
  (wellFormed_structSource_iff made recoverable.unique).mpr ⟨legible.structs, legible.names⟩

/-- What the three structs of the gate read as, in one file. -/
theorem gate_shapes {parquet dbt erwin : Schema} {parquetFile dbtFile erwinFile : List RustStruct}
    (parquetMade : structSource tools "SourceOfTruth" parquet = .ok parquetFile)
    (dbtMade : structSource tools "DbtSourceOfTruth" dbt = .ok dbtFile)
    (erwinMade : structSource tools "ErwinSourceOfTruth" erwin = .ok erwinFile)
    (parquetApart : NamesApart (.struct parquet.fields)) (dbtApart : NamesApart (.struct dbt.fields))
    (erwinApart : NamesApart (.struct erwin.fields)) :
    ReadsAs (parquetFile ++ dbtFile ++ erwinFile) "SourceOfTruth" (renderedShape (.struct parquet.fields)) ∧
      ReadsAs (parquetFile ++ dbtFile ++ erwinFile) "DbtSourceOfTruth" (renderedShape (.struct dbt.fields)) ∧
      ReadsAs (parquetFile ++ dbtFile ++ erwinFile) "ErwinSourceOfTruth" (renderedShape (.struct erwin.fields)) := by
  have distinct : (definedNames (parquetFile ++ dbtFile ++ erwinFile)).Nodup := by
    rw [definedNames_append, definedNames_append, List.nodup_append, List.nodup_append]
    refine ⟨⟨(definedNames_nodup_iff parquetMade).mpr parquetApart, (definedNames_nodup_iff dbtMade).mpr dbtApart,
      @definedNames_disjoint tools _ _ _ _ _ _ parquetMade dbtMade [] _ _ _ _ rfl rfl (by decide)⟩,
      (definedNames_nodup_iff erwinMade).mpr erwinApart, ?_⟩
    intro ident member
    rcases List.mem_append.mp member with first | second
    · exact @definedNames_disjoint tools _ _ _ _ _ _ parquetMade erwinMade [] _ _ _ _ rfl rfl (by decide) ident first
    · exact @definedNames_disjoint tools _ _ _ _ _ _ dbtMade erwinMade [] _ _ _ _ rfl rfl (by decide) ident second
  have free : ∀ name ∈ "Option" :: "Vec" :: contractTypes,
      name ∉ definedNames (parquetFile ++ dbtFile ++ erwinFile) := by
    intro name standard
    rw [definedNames_append, definedNames_append, List.mem_append, List.mem_append, not_or, not_or]
    have truth : '#' ∉ "OfTruth".toList := by decide
    refine ⟨⟨@free_of_marked tools "SourceOfTruth" "" "Source" "OfTruth" _ _ parquetMade rfl (by decide) truth _ standard,
      @free_of_marked tools "DbtSourceOfTruth" "Dbt" "Source" "OfTruth" _ _ dbtMade rfl (by decide) truth _ standard⟩,
      @free_of_marked tools "ErwinSourceOfTruth" "Erwin" "Source" "OfTruth" _ _ erwinMade rfl (by decide) truth _ standard⟩
  refine ⟨readsAs_inside parquetMade distinct ?_ free, readsAs_inside dbtMade distinct ?_ free,
    readsAs_inside erwinMade distinct ?_ free⟩
  · exact List.Subset.trans (List.subset_append_left _ _) (List.subset_append_left _ _)
  · exact List.Subset.trans (List.subset_append_right _ _) (List.subset_append_left _ _)
  · exact List.subset_append_right _ _

theorem generateSources_some {fromStr : String → Except String SchemaFile}
    {parse : String → Except String (List Node)} {yaml xml : String} {parquet dbt erwin : Schema}
    {file : List RustStruct} (dbtRead : parseDbtSchemaYml fromStr yaml "orders" = .ok dbt)
    (erwinRead : parseErwinXml parse xml "Orders" = .ok erwin)
    (made : generateSources tools fromStr parse (some parquet) (some yaml) (some xml) = some file) :
    ∃ parquetFile dbtFile erwinFile, structSource tools "SourceOfTruth" parquet = .ok parquetFile ∧
      structSource tools "DbtSourceOfTruth" dbt = .ok dbtFile ∧
      structSource tools "ErwinSourceOfTruth" erwin = .ok erwinFile ∧ file = parquetFile ++ dbtFile ++ erwinFile := by
  simp only [generateSources, dbtRead, erwinRead, Except.toOption, Option.bind_eq_bind, Option.bind_some] at made
  obtain ⟨parquetFile, first, made⟩ := Option.bind_eq_some_iff.mp made
  obtain ⟨dbtFile, second, made⟩ := Option.bind_eq_some_iff.mp made
  obtain ⟨erwinFile, third, made⟩ := Option.bind_eq_some_iff.mp made
  cases made
  refine ⟨parquetFile, dbtFile, erwinFile, ?_, ?_, ?_, rfl⟩
  · split at first <;> cases first
    assumption
  · split at second <;> cases second
    assumption
  · split at third <;> cases third
    assumption

/-- The gate crate compiles exactly against the contracts that describe each
of its three references. -/
theorem schema_gate_compiles_iff {fromStr : String → Except String SchemaFile}
    {parse : String → Except String (List Node)} {yaml xml : String} {parquet dbt erwin : Schema}
    {file : List RustStruct} (dbtRead : parseDbtSchemaYml fromStr yaml "orders" = .ok dbt)
    (erwinRead : parseErwinXml parse xml "Orders" = .ok erwin)
    (made : generateSources tools fromStr parse (some parquet) (some yaml) (some xml) = some file)
    (parquetWhole : Recoverable parquet ∧ Legible "SourceOfTruth" parquet.fields)
    (dbtWhole : Recoverable dbt ∧ Legible "DbtSourceOfTruth" dbt.fields)
    (erwinWhole : Recoverable erwin ∧ Legible "ErwinSourceOfTruth" erwin.fields) (steward : TypeShape) :
    GateCompiles file steward ↔
      TextIsString steward ∧ Describes steward parquet ∧ Describes steward dbt ∧ Describes steward erwin := by
  obtain ⟨parquetFile, dbtFile, erwinFile, parquetMade, dbtMade, erwinMade, rfl⟩ :=
    generateSources_some dbtRead erwinRead made
  obtain ⟨first, second, third⟩ :=
    gate_shapes parquetMade dbtMade erwinMade parquetWhole.1.apart dbtWhole.1.apart erwinWhole.1.apart
  have formed : WellFormed (parquetFile ++ dbtFile ++ erwinFile) :=
    WellFormed.append_iff.mpr ⟨WellFormed.append_iff.mpr ⟨wellFormed_of_legible parquetMade parquetWhole.1 parquetWhole.2,
      wellFormed_of_legible dbtMade dbtWhole.1 dbtWhole.2⟩, wellFormed_of_legible erwinMade erwinWhole.1 erwinWhole.2⟩
  -- a struct has one shape, and so one gate
  have gate : ∀ {ident : String} {shape : TypeShape}, ReadsAs (parquetFile ++ dbtFile ++ erwinFile) ident shape →
      ((∃ shape, ReadsAs (parquetFile ++ dbtFile ++ erwinFile) ident shape ∧
        schemaConformsCheck shape steward .exactOrdered = .ok ()) ↔ conforms shape steward .exactOrdered = true) := by
    intro ident shape here
    rw [← schemaConformsCheck_ok_iff]
    exact ⟨fun ⟨_, read, passes⟩ => read.unique here ▸ passes, fun passes => ⟨shape, here, passes⟩⟩
  simp only [GateCompiles, formed, true_and, List.forall_mem_cons, List.not_mem_nil, false_imp_iff, implies_true, and_true,
    gate first, gate second, gate third, gate_exact parquetMade parquetWhole.1, gate_exact dbtMade dbtWhole.1,
    gate_exact erwinMade erwinWhole.1]
  constructor
  · rintro ⟨⟨text, one⟩, ⟨_, two⟩, _, three⟩
    exact ⟨text, one, two, three⟩
  · rintro ⟨text, one, two, three⟩
    exact ⟨⟨text, one⟩, ⟨text, two⟩, text, three⟩

end

/-- The contract of the data steward. -/
def stewardInputModel : TypeShape :=
  .struct [⟨"id", .primitive "i64", false⟩, ⟨"customer_name", .optional (.primitive "String"), false⟩]

theorem ordersModel_read :
    parseDbtSchemaYml (fun _ => .ok ⟨[ordersModel]⟩) "" "orders" = .ok ordersSchema := by
  rw [parseDbtSchemaYml_found rfl ordersModel_found, readDeclarations_ok_iff]
  exact ⟨_, rfl, .cons (declaredColumn_ok_iff.mpr ⟨_, declaredTypeToArrow_bigint, rfl⟩)
    (.cons (declaredColumn_ok_iff.mpr ⟨_, declaredTypeToArrow_text, rfl⟩) .nil)⟩

theorem ordersEntity_read :
    parseErwinXml (fun _ => .ok ordersDocument) "" "Orders" = .ok ordersSchema := by
  rw [parseErwinXml_found rfl ordersEntity_found, readDeclarations_ok_iff]
  exact ⟨_, rfl, .cons (declaredColumn_ok_iff.mpr ⟨_, declaredTypeToArrow_bigint, rfl⟩)
    (.cons (declaredColumn_ok_iff.mpr ⟨_, declaredTypeToArrow_text, rfl⟩) .nil)⟩

theorem orders_gate_compiles :
    ∃ file, generateSources lenient (fun _ => .ok ⟨[ordersModel]⟩) (fun _ => .ok ordersDocument)
      (some ordersSchema) (some "") (some "") = some file ∧ GateCompiles file stewardInputModel := by
  have rendered : ∃ file, generateSources lenient (fun _ => .ok ⟨[ordersModel]⟩)
      (fun _ => .ok ordersDocument) (some ordersSchema) (some "") (some "") = some file := by
    rw [generateSources]
    simp only [ordersModel_read, ordersEntity_read, Option.bind_eq_bind, Option.bind_some, Except.toOption]
    exact ⟨_, rfl⟩
  obtain ⟨file, made⟩ := rendered
  have mappable : Mappable stewardInputModel := by
    refine .struct (by decide) ?_
    rw [List.forall_mem_cons, List.forall_mem_singleton]
    exact ⟨.primitive rfl, .optional rfl (.primitive rfl)⟩
  have describes : Describes stewardInputModel ordersSchema :=
    ⟨_, schema_ok_iff.mpr ⟨_, rfl, mappable, by decide, rfl⟩, rfl⟩
  have whole : ∀ structName ∈ ["SourceOfTruth", "DbtSourceOfTruth", "ErwinSourceOfTruth"],
      Recoverable ordersSchema ∧ Legible structName ordersSchema.fields := by
    simp only [List.forall_mem_cons, List.not_mem_nil, false_imp_iff, implies_true, and_true]
    exact ⟨⟨ordersSchema_recoverable, ordersSchema_legible (by decide) (by decide)⟩,
      ⟨ordersSchema_recoverable, ordersSchema_legible (by decide) (by decide)⟩,
      ⟨ordersSchema_recoverable, ordersSchema_legible (by decide) (by decide)⟩⟩
  exact ⟨file, made, (schema_gate_compiles_iff ordersModel_read ordersEntity_read made (whole _ (by simp))
    (whole _ (by simp)) (whole _ (by simp)) stewardInputModel).mpr ⟨rfl, describes, describes, describes⟩⟩

end Datacrate.Codegen
