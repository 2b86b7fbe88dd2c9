import Datacrate.Codegen.Text
import Mathlib.Data.List.Nodup

namespace Datacrate.Codegen

open Arrow

mutual

/-- The paths from a type to the structs in it, in the words that their
names are made of. -/
def structPaths : DataType → List String
  | .list ⟨_, itemType, _, _⟩ | .largeList ⟨_, itemType, _, _⟩ => (structPaths itemType).map ("Item" ++ ·)
  | .struct fields => fieldPaths fields ++ [""]
  | .leaf _ | .map _ _ => []

def fieldPaths : List Field → List String
  | [] => []
  | ⟨name, dataType, _, _⟩ :: rest => (structPaths dataType).map (toPascalCase name ++ ·) ++ fieldPaths rest

end

mutual

/-- The standard names that the rendered text of a type takes. -/
def standardNames : DataType → List String
  | .list ⟨_, itemType, _, _⟩ | .largeList ⟨_, itemType, _, _⟩ => "Vec" :: standardNames itemType
  | .struct fields => fieldStandardNames fields
  | .leaf kind => (rustPrimitive kind).toList
  | .map _ _ => []

def fieldStandardNames : List Field → List String
  | [] => []
  | ⟨_, dataType, nullable, _⟩ :: rest =>
    (if nullable then ["Option"] else []) ++ standardNames dataType ++ fieldStandardNames rest

end

mutual

/-- The names of the fields of a type, at any depth. -/
def fieldNames : DataType → List String
  | .list ⟨_, itemType, _, _⟩ | .largeList ⟨_, itemType, _, _⟩ => fieldNames itemType
  | .struct fields => fieldNamesOf fields
  | .leaf _ | .map _ _ => []

def fieldNamesOf : List Field → List String
  | [] => []
  | ⟨name, dataType, _, _⟩ :: rest => name :: (fieldNames dataType ++ fieldNamesOf rest)

end

/-- No struct repeats a field name, at any depth. -/
inductive FieldsUnique : DataType → Prop
  | leaf (kind : LeafType) : FieldsUnique (.leaf kind)
  | map (entries : Field) (sorted : Bool) : FieldsUnique (.map entries sorted)
  | list {item : Field} : FieldsUnique item.dataType → FieldsUnique (.list item)
  | largeList {item : Field} : FieldsUnique item.dataType → FieldsUnique (.largeList item)
  | struct {fields : List Field} : (fields.map (·.name)).Nodup →
      (∀ field ∈ fields, FieldsUnique field.dataType) → FieldsUnique (.struct fields)

/-- Types that have a Rust counterpart. -/
inductive Renderable : DataType → Prop
  | leaf {kind : LeafType} : (rustPrimitive kind).isSome → Renderable (.leaf kind)
  | list {item : Field} : Renderable item.dataType → Renderable (.list item)
  | largeList {item : Field} : Renderable item.dataType → Renderable (.largeList item)
  | struct {fields : List Field} : (∀ field ∈ fields, Renderable field.dataType) → Renderable (.struct fields)

/-- No struct of the file has a standard name that the file takes. -/
def Unshadowed (structName : String) (fields : List Field) : Prop :=
  ∀ path ∈ structPaths (.struct fields), bareName structName ++ path ∉ standardNames (.struct fields)

/-- The paths to the structs below a field of a struct. -/
def reached (field : Field) : List String :=
  (structPaths field.dataType).map (toPascalCase field.name ++ ·)

theorem fieldPaths_eq_flatMap (fields : List Field) : fieldPaths fields = fields.flatMap reached := by
  induction fields with
  | nil => rfl
  | cons field rest ih =>
    cases field
    rw [fieldPaths, ih, List.flatMap_cons, reached]

def isStruct : DataType → Bool
  | .struct _ => true
  | _ => false

/-- No struct-typed field is named by separators alone, and no two fields of
one struct lead to structs along the same words, at any depth. -/
inductive NamesApart : DataType → Prop
  | leaf (kind : LeafType) : NamesApart (.leaf kind)
  | map (entries : Field) (sorted : Bool) : NamesApart (.map entries sorted)
  | list {item : Field} : NamesApart item.dataType → NamesApart (.list item)
  | largeList {item : Field} : NamesApart item.dataType → NamesApart (.largeList item)
  | struct {fields : List Field} : (∀ field ∈ fields, NamesApart field.dataType) →
      (∀ field ∈ fields, isStruct field.dataType = true → ∃ c ∈ field.name.toList, c ≠ '_' ∧ c ≠ '-') →
      fields.Pairwise (fun first second => ∀ path ∈ reached first, path ∉ reached second) →
      NamesApart (.struct fields)

theorem flatten_splitOnP {α : Type} (separates : α → Bool) (xs : List α) :
    (xs.splitOnP separates).flatten = xs.filter fun x => !separates x := by
  induction xs with
  | nil => rfl
  | cons x rest ih =>
    rw [List.splitOnP_cons_eq_if_modifyHead]
    have nonempty := List.splitOnP_ne_nil separates rest
    cases parts : rest.splitOnP separates with
    | nil => exact absurd parts nonempty
    | cons part others =>
      rw [parts] at ih
      cases separate : separates x <;> simp [separate, ← ih]

theorem capitalize_eq_nil_iff {part : List Char} : capitalize part = [] ↔ part = [] := by
  cases part <;> simp [capitalize]

/-- Only a name without letters or digits leaves nothing. -/
theorem toPascalCase_eq_empty_iff {name : String} :
    toPascalCase name = "" ↔ ∀ c ∈ name.toList, c = '_' ∨ c = '-' := by
  have parts := flatten_splitOnP (fun c => c == '_' || c == '-') name.toList
  have empty : toPascalCase name = "" ↔
      ∀ part ∈ name.toList.splitOnP fun c => c == '_' || c == '-', part = [] := by
    rw [toPascalCase, String.ofList_eq_empty_iff, List.flatMap_eq_nil_iff]
    simp only [List.mem_filter, capitalize_eq_nil_iff]
    refine forall_congr' fun part => ?_
    cases part <;> simp
  rw [empty, ← List.flatten_eq_nil_iff, parts, List.filter_eq_nil_iff]
  simp [or_iff_not_imp_left]

theorem empty_mem_structPaths_iff {dataType : DataType} :
    "" ∈ structPaths dataType ↔ isStruct dataType = true := by
  cases dataType with
  | struct fields => simp [structPaths, isStruct]
  | list item | largeList item =>
    cases item
    simp [structPaths, isStruct, String.append_eq_empty_iff]
  | _ => simp [structPaths, isStruct]

theorem empty_mem_reached_iff {field : Field} :
    "" ∈ reached field ↔ isStruct field.dataType = true ∧ ∀ c ∈ field.name.toList, c = '_' ∨ c = '-' := by
  rw [reached, ← toPascalCase_eq_empty_iff, ← empty_mem_structPaths_iff, List.mem_map, and_comm]
  constructor
  · rintro ⟨path, member, whole⟩
    obtain ⟨named, rfl⟩ := String.append_eq_empty_iff.mp whole
    exact ⟨named, member⟩
  · rintro ⟨named, member⟩
    exact ⟨"", member, by rw [named]; rfl⟩

theorem nodup_append_left_iff {paths : List String} {text : String} :
    (paths.map (text ++ ·)).Nodup ↔ paths.Nodup :=
  List.nodup_map_iff fun _ _ same => (String.append_right_inj text).mp same

theorem namesApart_struct_iff {fields : List Field} :
    NamesApart (.struct fields) ↔ (∀ field ∈ fields, NamesApart field.dataType) ∧
      (∀ field ∈ fields, isStruct field.dataType = true → ∃ c ∈ field.name.toList, c ≠ '_' ∧ c ≠ '-') ∧
      fields.Pairwise (fun first second => ∀ path ∈ reached first, path ∉ reached second) :=
  ⟨fun apart => by cases apart; exact ⟨by assumption, by assumption, by assumption⟩,
    fun parts => .struct parts.1 parts.2.1 parts.2.2⟩

/-- Names are apart exactly when all paths of words differ. -/
theorem namesApart_iff {dataType : DataType} : NamesApart dataType ↔ (structPaths dataType).Nodup := by
  induction dataType using DataType.induction with
  | leaf kind => exact iff_of_true (.leaf kind) List.nodup_nil
  | map entries sorted _ => exact iff_of_true (.map entries sorted) List.nodup_nil
  | list item ih =>
    cases item
    rw [structPaths, nodup_append_left_iff, ← ih]
    exact ⟨fun apart => by cases apart; assumption, .list⟩
  | largeList item ih =>
    cases item
    rw [structPaths, nodup_append_left_iff, ← ih]
    exact ⟨fun apart => by cases apart; assumption, .largeList⟩
  | struct fields ih =>
    have own : "" ∉ fieldPaths fields ↔ ∀ field ∈ fields, isStruct field.dataType = true →
        ∃ c ∈ field.name.toList, c ≠ '_' ∧ c ≠ '-' := by
      rw [fieldPaths_eq_flatMap, List.mem_flatMap]
      simp only [empty_mem_reached_iff, not_exists, not_and, not_forall, not_or, exists_prop]
    have whole : (fieldPaths fields ++ [""]).Nodup ↔ "" ∉ fieldPaths fields ∧ (fieldPaths fields).Nodup := by
      rw [← List.nodup_cons]
      exact List.perm_append_singleton _ _ |>.nodup_iff
    rw [structPaths, whole, own, fieldPaths_eq_flatMap, List.nodup_flatMap, namesApart_struct_iff]
    have parts : (∀ field ∈ fields, NamesApart field.dataType) ↔ ∀ field ∈ fields, (reached field).Nodup :=
      forall₂_congr fun field member => (ih field member).trans nodup_append_left_iff.symm
    rw [parts]
    constructor
    · rintro ⟨each, named, disjoint⟩
      exact ⟨named, each, disjoint.imp fun apart path member other => apart path member other⟩
    · rintro ⟨named, each, disjoint⟩
      exact ⟨each, named, disjoint.imp fun apart path member other => apart member other⟩

section

variable {tools : Toolchain}

theorem formatIdent_ok {text ident : String} (made : formatIdent tools text = .ok ident) : ident = text := by
  unfold formatIdent at made
  split at made
  · cases made
    rfl
  · cases made

section Rendered

variable {errorName errorPrefix typeHint : String} {type : RustType} {rendered : List RustField}
  {structs : List RustStruct}

/-- A list of either width is rendered by its items. -/
theorem fieldTypeTokens_item_ok {item : Field}
    (made : fieldTypeTokens tools errorName typeHint (.list item) = .ok (type, structs) ∨
      fieldTypeTokens tools errorName typeHint (.largeList item) = .ok (type, structs)) :
    ∃ inner, fieldTypeTokens tools (errorName ++ "[]") (typeHint ++ "Item") item.dataType = .ok (inner, structs) ∧
      type = .vec inner := by
  cases item
  rw [fieldTypeTokens, fieldTypeTokens, or_self] at made
  obtain ⟨inner, typed, whole⟩ := Fallible.bind_ok_iff.mp made
  cases Fallible.pure_ok_iff.mp whole
  exact ⟨inner.1, typed, rfl⟩

theorem fieldTypeTokens_struct_ok {fields : List Field}
    (made : fieldTypeTokens tools errorName typeHint (.struct fields) = .ok (type, structs)) :
    ∃ rendered nested, fieldsTokens tools (errorName ++ ".") typeHint fields = .ok (rendered, nested) ∧
      type = .named typeHint ∧ structs = nested ++ [⟨["Contract"], typeHint, rendered⟩] := by
  rw [fieldTypeTokens] at made
  obtain ⟨ident, named, more⟩ := Fallible.bind_ok_iff.mp made
  obtain ⟨rendered, fieldsMade, whole⟩ := Fallible.bind_ok_iff.mp more
  cases Fallible.pure_ok_iff.mp whole
  cases formatIdent_ok named
  exact ⟨rendered.1, rendered.2, fieldsMade, rfl, rfl⟩

theorem fieldsTokens_cons_ok {name : String} {dataType : DataType} {nullable : Bool}
    {metadata : List (String × String)} {rest : List Field}
    (made : fieldsTokens tools errorPrefix typeHint (⟨name, dataType, nullable, metadata⟩ :: rest) =
      .ok (rendered, structs)) :
    ∃ type own others nested,
      fieldTypeTokens tools (errorPrefix ++ name) (typeHint ++ toPascalCase name) dataType = .ok (type, own) ∧
      fieldsTokens tools errorPrefix typeHint rest = .ok (others, nested) ∧
      rendered = ⟨name, if nullable then .option type else type⟩ :: others ∧ structs = own ++ nested := by
  rw [fieldsTokens] at made
  split at made
  · cases made
  · obtain ⟨type, typed, more⟩ := Fallible.bind_ok_iff.mp made
    obtain ⟨ident, named, more⟩ := Fallible.bind_ok_iff.mp more
    obtain ⟨others, later, whole⟩ := Fallible.bind_ok_iff.mp more
    cases Fallible.pure_ok_iff.mp whole
    cases formatIdent_ok named
    exact ⟨type.1, type.2, others.1, others.2, typed, later, rfl, rfl⟩

end Rendered

/-- The struct that was made for a field of this type. -/
def RustType.own : RustType → Option String
  | .primitive _ => none
  | .named ident => some ident
  | .option inner | .vec inner => inner.own

/-- The names in a type that are meant as those of standard types. -/
def RustType.standards : RustType → List String
  | .primitive name => [name]
  | .named _ => []
  | .option inner => "Option" :: inner.standards
  | .vec inner => "Vec" :: inner.standards

/-- The structs that the fields of these structs refer to. -/
def ownersOf (structs : List RustStruct) : List String :=
  structs.flatMap fun item => item.fields.filterMap (·.type.own)

def standardsOf (structs : List RustStruct) : List String :=
  structs.flatMap fun item => item.fields.flatMap (·.type.standards)

/-- These structs have a field of this name. -/
def HasField (structs : List RustStruct) (name : String) : Prop :=
  ∃ item ∈ structs, name ∈ item.fields.map (·.ident)

/-- What is known of a rendered type and of the structs it makes: they stand
under the names of its paths, one field refers to each, the standard names
taken are those of the type, and so are the fields. Each derives its
contract. -/
structure TypeRenders (typeHint : String) (dataType : DataType) (type : RustType) (structs : List RustStruct) : Prop where
  renderable : Renderable dataType
  names : structs.map (·.ident) = (structPaths dataType).map (typeHint ++ ·)
  plain : ∀ path ∈ structPaths dataType, '#' ∉ path.toList
  owners : (type.own.toList ++ ownersOf structs).Perm (structs.map (·.ident))
  standards : ∀ name, name ∈ type.standards ∨ name ∈ standardsOf structs ↔ name ∈ standardNames dataType
  columns : ∀ name, HasField structs name ↔ name ∈ fieldNames dataType
  distinct : FieldsUnique dataType → ∀ item ∈ structs, (item.fields.map (·.ident)).Nodup
  derives : ∀ item ∈ structs, "Contract" ∈ item.derives

structure FieldsRender (typeHint : String) (fields : List Field) (rendered : List RustField)
    (structs : List RustStruct) : Prop where
  renderable : ∀ field ∈ fields, Renderable field.dataType
  names : structs.map (·.ident) = (fieldPaths fields).map (typeHint ++ ·)
  plain : ∀ path ∈ fieldPaths fields, '#' ∉ path.toList
  owners : (rendered.filterMap (·.type.own) ++ ownersOf structs).Perm (structs.map (·.ident))
  standards : ∀ name, name ∈ rendered.flatMap (·.type.standards) ∨ name ∈ standardsOf structs ↔
    name ∈ fieldStandardNames fields
  columns : ∀ name, name ∈ rendered.map (·.ident) ∨ HasField structs name ↔ name ∈ fieldNamesOf fields
  distinct : (∀ field ∈ fields, FieldsUnique field.dataType) → ∀ item ∈ structs, (item.fields.map (·.ident)).Nodup
  idents : rendered.map (·.ident) = fields.map (·.name)
  derives : ∀ item ∈ structs, "Contract" ∈ item.derives

theorem fieldsTokens_valid {errorPrefix typeHint : String} {name : String} {dataType : DataType} {nullable : Bool}
    {metadata : List (String × String)} {rest : List Field} {made : List RustField × List RustStruct}
    (rendered : fieldsTokens tools errorPrefix typeHint (⟨name, dataType, nullable, metadata⟩ :: rest) = .ok made) :
    isValidRustIdentifier name = true := by
  rw [fieldsTokens] at rendered
  cases valid : isValidRustIdentifier name with
  | true => rfl
  | false =>
    rw [valid] at rendered
    cases rendered

theorem toUpper_ne_hash {c : Char} (other : c ≠ '#') : c.toUpper ≠ '#' := by
  unfold Char.toUpper
  split
  · rename_i lower
    intro same
    have value := congrArg (fun c : Char => c.val.toNat) same
    obtain ⟨least, most⟩ := lower
    simp [UInt32.le_iff_toNat_le, UInt32.toNat_add] at least most value
    omega
  · exact other

/-- An identifier leads to no mark of a raw one. -/
theorem toPascalCase_plain {name : String} (valid : isValidRustIdentifier name = true) :
    '#' ∉ (toPascalCase name).toList := by
  have letters : '#' ∉ name.toList := by
    intro marked
    unfold isValidRustIdentifier at valid
    split at valid
    · cases valid
    · rename_i first rest spelled
      rw [Bool.and_eq_true, List.all_eq_true] at valid
      rw [spelled] at marked
      rcases List.mem_cons.mp marked with rfl | later
      · exact absurd valid.1 (by decide)
      · exact absurd (valid.2 _ later) (by decide)
  rw [toPascalCase, String.toList_ofList, List.mem_flatMap]
  rintro ⟨part, member, marked⟩
  have inside : ∀ c ∈ part, c ∈ name.toList := by
    intro c here
    have kept : c ∈ name.toList.filter fun c => !(c == '_' || c == '-') := by
      rw [← flatten_splitOnP]
      exact List.mem_flatten.mpr ⟨part, List.mem_of_mem_filter member, here⟩
    exact List.mem_of_mem_filter kept
  cases part with
  | nil => cases marked
  | cons c rest =>
    rw [List.forall_mem_cons] at inside
    rcases List.mem_cons.mp marked with same | later
    · exact toUpper_ne_hash (fun hash => letters (hash ▸ inside.1)) same.symm
    · exact letters (inside.2 _ later)

theorem ownersOf_append (first second : List RustStruct) :
    ownersOf (first ++ second) = ownersOf first ++ ownersOf second :=
  List.flatMap_append

theorem mem_standardsOf_append {first second : List RustStruct} {name : String} :
    name ∈ standardsOf (first ++ second) ↔ name ∈ standardsOf first ∨ name ∈ standardsOf second := by
  rw [standardsOf, List.flatMap_append, List.mem_append]
  rfl

theorem hasField_append {first second : List RustStruct} {name : String} :
    HasField (first ++ second) name ↔ HasField first name ∨ HasField second name := by
  simp only [HasField, List.mem_append, or_and_right, exists_or]

theorem fieldsTokens_render {fields : List Field} (types : ∀ field ∈ fields, ∀ {errorName typeHint type structs},
      fieldTypeTokens tools errorName typeHint field.dataType = .ok (type, structs) →
        TypeRenders typeHint field.dataType type structs)
    {errorPrefix typeHint : String} {rendered : List RustField} {structs : List RustStruct}
    (made : fieldsTokens tools errorPrefix typeHint fields = .ok (rendered, structs)) :
    FieldsRender typeHint fields rendered structs := by
  induction fields generalizing rendered structs with
  | nil =>
    cases made
    exact ⟨fun _ member => absurd member List.not_mem_nil, rfl, fun _ member => absurd member List.not_mem_nil, .refl _,
      fun _ => by simp [standardsOf, fieldStandardNames],
      fun _ => by simp [HasField, fieldNamesOf], fun _ _ member => absurd member List.not_mem_nil, rfl,
      fun _ member => absurd member List.not_mem_nil⟩
  | cons field rest ih =>
    obtain ⟨name, dataType, nullable, metadata⟩ := field
    rw [List.forall_mem_cons] at types
    have valid := fieldsTokens_valid made
    obtain ⟨type, own, others, nested, typed, later, rfl, rfl⟩ := fieldsTokens_cons_ok made
    have first := types.1 typed
    have second := ih types.2 later
    refine ⟨List.forall_mem_cons.mpr ⟨first.renderable, second.renderable⟩, ?_, ?_, ?_, fun taken => ?_, fun here => ?_,
      fun unique => ?_, ?_, List.forall_mem_append.mpr ⟨first.derives, second.derives⟩⟩
    · rw [List.map_append, first.names, second.names, fieldPaths, List.map_append, List.map_map]
      simp only [Function.comp_def, String.append_assoc]
    · rw [fieldPaths]
      refine List.forall_mem_append.mpr ⟨List.forall_mem_map.mpr fun path member => ?_, second.plain⟩
      rw [String.toList_append, List.mem_append, not_or]
      exact ⟨toPascalCase_plain valid, first.plain path member⟩
    · have both := first.owners.append second.owners
      rw [List.map_append, ownersOf_append]
      refine List.Perm.trans ?_ both
      have head : (if nullable then RustType.option type else type).own = type.own := by
        cases nullable <;> rfl
      have whole : ∀ field : RustField, (field :: others).filterMap (·.type.own) =
          field.type.own.toList ++ others.filterMap (·.type.own) := by
        intro field
        cases owned : field.type.own <;> simp [owned]
      rw [whole, head, List.append_assoc, List.append_assoc]
      exact List.Perm.append_left _ (List.perm_append_comm_assoc _ _ _)
    · rw [fieldStandardNames, mem_standardsOf_append, List.mem_append, List.mem_append, ← first.standards taken,
        ← second.standards taken, List.flatMap_cons, List.mem_append]
      cases nullable
      · simp [or_assoc, or_left_comm]
      · simp [RustType.standards, or_assoc, or_left_comm]
    · rw [fieldNamesOf, List.map_cons, List.mem_cons, List.mem_cons, List.mem_append, hasField_append, ← first.columns,
        ← second.columns, or_assoc, or_left_comm (b := HasField own here)]
    · rw [List.forall_mem_cons] at unique
      exact List.forall_mem_append.mpr ⟨first.distinct unique.1, second.distinct unique.2⟩
    · rw [List.map_cons, List.map_cons, second.idents]

/-- A struct comes after the structs of its fields. -/
theorem FieldsRender.struct {typeHint : String} {fields : List Field} {rendered : List RustField}
    {nested : List RustStruct} (parts : FieldsRender typeHint fields rendered nested) {derives : List String}
    (derived : "Contract" ∈ derives) :
    TypeRenders typeHint (.struct fields) (.named typeHint) (nested ++ [⟨derives, typeHint, rendered⟩]) := by
  refine ⟨.struct parts.renderable, ?_, ?_, ?_, fun name => ?_, fun name => ?_, fun unique => ?_,
    List.forall_mem_append.mpr ⟨parts.derives, List.forall_mem_singleton.mpr derived⟩⟩
  · rw [List.map_append, parts.names, structPaths, List.map_append]
    simp
  · rw [structPaths]
    exact List.forall_mem_append.mpr ⟨parts.plain, List.forall_mem_singleton.mpr (by decide)⟩
  · have last : ownersOf (nested ++ [⟨derives, typeHint, rendered⟩]) =
        ownersOf nested ++ rendered.filterMap (·.type.own) := by
      rw [ownersOf_append]
      simp [ownersOf]
    rw [last, List.map_append]
    refine List.perm_append_comm.trans (List.Perm.append_right _ ?_)
    exact List.perm_append_comm.trans parts.owners
  · rw [mem_standardsOf_append, standardNames, ← parts.standards name, or_comm]
    simp [RustType.standards, standardsOf, or_comm]
  · rw [hasField_append, fieldNames, ← parts.columns name, or_comm]
    simp [HasField]
  · cases unique with
    | struct distinct inner =>
      refine List.forall_mem_append.mpr ⟨parts.distinct inner, List.forall_mem_singleton.mpr ?_⟩
      rw [parts.idents]
      exact distinct

/-- Induction on the type; a list has the structs of its items. -/
theorem fieldTypeTokens_renders (dataType : DataType) : ∀ {errorName typeHint type structs},
    fieldTypeTokens tools errorName typeHint dataType = .ok (type, structs) →
      TypeRenders typeHint dataType type structs := by
  have items : ∀ {item : Field} {typeHint : String} {inner : RustType} {structs : List RustStruct},
      TypeRenders (typeHint ++ "Item") item.dataType inner structs →
        TypeRenders typeHint (.list item) (.vec inner) structs ∧
          TypeRenders typeHint (.largeList item) (.vec inner) structs := by
    rintro ⟨name, itemType, nullable, metadata⟩ typeHint inner structs
      ⟨renderable, names, plain, owners, standards, fields, distinct, derives⟩
    have paths : structs.map (·.ident) = ((structPaths itemType).map ("Item" ++ ·)).map (typeHint ++ ·) := by
      rw [names, List.map_map]
      simp only [Function.comp_def, String.append_assoc]
    have free : ∀ path ∈ (structPaths itemType).map ("Item" ++ ·), '#' ∉ path.toList := by
      simp only [List.forall_mem_map, String.toList_append, List.mem_append, not_or]
      exact fun path member => ⟨by decide, plain path member⟩
    have taken : ∀ name, name ∈ (RustType.vec inner).standards ∨ name ∈ standardsOf structs ↔
        name ∈ "Vec" :: standardNames itemType := by
      intro name
      rw [RustType.standards, List.mem_cons, or_assoc, standards, List.mem_cons]
    refine ⟨⟨.list renderable, paths, free, owners, taken, fields, fun unique => ?_, derives⟩,
      ⟨.largeList renderable, paths, free, owners, taken, fields, fun unique => ?_, derives⟩⟩
    · cases unique with
      | list inner => exact distinct inner
    · cases unique with
      | largeList inner => exact distinct inner
  induction dataType using DataType.induction with
  | leaf kind =>
    intro errorName typeHint type structs made
    rw [fieldTypeTokens] at made
    split at made
    · rename_i primitive known
      cases made
      exact ⟨.leaf (by rw [known]; rfl), rfl, fun _ member => absurd member List.not_mem_nil, .refl _,
        fun _ => by simp [RustType.standards, standardsOf, standardNames, known],
        fun _ => by simp [HasField, fieldNames], fun _ _ member => absurd member List.not_mem_nil,
        fun _ member => absurd member List.not_mem_nil⟩
    · cases made
  | map entries sorted _ =>
    intro errorName typeHint type structs made
    cases made
  | list item ih =>
    intro errorName typeHint type structs made
    obtain ⟨inner, typed, rfl⟩ := fieldTypeTokens_item_ok (Or.inl made)
    exact (items (ih typed)).1
  | largeList item ih =>
    intro errorName typeHint type structs made
    obtain ⟨inner, typed, rfl⟩ := fieldTypeTokens_item_ok (Or.inr made)
    exact (items (ih typed)).2
  | struct fields ih =>
    intro errorName typeHint type structs made
    obtain ⟨rendered, nested, fieldsMade, rfl, rfl⟩ := fieldTypeTokens_struct_ok made
    exact (fieldsTokens_render (fun field member => ih field member) fieldsMade).struct (List.mem_singleton.mpr rfl)

theorem structSource_ok {structName : String} {schema : Schema} {file : List RustStruct}
    (made : structSource tools structName schema = .ok file) :
    ∃ rendered structs, fieldsTokens tools "" structName schema.fields = .ok (rendered, structs) ∧
      file = structs ++ [⟨["Contract", "Connector"], structName, rendered⟩] := by
  unfold structSource at made
  obtain ⟨ident, named, more⟩ := Fallible.bind_ok_iff.mp made
  obtain ⟨rendered, fieldsMade, parsed⟩ := Fallible.bind_ok_iff.mp more
  cases formatIdent_ok named
  dsimp only at parsed
  split at parsed
  · cases parsed
  · cases parsed
    exact ⟨rendered.1, rendered.2, fieldsMade, rfl⟩

/-- What is known of the rendered structs of a schema. -/
theorem structSource_renders {structName : String} {schema : Schema} {file : List RustStruct}
    (made : structSource tools structName schema = .ok file) :
    TypeRenders structName (.struct schema.fields) (.named structName) file := by
  obtain ⟨rendered, structs, fieldsMade, rfl⟩ := structSource_ok made
  exact (fieldsTokens_render (fun field _ => fieldTypeTokens_renders field.dataType) fieldsMade).struct List.mem_cons_self

theorem structSource_idents {structName : String} {schema : Schema} {file : List RustStruct}
    (made : structSource tools structName schema = .ok file) :
    file.map (·.ident) = (structPaths (.struct schema.fields)).map (structName ++ ·) :=
  (structSource_renders made).names

/-- A suffix without the mark of a raw identifier stays outside of it. -/
theorem bareName_append {text path : String} (plain : '#' ∉ path.toList) :
    bareName (text ++ path) = bareName text ++ path := by
  have marked : ∀ {cs ds : List Char}, cs ++ path.toList = 'r' :: '#' :: ds →
      ∃ rest, cs = 'r' :: '#' :: rest ∧ ds = rest ++ path.toList := by
    intro cs ds whole
    match cs, whole with
    | [], whole =>
      rw [List.nil_append] at whole
      exact absurd (by rw [whole]; simp) plain
    | [c], whole =>
      rw [List.cons_append, List.nil_append, List.cons.injEq] at whole
      exact absurd (by rw [whole.2]; simp) plain
    | c :: d :: rest, whole =>
      rw [List.cons_append, List.cons_append, List.cons.injEq, List.cons.injEq] at whole
      obtain ⟨rfl, rfl, rfl⟩ := whole
      exact ⟨rest, rfl, rfl⟩
  unfold bareName
  rw [String.toList_append]
  split
  · rename_i ds whole
    obtain ⟨rest, spelled, rfl⟩ := marked whole
    rw [spelled]
    simp
  · rename_i unmarked
    split
    · rename_i rest spelled
      exact absurd (by rw [spelled]; rfl) (unmarked (rest ++ path.toList))
    · rfl

theorem definedNames_structSource {structName : String} {schema : Schema} {file : List RustStruct}
    (made : structSource tools structName schema = .ok file) :
    definedNames file = (structPaths (.struct schema.fields)).map (bareName structName ++ ·) := by
  have renders := structSource_renders made
  have names : definedNames file = (file.map (·.ident)).map bareName := by
    rw [definedNames, List.map_map]
    rfl
  rw [names, renders.names, List.map_map]
  exact List.map_congr_left fun path member => bareName_append (renders.plain path member)

theorem definedNames_nodup_iff {structName : String} {schema : Schema} {file : List RustStruct}
    (made : structSource tools structName schema = .ok file) :
    (definedNames file).Nodup ↔ NamesApart (.struct schema.fields) := by
  rw [definedNames_structSource made, nodup_append_left_iff, namesApart_iff]

theorem rustPrimitive_contractTypes {kind : LeafType} {name : String} (known : rustPrimitive kind = some name) :
    name ∈ contractTypes := by
  cases kind with
  | other => cases known
  | _ =>
    cases known
    decide

theorem standardNames_mem {dataType : DataType} {name : String} (taken : name ∈ standardNames dataType) :
    name ∈ "Option" :: "Vec" :: contractTypes := by
  induction dataType using DataType.induction with
  | leaf kind =>
    exact .tail _ (.tail _ (rustPrimitive_contractTypes (Option.mem_toList.mp taken)))
  | map entries sorted _ => cases taken
  | list item ih | largeList item ih =>
    cases item
    rcases List.mem_cons.mp taken with rfl | inner
    · exact .tail _ (.head _)
    · exact ih inner
  | struct fields ih =>
    rw [standardNames] at taken
    induction fields with
    | nil => cases taken
    | cons field rest restIh =>
      obtain ⟨_, dataType, nullable, _⟩ := field
      rw [List.forall_mem_cons] at ih
      rw [fieldStandardNames, List.mem_append, List.mem_append] at taken
      rcases taken with (option | inner) | later
      · cases nullable
        · cases option
        · rw [List.mem_singleton.mp option]
          exact .head _
      · exact ih.1 inner
      · exact restIh ih.2 later

theorem bareName_standard {dataType : DataType} {name : String} (taken : name ∈ standardNames dataType) :
    bareName name = name := by
  have plain : ∀ name ∈ "Option" :: "Vec" :: contractTypes, bareName name = name := by decide
  exact plain name (standardNames_mem taken)

/-- All definitions have different names, no two fields refer to one struct,
and where a field means a standard type it refers to no struct. -/
structure SeparatelyNamed (file : List RustStruct) : Prop where
  distinct : (definedNames file).Nodup
  owners : (ownersOf file).Nodup
  standards : ∀ item ∈ file, ∀ field ∈ item.fields, ∀ name ∈ field.type.standards, definition file name = none

/-- The standard names that a rendered file takes are free exactly when no
struct has one of them. -/
theorem standardNames_free_iff {structName : String} {schema : Schema} {file : List RustStruct}
    (made : structSource tools structName schema = .ok file) :
    (∀ name ∈ standardNames (.struct schema.fields), definition file name = none) ↔
      Unshadowed structName schema.fields := by
  have free : ∀ name ∈ standardNames (.struct schema.fields), definition file name = none ↔
      ∀ path ∈ structPaths (.struct schema.fields), bareName structName ++ path ≠ name := by
    intro name taken
    rw [definition_eq_none_iff, bareName_standard taken, definedNames_structSource made, List.mem_map]
    simp only [not_exists, not_and]
  constructor
  · intro all path member taken
    exact (free _ taken).mp (all _ taken) path member rfl
  · intro unshadowed name taken
    refine (free name taken).mpr fun path member same => unshadowed path member ?_
    rw [same]
    exact taken

/-- What the fields of a rendered file mean as standard types are the standard
names that its schema takes. -/
theorem mem_standards_iff {structName : String} {schema : Schema} {file : List RustStruct}
    (made : structSource tools structName schema = .ok file) {name : String} :
    (∃ item ∈ file, ∃ field ∈ item.fields, name ∈ field.type.standards) ↔
      name ∈ standardNames (.struct schema.fields) := by
  rw [← (structSource_renders made).standards name, standardsOf]
  simp [RustType.standards]

/-- The definitions of a rendered file are apart, and its references too,
exactly when the fields of the schema lead apart and no struct has a standard
name that the file takes. -/
theorem struct_names_separate_iff {structName : String} {schema : Schema} {file : List RustStruct}
    (made : structSource tools structName schema = .ok file) :
    SeparatelyNamed file ↔ NamesApart (.struct schema.fields) ∧ Unshadowed structName schema.fields := by
  have apart := definedNames_nodup_iff made
  have free := standardNames_free_iff made
  constructor
  · rintro ⟨distinct, _, standards⟩
    refine ⟨apart.mp distinct, free.mp fun name taken => ?_⟩
    obtain ⟨item, itemMem, field, fieldMem, named⟩ := (mem_standards_iff made).mpr taken
    exact standards item itemMem field fieldMem name named
  · rintro ⟨names, unshadowed⟩
    refine ⟨apart.mpr names, ?_, fun item itemMem field fieldMem name named =>
      free.mpr unshadowed name ((mem_standards_iff made).mp ⟨item, itemMem, field, fieldMem, named⟩)⟩
    have owners := (structSource_renders made).owners
    rw [structSource_idents made] at owners
    have distinct := owners.nodup_iff.mpr (nodup_append_left_iff.mpr (namesApart_iff.mp names))
    exact (List.nodup_append.mp distinct).2.1

end

/-- A toolchain that takes every identifier and parses every file. -/
def lenient : Toolchain where
  isIdent _ := true
  parseError _ := none

/-- A struct in a struct. -/
def shippedSchema : Schema :=
  Schema.new [Field.new "id" (.leaf .int64) false,
    Field.new "ship_to" (.struct [Field.new "city" (.leaf .utf8) true]) true]

theorem shipped_names_apart : NamesApart (.struct shippedSchema.fields) ∧ Unshadowed "Order" shippedSchema.fields :=
  (@struct_names_separate_iff lenient "Order" shippedSchema _ rfl).mp ⟨by decide, by decide, by decide⟩

/-- A list `foo` of structs beside a struct `foo_item`. -/
def collidingSchema : Schema :=
  Schema.new [Field.new "foo" (.list (Field.new "item" (.struct [Field.new "x" (.leaf .int64) false]) false)) false,
    Field.new "foo_item" (.struct [Field.new "y" (.leaf .int64) false]) false]

theorem struct_names_collide :
    ¬ ∀ structName schema file, structSource lenient structName schema = .ok file → SeparatelyNamed file := by
  intro separate
  have rendered : structSource lenient "Order" collidingSchema = .ok
      [⟨["Contract"], "OrderFooItem", [⟨"x", .primitive "i64"⟩]⟩,
        ⟨["Contract"], "OrderFooItem", [⟨"y", .primitive "i64"⟩]⟩,
        ⟨["Contract", "Connector"], "Order",
          [⟨"foo", .vec (.named "OrderFooItem")⟩, ⟨"foo_item", .named "OrderFooItem"⟩]⟩] := rfl
  have names := (separate "Order" collidingSchema _ rendered).distinct
  revert names
  decide

end Datacrate.Codegen
