import Datacrate.Codegen.Names
import Mathlib.Data.List.TakeWhile

namespace Datacrate.Codegen

open Arrow

/-- What the renderer looks at on its way through a schema: the name of a
field or a type without fields, each at its dotted path. -/
inductive Visit where
  | name (path text : String)
  | type (path : String) (dataType : DataType)

mutual

/-- The visits of a field's type, in traversal order. -/
def typeVisits (path : String) : DataType → List Visit
  | .list ⟨_, itemType, _, _⟩ | .largeList ⟨_, itemType, _, _⟩ => typeVisits (path ++ "[]") itemType
  | .struct fields => fieldsVisits (path ++ ".") fields
  | .leaf kind => [.type path (.leaf kind)]
  | .map entries sorted => [.type path (.map entries sorted)]

def fieldsVisits (prefixPath : String) : List Field → List Visit
  | [] => []
  | ⟨name, dataType, _, _⟩ :: rest =>
    .name (prefixPath ++ name) name :: (typeVisits (prefixPath ++ name) dataType ++ fieldsVisits prefixPath rest)

end

def supported : DataType → Bool
  | .leaf kind => (rustPrimitive kind).isSome
  | _ => false

/-- The error that a visit asks for when names have to be `legal`. -/
def Visit.offence (legal : String → Bool) : Visit → Option SchemaCodegenError
  | .name path text => if legal text then none else some (.invalidFieldName path)
  | .type path dataType => if supported dataType then none else some (.unsupportedArrowType path dataType)

def firstOffence (legal : String → Bool) (fields : List Field) : Option SchemaCodegenError :=
  (fieldsVisits "" fields).findSome? (Visit.offence legal)

def canNameField (name : String) : Bool :=
  isValidRustIdentifier name && !namesNothing name

/-- The result is a success, or the error that is asked for. -/
def Settles {α : Type} (result : Except Failure α) : Option SchemaCodegenError → Prop
  | none => ∃ made, result = .ok made
  | some offence => result = .error (.error offence)

/-- The path of the field, if the visit is of a name that names nothing. -/
def Visit.lapse : Visit → Option String
  | .name path text => if namesNothing text then some path else none
  | .type _ _ => none

def Visit.accepted (visit : Visit) : Bool :=
  (visit.offence isValidRustIdentifier).isNone

/-- The path of the first field that a reserved word or a lone underscore
names, among the fields before the first that is refused. -/
def firstLapse (fields : List Field) : Option String :=
  ((fieldsVisits "" fields).takeWhile Visit.accepted).findSome? Visit.lapse

/-- No such field is reached, or the path of the field that is refused is
the same text, as the field `a.b` may follow a field `b` in `a`. -/
def LapsesHidden (fields : List Field) : Prop :=
  ∀ path, firstLapse fields = some path →
    firstOffence isValidRustIdentifier fields = some (.invalidFieldName path)

/-- A name that the toolchain takes for a struct or a field. -/
def Toolchain.Usable (tools : Toolchain) (ident : String) : Prop :=
  tools.isIdent ident = true ∧ namesNothing ident = false

/-- A rendered type whose named structs have usable names. -/
def RustType.Plain (usable : String → Prop) : RustType → Prop
  | .primitive name => ∃ kind, rustPrimitive kind = some name
  | .named ident => usable ident
  | .option inner | .vec inner => inner.Plain usable

def RustStruct.Plain (usable : String → Prop) (item : RustStruct) : Prop :=
  (∀ derived ∈ item.derives, usable derived) ∧ usable item.ident ∧
    ∀ field ∈ item.fields, usable field.ident ∧ field.type.Plain usable

/-- The characters that a generated name adds: a capital or a digit, then
letters and digits. -/
def continues : List Char → Bool
  | [] => false
  | c :: rest => (c.isUpper || c.isDigit) && rest.all Char.isAlphanum

/-- The documented behaviour of the compiler libraries. ASCII identifiers are
identifiers, a longer name stays one, and structs with usable names parse. -/
structure Toolchain.Documented (tools : Toolchain) : Prop where
  ascii : ∀ name, isValidRustIdentifier name = true → tools.isIdent name = true
  nonempty : tools.isIdent "" = false
  longer : ∀ ident suffix, tools.isIdent ident = true → continues suffix.toList = true →
    tools.isIdent (ident ++ suffix) = true
  parses : ∀ file : List RustStruct, (∀ item ∈ file, item.Plain tools.Usable) → tools.parseError file = none

theorem namesNothing_tail {name : String} (nothing : namesNothing name = true) :
    name.toList.tail.all Char.isLower = true := by
  have tails : ∀ word ∈ "_" :: reservedWords, word.toList.tail.all Char.isLower = true := by decide
  apply tails
  rw [namesNothing, Bool.or_eq_true, beq_iff_eq, List.contains_iff_mem] at nothing
  exact List.mem_cons.mpr nothing.symm

theorem isUpper_iff {c : Char} : c.isUpper = true ↔ 65 ≤ c.toNat ∧ c.toNat ≤ 90 := by
  have range : c.isUpper = decide (c.val ≥ 'A'.val ∧ c.val ≤ 'Z'.val) := rfl
  rw [range, decide_eq_true_iff]
  simp [UInt32.le_iff_toNat_le]

theorem isLower_iff {c : Char} : c.isLower = true ↔ 97 ≤ c.toNat ∧ c.toNat ≤ 122 := by
  have range : c.isLower = (decide (c.val ≥ 'a'.val) && decide (c.val ≤ 'z'.val)) := rfl
  rw [range, Bool.and_eq_true, decide_eq_true_iff, decide_eq_true_iff]
  simp [UInt32.le_iff_toNat_le]

theorem isDigit_iff {c : Char} : c.isDigit = true ↔ 48 ≤ c.toNat ∧ c.toNat ≤ 57 := by
  have range : c.isDigit = (decide (c.val ≥ '0'.val) && decide (c.val ≤ '9'.val)) := rfl
  rw [range, Bool.and_eq_true, decide_eq_true_iff, decide_eq_true_iff]
  simp [UInt32.le_iff_toNat_le]

theorem isAlphanum_iff {c : Char} : c.isAlphanum = true ↔ c.isUpper = true ∨ c.isLower = true ∨ c.isDigit = true := by
  have parts : c.isAlphanum = (c.isUpper || c.isLower || c.isDigit) := rfl
  rw [parts, Bool.or_eq_true, Bool.or_eq_true, or_assoc]

theorem isLower_of_starts {c : Char} (starts : (c.isUpper || c.isDigit) = true) : c.isLower = false := by
  rw [Bool.or_eq_true, isUpper_iff, isDigit_iff] at starts
  rw [← Bool.not_eq_true, isLower_iff]
  omega

theorem toUpper_starts {c : Char} (alphanum : c.isAlphanum = true) :
    (c.toUpper.isUpper || c.toUpper.isDigit) = true := by
  rw [Bool.or_eq_true, isUpper_iff, isDigit_iff]
  rw [isAlphanum_iff, isUpper_iff, isLower_iff, isDigit_iff] at alphanum
  unfold Char.toUpper
  split
  · rename_i lower
    obtain ⟨least, most⟩ := lower
    simp [UInt32.le_iff_toNat_le, UInt32.toNat_add] at least most ⊢
    omega
  · rename_i other
    simp [UInt32.le_iff_toNat_le] at other
    omega

theorem isAlphanum_of_starts {c : Char} (starts : (c.isUpper || c.isDigit) = true) : c.isAlphanum = true := by
  rw [Bool.or_eq_true] at starts
  exact isAlphanum_iff.mpr (starts.imp_right Or.inr)

theorem isValidRustIdentifier_mem {name : String} (valid : isValidRustIdentifier name = true) {c : Char}
    (member : c ∈ name.toList) : c.isAlphanum = true ∨ c = '_' := by
  unfold isValidRustIdentifier at valid
  split at valid
  · cases valid
  · rename_i first rest letters
    rw [Bool.and_eq_true, List.all_eq_true] at valid
    rw [letters, List.mem_cons] at member
    rcases member with rfl | later
    · have start := valid.1
      rw [Bool.or_eq_true, beq_iff_eq] at start
      have letter : c.isAlphanum = (c.isAlpha || c.isDigit) := rfl
      exact start.imp_left fun alpha => by rw [letter, alpha, Bool.true_or]
    · have next := valid.2 c later
      rw [Bool.or_eq_true, beq_iff_eq] at next
      exact next

theorem continues_capitalize_append {part rest : List Char} (nonempty : part ≠ [])
    (letters : ∀ c ∈ part, c.isAlphanum = true) (more : ∀ c ∈ rest, c.isAlphanum = true) :
    continues (capitalize part ++ rest) = true := by
  cases part with
  | nil => exact absurd rfl nonempty
  | cons c others =>
    rw [List.forall_mem_cons] at letters
    rw [capitalize, List.cons_append, continues, toUpper_starts letters.1, Bool.true_and, List.all_append,
      List.all_eq_true.mpr letters.2, List.all_eq_true.mpr more, Bool.and_self]

/-- An identifier adds nothing to a type's name, or a capital or a digit
before letters and digits. -/
theorem toPascalCase_continues {name : String} (valid : isValidRustIdentifier name = true) :
    toPascalCase name = "" ∨ continues (toPascalCase name).toList = true := by
  have letters : ∀ part ∈ (name.toList.splitOnP fun c => c == '_' || c == '-').filter (!·.isEmpty),
      part ≠ [] ∧ ∀ c ∈ part, c.isAlphanum = true := by
    intro part member
    rw [List.mem_filter] at member
    refine ⟨fun empty => by rw [empty] at member; exact absurd member.2 (by decide), fun c inPart => ?_⟩
    have kept : c ∈ name.toList.filter fun c => !(c == '_' || c == '-') := by
      rw [← flatten_splitOnP]
      exact List.mem_flatten.mpr ⟨part, member.1, inPart⟩
    rw [List.mem_filter] at kept
    rcases isValidRustIdentifier_mem valid kept.1 with alphanum | rfl
    · exact alphanum
    · exact absurd kept.2 (by decide)
  rw [toPascalCase, String.toList_ofList]
  generalize (name.toList.splitOnP fun c => c == '_' || c == '-').filter (!·.isEmpty) = parts at letters ⊢
  cases parts with
  | nil => exact Or.inl rfl
  | cons part others =>
    rw [List.forall_mem_cons] at letters
    refine Or.inr (continues_capitalize_append letters.1.1 letters.1.2 fun c member => ?_)
    obtain ⟨other, inOthers, inOther⟩ := List.mem_flatMap.mp member
    cases other with
    | nil => cases inOther
    | cons first rest =>
      have own := (letters.2 _ inOthers).2
      rw [List.forall_mem_cons] at own
      rcases List.mem_cons.mp inOther with rfl | later
      · exact isAlphanum_of_starts (toUpper_starts own.1)
      · exact own.2 c later

variable {tools : Toolchain}

theorem Toolchain.Documented.usable_append (documented : tools.Documented) {ident suffix : String}
    (usable : tools.Usable ident) (more : continues suffix.toList = true) : tools.Usable (ident ++ suffix) := by
  refine ⟨documented.longer ident suffix usable.1 more, ?_⟩
  cases nothing : namesNothing (ident ++ suffix) with
  | false => rfl
  | true =>
    have tail := namesNothing_tail nothing
    cases letters : ident.toList with
    | nil =>
      have empty := usable.1
      rw [String.toList_eq_nil_iff.mp letters, documented.nonempty] at empty
      cases empty
    | cons first rest =>
      cases added : suffix.toList with
      | nil =>
        rw [added] at more
        cases more
      | cons c others =>
        rw [added, continues, Bool.and_eq_true] at more
        rw [String.toList_append, letters, added, List.cons_append, List.tail_cons, List.all_append,
          List.all_cons, isLower_of_starts more.1, Bool.false_and, Bool.and_false] at tail
        cases tail

theorem Toolchain.Documented.usable_field (documented : tools.Documented) {hint name : String}
    (usable : tools.Usable hint) (valid : isValidRustIdentifier name = true) :
    tools.Usable (hint ++ toPascalCase name) := by
  rcases toPascalCase_continues valid with empty | more
  · rw [empty, String.append_empty]
    exact usable
  · exact documented.usable_append usable more

theorem Toolchain.Documented.usable_item (documented : tools.Documented) {hint : String}
    (usable : tools.Usable hint) : tools.Usable (hint ++ "Item") :=
  documented.usable_append usable (by decide)

theorem Settles.bind {α β : Type} {step : Except Failure α} {next : α → Except Failure β}
    {first second : Option SchemaCodegenError} (start : Settles step first)
    (later : ∀ made, step = .ok made → Settles (next made) second) :
    Settles (step >>= next) (first.or second) := by
  cases first with
  | some offence =>
    rw [show step = .error (.error offence) from start]
    exact rfl
  | none =>
    obtain ⟨made, rfl⟩ := start
    exact later made rfl

theorem settles_pure {α : Type} (made : α) : Settles (pure made) none :=
  ⟨made, rfl⟩

theorem settles_formatIdent {text : String} (ident : tools.isIdent text = true) :
    Settles (formatIdent tools text) none :=
  ⟨text, by rw [formatIdent, if_pos ident]⟩

/-- Under a usable name, the tokens of a type settle its visits. -/
def TypeSettles (tools : Toolchain) (dataType : DataType) : Prop :=
  ∀ {errorName typeHint}, tools.Usable typeHint → Settles (fieldTypeTokens tools errorName typeHint dataType)
    ((typeVisits errorName dataType).findSome? (Visit.offence isValidRustIdentifier))

theorem fieldsTokens_settles (documented : tools.Documented) {fields : List Field}
    (types : ∀ field ∈ fields, TypeSettles tools field.dataType) {errorPrefix typeHint : String}
    (usable : tools.Usable typeHint) :
    Settles (fieldsTokens tools errorPrefix typeHint fields)
      ((fieldsVisits errorPrefix fields).findSome? (Visit.offence isValidRustIdentifier)) := by
  induction fields with
  | nil => exact settles_pure _
  | cons field rest ih =>
    obtain ⟨name, dataType, nullable, metadata⟩ := field
    rw [List.forall_mem_cons] at types
    rw [fieldsTokens, fieldsVisits, List.findSome?_cons]
    by_cases valid : isValidRustIdentifier name = true
    · simp only [Visit.offence, valid, Bool.not_true, if_true, List.findSome?_append]
      refine (types.1 (documented.usable_field usable valid)).bind fun type _ => ?_
      rw [← Option.none_or (o := List.findSome? _ (fieldsVisits errorPrefix rest))]
      refine (settles_formatIdent (documented.ascii name valid)).bind fun ident _ => ?_
      rw [← Option.or_none (o := List.findSome? _ (fieldsVisits errorPrefix rest))]
      exact (ih types.2).bind fun others _ => settles_pure _
    · simp [Visit.offence, valid, Settles]

theorem typeSettles (documented : tools.Documented) (dataType : DataType) : TypeSettles tools dataType := by
  induction dataType using DataType.induction with
  | leaf kind =>
    intro errorName typeHint _
    rw [fieldTypeTokens, typeVisits, List.findSome?_cons, List.findSome?_nil]
    cases primitive : rustPrimitive kind with
    | none => simp [Visit.offence, supported, primitive, Settles]
    | some name => simp [Visit.offence, supported, primitive, Settles]
  | map entries sorted _ =>
    intro errorName typeHint _
    rw [fieldTypeTokens, typeVisits, List.findSome?_cons, List.findSome?_nil]
    exact rfl
  | list item ih | largeList item ih =>
    intro errorName typeHint usable
    obtain ⟨name, itemType, nullable, metadata⟩ := item
    rw [fieldTypeTokens, typeVisits, ← Option.or_none (o := List.findSome? _ _)]
    exact (ih (documented.usable_item usable)).bind fun inner _ => settles_pure _
  | struct fields ih =>
    intro errorName typeHint usable
    rw [fieldTypeTokens, typeVisits, ← Option.none_or (o := List.findSome? _ _)]
    refine (settles_formatIdent usable.1).bind fun ident _ => ?_
    rw [← Option.or_none (o := List.findSome? _ _)]
    exact (fieldsTokens_settles documented ih usable).bind fun rendered _ => settles_pure _

theorem schemaFields_settle (documented : tools.Documented) {structName : String} (legal : tools.Usable structName)
    (fields : List Field) :
    Settles (fieldsTokens tools "" structName fields) (firstOffence isValidRustIdentifier fields) :=
  fieldsTokens_settles documented (fun field _ => typeSettles documented field.dataType) legal

/-- Visits that name nothing reserved leave usable names in the structs. -/
def TypePlain (tools : Toolchain) (dataType : DataType) : Prop :=
  ∀ {errorName typeHint type structs},
    fieldTypeTokens tools errorName typeHint dataType = .ok (type, structs) → tools.Usable typeHint →
    (∀ visit ∈ typeVisits errorName dataType, visit.lapse = none) →
    type.Plain tools.Usable ∧ ∀ item ∈ structs, item.Plain tools.Usable

theorem lapse_name_none {path text : String} (clean : (Visit.name path text).lapse = none) :
    namesNothing text = false := by
  simpa [Visit.lapse] using clean

theorem fieldsTokens_plain (documented : tools.Documented) {fields : List Field}
    (types : ∀ field ∈ fields, TypePlain tools field.dataType) {errorPrefix typeHint : String}
    {rendered : List RustField} {structs : List RustStruct}
    (made : fieldsTokens tools errorPrefix typeHint fields = .ok (rendered, structs))
    (usable : tools.Usable typeHint) (clean : ∀ visit ∈ fieldsVisits errorPrefix fields, visit.lapse = none) :
    (∀ field ∈ rendered, tools.Usable field.ident ∧ field.type.Plain tools.Usable) ∧
      ∀ item ∈ structs, item.Plain tools.Usable := by
  induction fields generalizing rendered structs with
  | nil =>
    cases made
    exact ⟨fun field member => absurd member List.not_mem_nil, fun item member => absurd member List.not_mem_nil⟩
  | cons field rest ih =>
    obtain ⟨name, dataType, nullable, metadata⟩ := field
    rw [List.forall_mem_cons] at types
    have valid := fieldsTokens_valid made
    obtain ⟨type, own, others, nested, typed, later, rfl, rfl⟩ := fieldsTokens_cons_ok made
    rw [fieldsVisits, List.forall_mem_cons, List.forall_mem_append] at clean
    obtain ⟨named, ofType, ofRest⟩ := clean
    obtain ⟨typePlain, ownPlain⟩ := types.1 typed (documented.usable_field usable valid) ofType
    obtain ⟨othersPlain, nestedPlain⟩ := ih types.2 later ofRest
    refine ⟨List.forall_mem_cons.mpr ⟨⟨⟨documented.ascii name valid, lapse_name_none named⟩, ?_⟩, othersPlain⟩,
      List.forall_mem_append.mpr ⟨ownPlain, nestedPlain⟩⟩
    cases nullable
    · exact typePlain
    · exact typePlain

theorem Toolchain.Documented.usable_derived (documented : tools.Documented) :
    tools.Usable "Contract" ∧ tools.Usable "Connector" :=
  ⟨⟨documented.ascii _ (by decide), by decide⟩, ⟨documented.ascii _ (by decide), by decide⟩⟩

theorem typePlain (documented : tools.Documented) (dataType : DataType) : TypePlain tools dataType := by
  induction dataType using DataType.induction with
  | leaf kind =>
    intro errorName typeHint type structs made _ _
    rw [fieldTypeTokens] at made
    split at made
    · rename_i primitive known
      cases made
      exact ⟨⟨kind, known⟩, fun item member => absurd member List.not_mem_nil⟩
    · cases made
  | map entries sorted _ =>
    intro errorName typeHint type structs made _ _
    cases made
  | list item ih =>
    intro errorName typeHint type structs made usable clean
    obtain ⟨inner, typed, rfl⟩ := fieldTypeTokens_item_ok (Or.inl made)
    cases item
    rw [RustType.Plain]
    exact ih typed (documented.usable_item usable) clean
  | largeList item ih =>
    intro errorName typeHint type structs made usable clean
    obtain ⟨inner, typed, rfl⟩ := fieldTypeTokens_item_ok (Or.inr made)
    cases item
    rw [RustType.Plain]
    exact ih typed (documented.usable_item usable) clean
  | struct fields ih =>
    intro errorName typeHint type structs made usable clean
    obtain ⟨rendered, nested, fieldsMade, rfl, rfl⟩ := fieldTypeTokens_struct_ok made
    obtain ⟨fieldsPlain, nestedPlain⟩ := fieldsTokens_plain documented ih fieldsMade usable clean
    refine ⟨usable, List.forall_mem_append.mpr ⟨nestedPlain, ?_⟩⟩
    rw [List.forall_mem_singleton]
    exact ⟨List.forall_mem_singleton.mpr documented.usable_derived.1, usable, fieldsPlain⟩

/-- A schema without refused and without reserved names is rendered. -/
theorem structSource_clean (documented : tools.Documented) {structName : String} (legal : tools.Usable structName)
    {schema : Schema} (accepted : firstOffence isValidRustIdentifier schema.fields = none)
    (clean : ∀ visit ∈ fieldsVisits "" schema.fields, visit.lapse = none) :
    ∃ file, structSource tools structName schema = .ok file := by
  have settled := schemaFields_settle documented legal schema.fields
  rw [accepted] at settled
  obtain ⟨⟨rendered, structs⟩, made⟩ := settled
  obtain ⟨fieldsPlain, structsPlain⟩ := fieldsTokens_plain documented
    (fun field _ => typePlain documented field.dataType) made legal clean
  have parsed := documented.parses (structs ++ [⟨["Contract", "Connector"], structName, rendered⟩])
    (List.forall_mem_append.mpr ⟨structsPlain, List.forall_mem_singleton.mpr
      ⟨List.forall_mem_cons.mpr ⟨documented.usable_derived.1,
        List.forall_mem_singleton.mpr documented.usable_derived.2⟩, legal, fieldsPlain⟩⟩)
  refine ⟨structs ++ [⟨["Contract", "Connector"], structName, rendered⟩], ?_⟩
  simp only [structSource, formatIdent, legal.1, if_true, made, bind, Except.bind, parsed]
  rfl

theorem structSource_refused (documented : tools.Documented) {structName : String} (legal : tools.Usable structName)
    {schema : Schema} {offence : SchemaCodegenError}
    (refused : firstOffence isValidRustIdentifier schema.fields = some offence) :
    structSource tools structName schema = .error (.error offence) := by
  have settled := schemaFields_settle documented legal schema.fields
  rw [refused] at settled
  have failed : fieldsTokens tools "" structName schema.fields = .error (.error offence) := settled
  simp only [structSource, formatIdent, legal.1, if_true, failed, bind, Except.bind]

/-- A schema whose names all pass the check is rendered or fails to parse. -/
theorem structSource_unrefused (documented : tools.Documented) {structName : String} (legal : tools.Usable structName)
    {schema : Schema} (accepted : firstOffence isValidRustIdentifier schema.fields = none) :
    (∃ file, structSource tools structName schema = .ok file) ∨
      ∃ source, structSource tools structName schema = .error (.error (.renderStruct structName source)) := by
  have settled := schemaFields_settle documented legal schema.fields
  rw [accepted] at settled
  obtain ⟨⟨rendered, structs⟩, made⟩ := settled
  cases parsed : tools.parseError (structs ++ [⟨["Contract", "Connector"], structName, rendered⟩]) with
  | none =>
    refine Or.inl ⟨structs ++ [⟨["Contract", "Connector"], structName, rendered⟩], ?_⟩
    simp only [structSource, formatIdent, legal.1, if_true, made, bind, Except.bind, parsed]
    rfl
  | some source =>
    refine Or.inr ⟨source, ?_⟩
    simp only [structSource, formatIdent, legal.1, if_true, made, bind, Except.bind, parsed]

/-- The first offence against usable names is the first accepted field that
lapses, or else the first refused visit. -/
theorem findSome_offence (visits : List Visit) :
    visits.findSome? (Visit.offence canNameField) =
      ((((visits.takeWhile Visit.accepted).findSome? Visit.lapse).map .invalidFieldName).or
        (visits.findSome? (Visit.offence isValidRustIdentifier))) := by
  induction visits with
  | nil => rfl
  | cons visit rest ih =>
    rw [List.findSome?_cons, List.findSome?_cons (f := Visit.offence isValidRustIdentifier), ih]
    cases visit with
    | name path text =>
      by_cases valid : isValidRustIdentifier text = true
      · by_cases nothing : namesNothing text = true
        · simp [Visit.offence, Visit.accepted, Visit.lapse, canNameField, valid, nothing]
        · simp [Visit.offence, Visit.accepted, Visit.lapse, canNameField, valid, nothing]
      · simp [Visit.offence, Visit.accepted, canNameField, valid]
    | type path dataType =>
      by_cases known : supported dataType = true
      · simp [Visit.offence, Visit.accepted, Visit.lapse, known, List.findSome?_cons]
      · simp [Visit.offence, Visit.accepted, known]

theorem firstOffence_canNameField (fields : List Field) :
    firstOffence canNameField fields =
      ((firstLapse fields).map .invalidFieldName).or (firstOffence isValidRustIdentifier fields) :=
  findSome_offence _

theorem lapse_none_of_accepted {fields : List Field} (accepted : firstOffence isValidRustIdentifier fields = none)
    (clean : firstLapse fields = none) : ∀ visit ∈ fieldsVisits "" fields, visit.lapse = none := by
  have whole : (fieldsVisits "" fields).takeWhile Visit.accepted = fieldsVisits "" fields := by
    rw [List.takeWhile_eq_self_iff]
    intro visit member
    rw [Visit.accepted, List.findSome?_eq_none_iff.mp accepted visit member]
    rfl
  rw [firstLapse, whole] at clean
  exact List.findSome?_eq_none_iff.mp clean

/-- The renderer takes the schemas with usable names and names the first
offence of the others, exactly where it comes to no reserved name that its
check accepts. -/
theorem structSource_settles_iff (documented : tools.Documented) {structName : String}
    (legal : tools.Usable structName) (schema : Schema) :
    Settles (structSource tools structName schema) (firstOffence canNameField schema.fields) ↔
      LapsesHidden schema.fields := by
  rw [firstOffence_canNameField]
  cases lapsed : firstLapse schema.fields with
  | none =>
    refine iff_of_true ?_ fun path found => by rw [lapsed] at found; cases found
    rw [Option.map_none, Option.none_or]
    cases refused : firstOffence isValidRustIdentifier schema.fields with
    | none => exact structSource_clean documented legal refused (lapse_none_of_accepted refused lapsed)
    | some offence => exact structSource_refused documented legal refused
  | some path =>
    rw [Option.map_some, Option.some_or]
    have hidden : LapsesHidden schema.fields ↔
        firstOffence isValidRustIdentifier schema.fields = some (.invalidFieldName path) := by
      rw [LapsesHidden, lapsed]
      exact ⟨fun every => every path rfl, fun same other found => by cases found; exact same⟩
    rw [hidden]
    cases refused : firstOffence isValidRustIdentifier schema.fields with
    | none =>
      refine iff_of_false (fun settled => ?_) (by simp)
      have failed : structSource tools structName schema = .error (.error (.invalidFieldName path)) := settled
      rcases structSource_unrefused documented legal refused with ⟨file, made⟩ | ⟨source, unparsed⟩
      · rw [made] at failed
        cases failed
      · rw [unparsed] at failed
        cases failed
    | some offence =>
      have failed := structSource_refused documented legal refused
      rw [Settles, failed]
      simp

/-- A word that the parser takes for no name. It does not know `gen`. -/
def isKeyword (ident : String) : Bool :=
  reservedWords.contains ident && ident != "gen"

/-- A toolchain of ASCII identifiers. The parser takes an underscore for the
name of a field. -/
def asciiToolchain : Toolchain where
  isIdent := isValidRustIdentifier
  parseError file :=
    if file.any fun item => isKeyword item.ident || item.ident == "_" ||
        item.fields.any fun field => isKeyword field.ident
    then some "expected identifier, found keyword"
    else none

theorem asciiToolchain_documented : asciiToolchain.Documented where
  ascii name valid := valid
  nonempty := by decide
  longer ident suffix valid more := by
    show isValidRustIdentifier (ident ++ suffix) = true
    have start : isValidRustIdentifier ident = true := valid
    have letters : ∀ c ∈ suffix.toList, (c.isAlphanum || c == '_') = true := by
      intro c member
      cases added : suffix.toList with
      | nil =>
        rw [added] at member
        cases member
      | cons first rest =>
        rw [added, continues, Bool.and_eq_true, List.all_eq_true] at more
        rw [added] at member
        rcases List.mem_cons.mp member with rfl | later
        · rw [isAlphanum_of_starts more.1, Bool.true_or]
        · rw [more.2 c later, Bool.true_or]
    unfold isValidRustIdentifier at start ⊢
    rw [String.toList_append]
    cases read : ident.toList with
    | nil =>
      rw [read] at start
      cases start
    | cons first rest =>
      rw [read] at start
      simp only [Bool.and_eq_true] at start
      simp only [List.cons_append, List.all_append, start.1, start.2, List.all_eq_true.mpr letters, Bool.and_self]
  parses file plain := by
    have named : ∀ ident, asciiToolchain.Usable ident → isKeyword ident = false ∧ (ident == "_") = false := by
      intro ident usable
      have apart := Bool.or_eq_false_iff.mp usable.2
      exact ⟨by rw [isKeyword, apart.1, Bool.false_and], apart.2⟩
    show (if _ then _ else _) = none
    rw [if_neg]
    rw [Bool.not_eq_true, List.any_eq_false]
    intro item member
    obtain ⟨_, usable, fields⟩ := plain item member
    rw [(named item.ident usable).1, (named item.ident usable).2, Bool.false_or, Bool.false_or, Bool.not_eq_true,
      List.any_eq_false]
    intro field inFields
    rw [(named field.ident (fields field inFields).1).1]
    decide

theorem asciiToolchain_usable : asciiToolchain.Usable "Order" :=
  ⟨rfl, by decide⟩

theorem shipped_settles : Settles (structSource asciiToolchain "Order" shippedSchema)
    (firstOffence canNameField shippedSchema.fields) := by
  have unlapsed : firstLapse shippedSchema.fields = none := by decide
  refine (structSource_settles_iff asciiToolchain_documented asciiToolchain_usable shippedSchema).mpr ?_
  intro path found
  rw [unlapsed] at found
  cases found

/-- A column named by a keyword, as `type` in many exports. -/
def keywordSchema : Schema :=
  Schema.new [Field.new "id" (.leaf .int64) false, Field.new "type" (.leaf .utf8) true]

theorem keyword_field_unparsed :
    ¬ ∀ tools : Toolchain, tools.Documented → ∀ structName, tools.Usable structName → ∀ schema,
      Settles (structSource tools structName schema) (firstOffence canNameField schema.fields) := by
  intro settles
  have settled := settles asciiToolchain asciiToolchain_documented "Order" asciiToolchain_usable keywordSchema
  have asked : firstOffence canNameField keywordSchema.fields = some (.invalidFieldName "type") := rfl
  have unparsed : structSource asciiToolchain "Order" keywordSchema =
      .error (.error (.renderStruct "Order" "expected identifier, found keyword")) := rfl
  rw [asked, unparsed, Settles] at settled
  cases settled

end Datacrate.Codegen
