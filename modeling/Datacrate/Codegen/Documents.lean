import Datacrate.Codegen.Spelling
import Datacrate.Lib.Fallible

namespace Datacrate.Codegen

open Arrow

/-- The errors of the readers of declared schemas. -/
inductive DeclarationError where
  | parseDbtYaml (source : String)
  | modelNotFound (model : String)
  | parseErwinXml (source : String)
  | entityNotFound (entity : String)
  | unsupportedDeclaredType (field declaredType : String)
  deriving DecidableEq, Repr

/-- A decoded YAML value. -/
inductive Yaml where
  | null
  | bool (value : Bool)
  | number (text : String)
  | string (text : String)
  | sequence (items : List Yaml)
  | mapping (entries : List (Yaml × Yaml))
  | tagged (tag : String) (value : Yaml)

/-- The text of a value, under any tags. -/
def Yaml.asStr : Yaml → Option String
  | .string text => some text
  | .tagged _ value => value.asStr
  | _ => none

structure Column where
  name : String
  dataType : Option String
  tests : List Yaml

structure Model where
  name : String
  columns : List Column

structure SchemaFile where
  models : List Model

def isNotNullTest : Yaml → Bool
  | .string name => name == "not_null"
  | .mapping entries => entries.any fun entry => entry.1.asStr == some "not_null"
  | _ => false

/-- The field of a column with a declared type. -/
def declaredColumn (name declared : String) (nullable : Bool) : Except DeclarationError Field :=
  match declaredTypeToArrow declared.toList with
  | some dataType => .ok (Field.new name dataType nullable)
  | none => .error (.unsupportedDeclaredType name declared)

def Column.field (column : Column) : Except DeclarationError Field :=
  declaredColumn column.name (column.dataType.getD "<none>") (!column.tests.any isNotNullTest)

/-- The schema of the first model with the name. The YAML decoder is given. -/
def parseDbtSchemaYml (fromStr : String → Except String SchemaFile) (yaml modelName : String) :
    Except DeclarationError Schema :=
  match fromStr yaml with
  | .error source => .error (.parseDbtYaml source)
  | .ok file =>
    match file.models.find? fun model => model.name == modelName with
    | none => .error (.modelNotFound modelName)
    | some model => (model.columns.mapM Column.field).map Schema.new

/-- A node of an XML document. Attributes in a namespace are none here, since
the reader asks for plain names only. -/
inductive Node where
  | element (tag : String) (attributes : List (String × String)) (children : List Node)
  | other

def Node.hasTagName (name : String) : Node → Bool
  | .element tag _ _ => tag == name
  | .other => false

def Node.attribute (name : String) : Node → Option String
  | .element _ attributes _ => attributes.lookup name
  | .other => none

def Node.children : Node → List Node
  | .element _ _ children => children
  | .other => []

mutual

/-- A node and all below it, in document order. -/
def Node.descendants : Node → List Node
  | .element tag attributes children => .element tag attributes children :: descendantsOfAll children
  | .other => [.other]

def descendantsOfAll : List Node → List Node
  | [] => []
  | node :: rest => node.descendants ++ descendantsOfAll rest

end

def Node.isEntity (entityName : String) (node : Node) : Bool :=
  node.hasTagName "Entity" && node.attribute "name" == some entityName

/-- The field of an `Attribute` element. -/
def Node.field (node : Node) : Except DeclarationError Field :=
  declaredColumn ((node.attribute "name").getD "") ((node.attribute "type").getD "<none>")
    (((node.attribute "nullable").map (· == "true")).getD true)

/-- The schema of the first entity with the name. A document is what its XML
parser makes of the nodes below its root. -/
def parseErwinXml (parse : String → Except String (List Node)) (xml entityName : String) :
    Except DeclarationError Schema :=
  match parse xml with
  | .error source => .error (.parseErwinXml source)
  | .ok document =>
    match (descendantsOfAll document).find? (Node.isEntity entityName) with
    | none => .error (.entityNotFound entityName)
    | some entity => ((entity.children.filter (Node.hasTagName "Attribute")).mapM Node.field).map Schema.new

/-- What a document says of one column, in the words of either format. -/
structure Declaration where
  name : String
  declared : String
  nullable : Bool
  deriving DecidableEq, Repr

def Declaration.field (declaration : Declaration) : Except DeclarationError Field :=
  declaredColumn declaration.name declaration.declared declaration.nullable

def Model.declarations (model : Model) : List Declaration :=
  model.columns.map fun column =>
    ⟨column.name, column.dataType.getD "<none>", !column.tests.any isNotNullTest⟩

def Node.declarations (entity : Node) : List Declaration :=
  (entity.children.filter (Node.hasTagName "Attribute")).map fun node =>
    ⟨(node.attribute "name").getD "", (node.attribute "type").getD "<none>",
      ((node.attribute "nullable").map (· == "true")).getD true⟩

/-- What either reader does once it has found the table. -/
def readDeclarations (declarations : List Declaration) : Except DeclarationError Schema :=
  (declarations.mapM Declaration.field).map Schema.new

/-- The model that a dbt document has under a name. -/
def SchemaFile.Finds (file : SchemaFile) (modelName : String) (model : Model) : Prop :=
  file.models.find? (fun model => model.name == modelName) = some model

/-- The entity that a document has under a name. -/
def FindsEntity (document : List Node) (entityName : String) (entity : Node) : Prop :=
  (descendantsOfAll document).find? (Node.isEntity entityName) = some entity

section Readers

variable {fromStr : String → Except String SchemaFile} {parse : String → Except String (List Node)}
  {yaml xml modelName entityName : String} {file : SchemaFile} {document : List Node} {model : Model} {entity : Node}

theorem parseDbtSchemaYml_found (decoded : fromStr yaml = .ok file) (found : file.Finds modelName model) :
    parseDbtSchemaYml fromStr yaml modelName = readDeclarations model.declarations := by
  rw [parseDbtSchemaYml, decoded]
  dsimp only
  rw [found, readDeclarations, Model.declarations, List.mapM_map]
  rfl

theorem parseErwinXml_found (parsed : parse xml = .ok document) (found : FindsEntity document entityName entity) :
    parseErwinXml parse xml entityName = readDeclarations entity.declarations := by
  rw [parseErwinXml, parsed]
  dsimp only
  rw [found, readDeclarations, Node.declarations, List.mapM_map]
  rfl

theorem declaredColumn_ok_iff {name declared : String} {nullable : Bool} {field : Field} :
    declaredColumn name declared nullable = .ok field ↔
      ∃ dataType, declaredTypeToArrow declared.toList = some dataType ∧ field = Field.new name dataType nullable := by
  unfold declaredColumn
  cases declaredTypeToArrow declared.toList with
  | none => simp
  | some dataType => simp [eq_comm]

theorem declaredColumn_error_iff {name declared : String} {nullable : Bool} {failure : DeclarationError} :
    declaredColumn name declared nullable = .error failure ↔
      declaredTypeToArrow declared.toList = none ∧ failure = .unsupportedDeclaredType name declared := by
  unfold declaredColumn
  cases declaredTypeToArrow declared.toList with
  | none => simp [eq_comm]
  | some dataType => simp

theorem readDeclarations_ok_iff {declarations : List Declaration} {schema : Schema} :
    readDeclarations declarations = .ok schema ↔ ∃ fields, schema = Schema.new fields ∧
      List.Forall₂ (fun declaration field => declaration.field = .ok field) declarations fields := by
  rw [readDeclarations]
  constructor
  · intro read
    cases collected : declarations.mapM Declaration.field with
    | error failure =>
      rw [collected] at read
      cases read
    | ok fields =>
      rw [collected] at read
      cases read
      exact ⟨fields, rfl, Fallible.mapM_ok_iff.mp collected⟩
  · rintro ⟨fields, rfl, pairs⟩
    rw [Fallible.mapM_ok_iff.mpr pairs]
    rfl

/-- The first column without a declared type is the failure. -/
def FirstUnread (declarations : List Declaration) (failure : DeclarationError) : Prop :=
  ∃ before declaration after, declarations = before ++ declaration :: after ∧
    (∀ earlier ∈ before, (declaredTypeToArrow earlier.declared.toList).isSome) ∧
    declaredTypeToArrow declaration.declared.toList = none ∧
    failure = .unsupportedDeclaredType declaration.name declaration.declared

theorem readDeclarations_error_iff {declarations : List Declaration} {failure : DeclarationError} :
    readDeclarations declarations = .error failure ↔ FirstUnread declarations failure := by
  have mapped : readDeclarations declarations = .error failure ↔
      declarations.mapM Declaration.field = .error failure := by
    rw [readDeclarations]
    cases declarations.mapM Declaration.field <;> simp [Except.map]
  have readable : ∀ declaration : Declaration, (∃ field, declaration.field = .ok field) ↔
      (declaredTypeToArrow declaration.declared.toList).isSome := by
    intro declaration
    simp only [Declaration.field, declaredColumn_ok_iff, Option.isSome_iff_exists]
    exact ⟨fun ⟨_, dataType, read, _⟩ => ⟨dataType, read⟩, fun ⟨dataType, read⟩ => ⟨_, dataType, read, rfl⟩⟩
  rw [mapped, Fallible.mapM_error_iff]
  simp only [readable]
  simp only [Declaration.field, declaredColumn_error_iff, FirstUnread]

/-- Two columns of one name and type, whatever way their types are written. -/
def SameColumn (first second : Declaration) : Prop :=
  first.name = second.name ∧ first.nullable = second.nullable ∧ ∃ dataType,
    declaredTypeToArrow first.declared.toList = some dataType ∧
    declaredTypeToArrow second.declared.toList = some dataType

theorem sameColumn_iff {first second : Declaration} :
    SameColumn first second ↔ ∃ field, first.field = .ok field ∧ second.field = .ok field := by
  simp only [Declaration.field, declaredColumn_ok_iff]
  constructor
  · rintro ⟨name, nullable, dataType, left, right⟩
    exact ⟨Field.new first.name dataType first.nullable, ⟨dataType, left, rfl⟩, dataType, right, by rw [name, nullable]⟩
  · rintro ⟨_, ⟨dataType, left, rfl⟩, other, right, same⟩
    simp only [Field.new, Field.mk.injEq, and_true] at same
    obtain ⟨name, rfl, nullable⟩ := same
    exact ⟨name, nullable, dataType, left, right⟩

theorem readDeclarations_agree_iff {first second : List Declaration} :
    (∃ schema, readDeclarations first = .ok schema ∧ readDeclarations second = .ok schema) ↔
      List.Forall₂ SameColumn first second := by
  simp only [readDeclarations_ok_iff]
  constructor
  · rintro ⟨_, ⟨fields, rfl, left⟩, others, same, right⟩
    cases Schema.mk.inj same |>.1
    induction left generalizing second with
    | nil =>
      cases right
      exact .nil
    | cons here _ ih =>
      cases right with
      | cons there later => exact .cons (sameColumn_iff.mpr ⟨_, here, there⟩) (ih rfl later)
  · intro pairs
    induction pairs with
    | nil => exact ⟨_, ⟨[], rfl, .nil⟩, [], rfl, .nil⟩
    | cons column _ ih =>
      obtain ⟨field, here, there⟩ := sameColumn_iff.mp column
      obtain ⟨_, ⟨fields, rfl, left⟩, others, same, right⟩ := ih
      cases Schema.mk.inj same |>.1
      exact ⟨_, ⟨field :: fields, rfl, .cons here left⟩, field :: fields, rfl, .cons there right⟩

/-- A dbt model and an Erwin entity read as one schema exactly when their
columns agree, however they are spelled. Each is refused for its first column
without a declared type, and for nothing else. -/
theorem declared_documents_agree (decoded : fromStr yaml = .ok file) (parsed : parse xml = .ok document)
    (foundModel : file.Finds modelName model) (foundEntity : FindsEntity document entityName entity) :
    ((∃ schema, parseDbtSchemaYml fromStr yaml modelName = .ok schema ∧
        parseErwinXml parse xml entityName = .ok schema) ↔
      List.Forall₂ SameColumn model.declarations entity.declarations) ∧
    ∀ failure,
      (parseDbtSchemaYml fromStr yaml modelName = .error failure ↔ FirstUnread model.declarations failure) ∧
      (parseErwinXml parse xml entityName = .error failure ↔ FirstUnread entity.declarations failure) := by
  rw [parseDbtSchemaYml_found decoded foundModel, parseErwinXml_found parsed foundEntity]
  exact ⟨readDeclarations_agree_iff, fun _ => ⟨readDeclarations_error_iff, readDeclarations_error_iff⟩⟩

end Readers

/-- The reference documents of the schema gate, decoded. -/
def ordersModel : Model :=
  ⟨"orders", [⟨"id", some "bigint", [.string "not_null"]⟩, ⟨"customer_name", some "varchar(100)", []⟩]⟩

def ordersEntity : Node :=
  .element "Entity" [("name", "Orders")] [.other,
    .element "Attribute" [("name", "id"), ("type", "bigint"), ("nullable", "false")] [], .other,
    .element "Attribute" [("name", "customer_name"), ("type", "varchar(100)"), ("nullable", "true")] []]

def ordersDocument : List Node :=
  [.element "Entities" [] [ordersEntity]]

theorem ordersModel_found : SchemaFile.Finds ⟨[ordersModel]⟩ "orders" ordersModel := by
  simp [SchemaFile.Finds, ordersModel]

theorem ordersEntity_found : FindsEntity ordersDocument "Orders" ordersEntity := by
  simp [FindsEntity, ordersDocument, ordersEntity, descendantsOfAll, Node.descendants, Node.isEntity, Node.hasTagName,
    Node.attribute]

theorem declaredTypeToArrow_bigint : declaredTypeToArrow "bigint".toList = some (.leaf .int64) := by
  rw [declaredTypeToArrow_primitive rfl rfl]
  rfl

theorem declaredTypeToArrow_text : declaredTypeToArrow "varchar(100)".toList = some (.leaf .utf8) := by
  rw [declaredTypeToArrow_primitive rfl rfl]
  rfl

theorem ordersColumns_same : List.Forall₂ SameColumn ordersModel.declarations ordersEntity.declarations :=
  .cons ⟨rfl, rfl, _, declaredTypeToArrow_bigint, declaredTypeToArrow_bigint⟩
    (.cons ⟨rfl, rfl, _, declaredTypeToArrow_text, declaredTypeToArrow_text⟩ .nil)

theorem orders_documents_agree :
    ∃ schema, parseDbtSchemaYml (fun _ => .ok ⟨[ordersModel]⟩) "" "orders" = .ok schema ∧
      parseErwinXml (fun _ => .ok ordersDocument) "" "Orders" = .ok schema := by
  exact (declared_documents_agree rfl rfl ordersModel_found ordersEntity_found).1.mpr ordersColumns_same

end Datacrate.Codegen
