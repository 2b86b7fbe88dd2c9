import Datacrate.Arrow.DataType

namespace Datacrate.Codegen

open Arrow

inductive SchemaCodegenError where
  | invalidFieldName (field : String)
  | unsupportedArrowType (field : String) (dataType : DataType)
  | renderStruct (structName source : String)

/-- A rendering ends with an error, or with the panic of `format_ident!` on
a text that is no identifier. -/
inductive Failure where
  | error (error : SchemaCodegenError)
  | panic (ident : String)

/-- A rendered field type. A path names a primitive or a generated struct. -/
inductive RustType where
  | primitive (name : String)
  | named (ident : String)
  | option (inner : RustType)
  | vec (inner : RustType)
  deriving DecidableEq, Repr

structure RustField where
  ident : String
  type : RustType
  deriving DecidableEq, Repr

structure RustStruct where
  derives : List String
  ident : String
  fields : List RustField
  deriving DecidableEq, Repr

/-- The compiler libraries: which texts are identifiers, and why a file of
structs does not parse, if it does not. -/
structure Toolchain where
  isIdent : String → Bool
  parseError : List RustStruct → Option String

def rustPrimitive : LeafType → Option String
  | .boolean => some "bool"
  | .int8 => some "i8"
  | .int16 => some "i16"
  | .int32 => some "i32"
  | .int64 => some "i64"
  | .uInt8 => some "u8"
  | .uInt16 => some "u16"
  | .uInt32 => some "u32"
  | .uInt64 => some "u64"
  | .float32 => some "f32"
  | .float64 => some "f64"
  | .utf8 => some "String"
  | .other _ => none

def isValidRustIdentifier (name : String) : Bool :=
  match name.toList with
  | [] => false
  | c :: rest => (c.isAlpha || c == '_') && rest.all fun c => c.isAlphanum || c == '_'

def capitalize : List Char → List Char
  | [] => []
  | c :: rest => c.toUpper :: rest

/-- The name without separators, the first letter of each part in upper
case. It is asked of ASCII names only. -/
def toPascalCase (name : String) : String :=
  let parts := (name.toList.splitOnP fun c => c == '_' || c == '-').filter (!·.isEmpty)
  String.ofList (parts.flatMap capitalize)

variable (tools : Toolchain)

def formatIdent (text : String) : Except Failure String :=
  if tools.isIdent text then .ok text else .error (.panic text)

mutual

/-- The type of one field, with the structs it makes, innermost first. -/
def fieldTypeTokens (errorName typeHint : String) : DataType → Except Failure (RustType × List RustStruct)
  | .list ⟨_, itemType, _, _⟩ | .largeList ⟨_, itemType, _, _⟩ => do
    let item ← fieldTypeTokens (errorName ++ "[]") (typeHint ++ "Item") itemType
    return (.vec item.1, item.2)
  | .struct fields => do
    let ident ← formatIdent tools typeHint
    let rendered ← fieldsTokens (errorName ++ ".") typeHint fields
    return (.named ident, rendered.2 ++ [⟨["Contract"], ident, rendered.1⟩])
  | .leaf kind =>
    match rustPrimitive kind with
    | some primitive => .ok (.primitive primitive, [])
    | none => .error (.error (.unsupportedArrowType errorName (.leaf kind)))
  | .map entries sorted => .error (.error (.unsupportedArrowType errorName (.map entries sorted)))

/-- The fields of one struct, with the structs they make. -/
def fieldsTokens (errorPrefix typeHint : String) : List Field → Except Failure (List RustField × List RustStruct)
  | [] => .ok ([], [])
  | ⟨name, dataType, nullable, _⟩ :: rest =>
    if !isValidRustIdentifier name then .error (.error (.invalidFieldName (errorPrefix ++ name)))
    else do
      let type ← fieldTypeTokens (errorPrefix ++ name) (typeHint ++ toPascalCase name) dataType
      let ident ← formatIdent tools name
      let others ← fieldsTokens errorPrefix typeHint rest
      return (⟨ident, if nullable then .option type.1 else type.1⟩ :: others.1, type.2 ++ others.2)

end

/-- The rendered file: the nested structs, then the struct of the schema. -/
def structSource (structName : String) (schema : Schema) : Except Failure (List RustStruct) := do
  let ident ← formatIdent tools structName
  let rendered ← fieldsTokens tools "" structName schema.fields
  let file := rendered.2 ++ [⟨["Contract", "Connector"], ident, rendered.1⟩]
  match tools.parseError file with
  | some source => .error (.error (.renderStruct structName source))
  | none => return file

end Datacrate.Codegen
