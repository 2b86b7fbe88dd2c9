import Datacrate.Arrow.Array
import Datacrate.Arrow.Mapping

namespace Datacrate.Arrow

open Contracts (TypeShape)

/-- A violation of a prepared contract's physical schema or required values. -/
inductive BatchValidationError where
  | schemaMismatch (expected found : Schema)
  | requiredNull (path : String) (row : Nat)
  | representation (path : String)

mutual

inductive Children where
  | leaf
  | struct (nodes : List Node)
  | list (item : Node)
  | map (entry : Node)

/-- One position of the plan, with the path its errors name. -/
structure Node where
  field : Field
  path : String
  children : Children

end

mutual

/-- The plan for one field. The entries of a map keep the map's path. -/
def Node.new : Field → String → Node
  | ⟨name, dataType, nullable, metadata⟩, path =>
    { field := ⟨name, dataType, nullable, metadata⟩, path, children := childrenOf dataType path }

def childrenOf : DataType → String → Children
  | .struct fields, path => .struct (nodesOf fields path)
  | .list item, path => .list (Node.new item (path ++ "[]"))
  | .map entries _, path => .map (Node.new entries path)
  | .leaf _, _ | .largeList _, _ => .leaf

def nodesOf : List Field → String → List Node
  | [], _ => []
  | field :: rest, path => Node.new field (path ++ "." ++ field.name) :: nodesOf rest path

end

section

variable {α : Type}

mutual

/-- Checks one row. A null hides whatever is below it. -/
def Node.validate : Node → ArrayData α → Nat → Except BatchValidationError Unit
  | ⟨field, path, children⟩, array, row =>
    if array.isNull row then
      if field.nullable then .ok () else .error (.requiredNull path row)
    else children.validate path array row

def Children.validate : Children → String → ArrayData α → Nat → Except BatchValidationError Unit
  | .leaf, _, _, _ => .ok ()
  | .struct nodes, path, array, row =>
    match array with
    | .struct _ columns => validateNodes nodes columns row
    | _ => .error (.representation path)
  | .list item, path, array, row =>
    match array with
    | .list _ offsets values => (offsetRange offsets row).forM fun index => item.validate values index
    | _ => .error (.representation path)
  | .map entry, path, array, row =>
    match array with
    | .map _ offsets entries => (offsetRange offsets row).forM fun index => entry.validate entries index
    | _ => .error (.representation path)

def validateNodes : List Node → List (ArrayData α) → Nat → Except BatchValidationError Unit
  | node :: nodes, column :: columns, row => do
    node.validate column row
    validateNodes nodes columns row
  | _, _, _ => .ok ()

end

/-- Reusable checks prepared from a contract: the expected schema and the
plan, never a batch. -/
structure BatchValidator where
  schema : Schema
  fields : List Node

def BatchValidator.new (shape : TypeShape) : Except MappingError BatchValidator := do
  let mapped ← Arrow.schema shape
  return { schema := mapped, fields := mapped.fields.map fun field => Node.new field field.name }

theorem BatchValidator.new_ok_iff {shape : TypeShape} {validator : BatchValidator} :
    BatchValidator.new shape = .ok validator ↔ ∃ mapped, Arrow.schema shape = .ok mapped ∧
      validator = ⟨mapped, mapped.fields.map fun field => Node.new field field.name⟩ := by
  rw [BatchValidator.new, Fallible.bind_ok_iff]
  exact exists_congr fun mapped => and_congr_right fun _ => Fallible.pure_ok_iff.trans eq_comm

def BatchValidator.validate (validator : BatchValidator) (batch : RecordBatch α) :
    Except BatchValidationError Unit :=
  if !fieldsMatch validator.schema.fields batch.schema.fields then
    .error (.schemaMismatch validator.schema batch.schema)
  else
    (validator.fields.zip batch.columns).forM fun pair =>
      (List.range batch.numRows).forM fun row => pair.1.validate pair.2 row

end

end Datacrate.Arrow
