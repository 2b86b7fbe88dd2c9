import Datacrate.Lib.Numeral
import Datacrate.Lib.Text

namespace Datacrate.Scaffold

/-- The `f64` type: its parser, and whether a value is finite. -/
structure Floats where
  Value : Type
  parse : String → Option Value
  isFinite : Value → Bool

inductive Comparator where
  | eq
  | ne
  | gt
  | lt
  | ge
  | le
  deriving DecidableEq, Repr

inductive Literal (floats : Floats) where
  | int (n : Int64)
  | float (f : floats.Value)
  | bool (b : Bool)
  | str (s : String)

inductive AggFn where
  | sum
  | count
  | avg
  | min
  | max
  deriving DecidableEq, Repr

structure AggExpr where
  column : String
  func : AggFn
  aliasName : String
  deriving DecidableEq, Repr

structure SortKey where
  column : String
  ascending : Bool
  deriving DecidableEq, Repr

/-- One stage of a method chain on a dataframe. -/
inductive DfOp (floats : Floats) where
  | select (columns : List String)
  | filter (column : String) (cmp : Comparator) (value : Literal floats)
  | aggregate (groupBy : List String) (aggs : List AggExpr)
  | sort (keys : List SortKey)
  | limit (n : UInt64)

inductive CliError where
  | conflictingTransform
  | invalidTransformDf (op : String)
  deriving DecidableEq, Repr

inductive TransformSpec (floats : Floats) where
  | sql (query : String)
  | dataFrame (ops : List (DfOp floats))

def parseComparator : String → Option Comparator
  | "eq" => some .eq
  | "ne" => some .ne
  | "gt" => some .gt
  | "lt" => some .lt
  | "ge" => some .ge
  | "le" => some .le
  | _ => none

def parseI64 (text : List Char) : Option Int64 :=
  (Numeral.parseInt 64 text).map Int64.ofInt

def parseUsize (text : List Char) : Option UInt64 :=
  (Numeral.parseUnsigned 64 text).map UInt64.ofNat

def parseBool : String → Option Bool
  | "true" => some true
  | "false" => some false
  | _ => none

variable (floats : Floats)

def parseLiteral (text : List Char) : Literal floats :=
  match parseI64 text with
  | some n => .int n
  | none =>
    match floats.parse (String.ofList text) with
    | some f => .float f
    | none =>
      match parseBool (String.ofList text) with
      | some b => .bool b
      | none => .str (String.ofList text)

def parseAggFn : String → Option AggFn
  | "sum" => some .sum
  | "count" => some .count
  | "avg" => some .avg
  | "min" => some .min
  | "max" => some .max
  | _ => none

def splitNames (separator : Char) (text : List Char) : List String :=
  (text.splitOn separator).map String.ofList

/-- One `func(col)=alias` term. -/
def parseAggTerm (term : List Char) : Option AggExpr := do
  let (funcCol, aliasName) ← Text.splitOnce '=' term
  let (funcName, column) ← Text.splitOnce '(' funcCol
  let column ← Text.stripLast ')' column
  let func ← parseAggFn (String.ofList funcName)
  return { column := String.ofList column, func, aliasName := String.ofList aliasName }

/-- `group=col1,col2;sum(col)=alias,count(col)=alias`, the groups perhaps
empty. -/
def parseAggregate (rest : List Char) : Option (DfOp floats) := do
  let (groupPart, aggPart) ← Text.splitOnce ';' rest
  let groupCols ← Text.stripPrefix "group=".toList groupPart
  let groupBy := if groupCols.isEmpty then [] else splitNames ',' groupCols
  let aggs ← (aggPart.splitOn ',').mapM parseAggTerm
  return .aggregate groupBy aggs

def parseSortTerm (term : List Char) : Option SortKey := do
  let (column, direction) ← Text.splitOnce ',' term
  match String.ofList direction with
  | "asc" => return { column := String.ofList column, ascending := true }
  | "desc" => return { column := String.ofList column, ascending := false }
  | _ => none

/-- `col,asc;col2,desc`. -/
def parseSort (rest : List Char) : Option (DfOp floats) := do
  let keys ← (rest.splitOn ';').mapM parseSortTerm
  return .sort keys

/-- `col,cmp,value`, where the value may hold commas. -/
def parseFilter (rest : List Char) : Option (DfOp floats) := do
  let (column, rest) ← Text.splitOnce ',' rest
  let (cmp, value) ← Text.splitOnce ',' rest
  let cmp ← parseComparator (String.ofList cmp)
  return .filter (String.ofList column) cmp (parseLiteral floats value)

/-- The operation of a text `kind:rest`, or nothing. -/
def readDfOp (op : List Char) : Option (DfOp floats) := do
  let (kind, rest) ← Text.splitOnce ':' op
  match String.ofList kind with
  | "select" => return .select (splitNames ',' rest)
  | "filter" => parseFilter floats rest
  | "aggregate" => parseAggregate floats rest
  | "sort" => parseSort floats rest
  | "limit" => (parseUsize rest).map .limit
  | _ => none

def parseDfOp (op : String) : Except CliError (DfOp floats) :=
  match readDfOp floats op.toList with
  | some op => .ok op
  | none => .error (.invalidTransformDf op)

def parseTransform (transformSql : Option String) (transformDf : List String) :
    Except CliError (Option (TransformSpec floats)) :=
  match transformSql, transformDf.isEmpty with
  | some _, false => .error .conflictingTransform
  | some sql, true => .ok (some (.sql sql))
  | none, true => .ok none
  | none, false => do
    let ops ← transformDf.mapM (parseDfOp floats)
    return some (.dataFrame ops)

end Datacrate.Scaffold
