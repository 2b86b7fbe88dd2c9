import Datacrate.Lib.Fallible
import Datacrate.Scaffold.Dataframe

namespace Datacrate.Scaffold

def Comparator.text : Comparator → String
  | .eq => "eq"
  | .ne => "ne"
  | .gt => "gt"
  | .lt => "lt"
  | .ge => "ge"
  | .le => "le"

def AggFn.text : AggFn → String
  | .sum => "sum"
  | .count => "count"
  | .avg => "avg"
  | .min => "min"
  | .max => "max"

def AggExpr.text (term : AggExpr) : List Char :=
  term.func.text.toList ++ '(' :: term.column.toList ++ ')' :: '=' :: term.aliasName.toList

def SortKey.text (key : SortKey) : List Char :=
  key.column.toList ++ ',' :: (if key.ascending then "asc" else "desc").toList

variable {floats : Floats}

/-- A literal as it is written. No text is given for floats. -/
def Literal.text : Literal floats → List Char
  | .int n => Numeral.printInt n.toInt
  | .float _ => []
  | .bool true => "true".toList
  | .bool false => "false".toList
  | .str s => s.toList

/-- The documented text of an operation. -/
def DfOp.text : DfOp floats → List Char
  | .select columns => "select:".toList ++ [','].intercalate (columns.map String.toList)
  | .filter column cmp value =>
    "filter:".toList ++ (column.toList ++ ',' :: (cmp.text.toList ++ ',' :: value.text))
  | .aggregate groupBy aggs =>
    "aggregate:".toList ++ ("group=".toList ++ [','].intercalate (groupBy.map String.toList) ++
      ';' :: [','].intercalate (aggs.map AggExpr.text))
  | .sort keys => "sort:".toList ++ [';'].intercalate (keys.map SortKey.text)
  | .limit n => "limit:".toList ++ Numeral.printNat n.toNat

def PlainName (name : String) : Prop :=
  name.toList ≠ [] ∧ ∀ c ∈ name.toList, c ≠ ',' ∧ c ≠ ';' ∧ c ≠ '=' ∧ c ≠ '(' ∧ c ≠ ')'

instance (name : String) : Decidable (PlainName name) :=
  decidable_of_iff (name.toList.isEmpty = false ∧ name.toList.all
    (fun c => decide (c ≠ ',' ∧ c ≠ ';' ∧ c ≠ '=' ∧ c ≠ '(' ∧ c ≠ ')')) = true)
    (by simp only [PlainName, List.isEmpty_eq_false_iff, List.all_eq_true, decide_eq_true_eq])

/-- An integer, a boolean, or a text that reads as no number and no boolean. -/
def Literal.Writable : Literal floats → Prop
  | .int _ | .bool _ => True
  | .float _ => False
  | .str s => parseI64 s.toList = none ∧ floats.parse s = none ∧ parseBool s = none

/-- The lists that must not be empty are not, and names hold no delimiter. -/
def DfOp.Writable : DfOp floats → Prop
  | .select columns => columns ≠ [] ∧ ∀ column ∈ columns, PlainName column
  | .filter column _ value => PlainName column ∧ value.Writable
  | .aggregate groupBy aggs => (∀ column ∈ groupBy, PlainName column) ∧ aggs ≠ [] ∧
    ∀ term ∈ aggs, PlainName term.column ∧ PlainName term.aliasName
  | .sort keys => keys ≠ [] ∧ ∀ key ∈ keys, PlainName key.column
  | .limit _ => True

theorem parseComparator_text (cmp : Comparator) : parseComparator cmp.text = some cmp := by
  cases cmp <;> rfl

theorem parseAggFn_text (func : AggFn) : parseAggFn func.text = some func := by
  cases func <;> rfl

theorem parseI64_printInt (n : Int64) : parseI64 (Numeral.printInt n.toInt) = some n := by
  have least := Int64.le_toInt n
  have most := Int64.toInt_lt n
  rw [parseI64, Numeral.parseInt_printInt (by omega) (by omega), Option.map_some, Int64.ofInt_toInt]

theorem parseUsize_printNat (n : UInt64) : parseUsize (Numeral.printNat n.toNat) = some n := by
  rw [parseUsize, Numeral.parseUnsigned_printNat (UInt64.toNat_lt n), Option.map_some, UInt64.ofNat_toNat]

/-- A written literal is read as itself, if `true` and `false` are no floats. -/
theorem parseLiteral_text (noTrue : floats.parse "true" = none) (noFalse : floats.parse "false" = none)
    {value : Literal floats} (writable : value.Writable) : parseLiteral floats value.text = value := by
  cases value with
  | int n =>
    show parseLiteral floats (Numeral.printInt n.toInt) = _
    rw [parseLiteral, parseI64_printInt]
  | float f => exact writable.elim
  | bool b =>
    have noNumber : parseI64 "true".toList = none ∧ parseI64 "false".toList = none := by decide
    cases b with
    | false =>
      show parseLiteral floats "false".toList = _
      rw [parseLiteral, noNumber.2, String.ofList_toList, noFalse]
      rfl
    | true =>
      show parseLiteral floats "true".toList = _
      rw [parseLiteral, noNumber.1, String.ofList_toList, noTrue]
      rfl
  | str s =>
    obtain ⟨unsigned, unreal, other⟩ := writable
    show parseLiteral floats s.toList = _
    rw [parseLiteral, unsigned, String.ofList_toList, unreal, other]

theorem splitNames_text {columns : List String} (nonempty : columns ≠ [])
    (plain : ∀ column ∈ columns, PlainName column) :
    splitNames ',' ([','].intercalate (columns.map String.toList)) = columns := by
  have absent : ∀ part ∈ columns.map String.toList, ',' ∉ part := by
    intro part member comma
    obtain ⟨column, inColumns, rfl⟩ := List.mem_map.mp member
    exact ((plain column inColumns).2 ',' comma).1 rfl
  rw [splitNames, List.splitOn_intercalate ',' absent (fun empty => nonempty (List.map_eq_nil_iff.mp empty)),
    List.map_map]
  simp [Function.comp_def]

theorem parseFilter_text {column text : List Char} {cmp : Comparator} (plain : ',' ∉ column) :
    parseFilter floats (column ++ ',' :: (cmp.text.toList ++ ',' :: text)) =
      some (.filter (String.ofList column) cmp (parseLiteral floats text)) := by
  have second : ',' ∉ cmp.text.toList := by
    cases cmp <;> decide
  rw [parseFilter, Text.splitOnce_append plain]
  simp only [Option.bind_eq_bind, Option.bind_some]
  rw [Text.splitOnce_append second]
  simp only [Option.bind_some, String.ofList_toList, parseComparator_text]
  rfl

/-- Only the column of a term is free of `=`. -/
theorem parseAggTerm_written {func : AggFn} {column label : List Char} (plain : '=' ∉ column) :
    parseAggTerm (func.text.toList ++ '(' :: (column ++ ')' :: '=' :: label)) =
      some { column := String.ofList column, func, aliasName := String.ofList label } := by
  have name : '=' ∉ func.text.toList ∧ '(' ∉ func.text.toList := by
    cases func <;> decide
  have outer : '=' ∉ func.text.toList ++ '(' :: (column ++ [')']) := by
    simp only [List.mem_append, List.mem_cons, List.not_mem_nil, not_or]
    exact ⟨name.1, by decide, plain, by decide, not_false⟩
  have written : func.text.toList ++ '(' :: (column ++ ')' :: '=' :: label) =
      (func.text.toList ++ '(' :: (column ++ [')'])) ++ '=' :: label := by
    simp only [List.append_assoc, List.cons_append, List.nil_append]
  rw [written, parseAggTerm, Text.splitOnce_append outer]
  simp only [Option.bind_eq_bind, Option.bind_some]
  rw [Text.splitOnce_append name.2]
  simp only [Option.bind_some]
  rw [Text.stripLast_eq_some_iff.mpr rfl]
  simp only [Option.bind_some, String.ofList_toList, parseAggFn_text]
  rfl

theorem parseAggTerm_text {term : AggExpr} (plain : PlainName term.column) :
    parseAggTerm term.text = some term := by
  have written := @parseAggTerm_written term.func term.column.toList term.aliasName.toList
    fun equals => (plain.2 '=' equals).2.2.1 rfl
  rw [String.ofList_toList, String.ofList_toList] at written
  rw [AggExpr.text, List.append_assoc]
  exact written

theorem AggExpr.not_mem_text {term : AggExpr} (column : PlainName term.column) (label : PlainName term.aliasName) :
    ',' ∉ term.text := by
  have func : ',' ∉ term.func.text.toList := by
    cases term.func <;> decide
  simp only [AggExpr.text, List.mem_append, List.mem_cons, not_or]
  exact ⟨⟨func, by decide, fun comma => (column.2 ',' comma).1 rfl⟩, by decide, by decide,
    fun comma => (label.2 ',' comma).1 rfl⟩

theorem PlainName.not_mem_names {columns : List String} (plain : ∀ column ∈ columns, PlainName column) :
    ';' ∉ [','].intercalate (columns.map String.toList) := by
  refine Text.not_mem_intercalate (by decide) ?_
  intro part member semicolon
  obtain ⟨column, inColumns, rfl⟩ := List.mem_map.mp member
  exact ((plain column inColumns).2 ';' semicolon).2.1 rfl

/-- A group list is read back, the empty one from the empty text. -/
theorem groupBy_text {columns : List String} (plain : ∀ column ∈ columns, PlainName column) :
    (if ([','].intercalate (columns.map String.toList)).isEmpty then []
      else splitNames ',' ([','].intercalate (columns.map String.toList))) = columns := by
  by_cases empty : columns = []
  · rw [empty]
    rfl
  · have written : [','].intercalate (columns.map String.toList) ≠ [] := by
      refine Text.intercalate_ne_nil (fun none => empty (List.map_eq_nil_iff.mp none)) ?_
      intro part member
      obtain ⟨column, inColumns, rfl⟩ := List.mem_map.mp member
      exact (plain column inColumns).1
    rw [if_neg (by rwa [List.isEmpty_iff]), splitNames_text empty plain]

theorem parseAggregate_text {groupBy : List String} {aggs : List AggExpr}
    (groups : ∀ column ∈ groupBy, PlainName column) (nonempty : aggs ≠ [])
    (terms : ∀ term ∈ aggs, PlainName term.column ∧ PlainName term.aliasName) :
    parseAggregate floats ("group=".toList ++ [','].intercalate (groupBy.map String.toList) ++
      ';' :: [','].intercalate (aggs.map AggExpr.text)) = some (.aggregate groupBy aggs) := by
  have outer : ';' ∉ "group=".toList ++ [','].intercalate (groupBy.map String.toList) := by
    rw [List.mem_append, not_or]
    exact ⟨by decide, PlainName.not_mem_names groups⟩
  have absent : ∀ part ∈ aggs.map AggExpr.text, ',' ∉ part := by
    intro part member
    obtain ⟨term, inAggs, rfl⟩ := List.mem_map.mp member
    exact AggExpr.not_mem_text (terms term inAggs).1 (terms term inAggs).2
  have read : (aggs.map AggExpr.text).mapM parseAggTerm = some aggs :=
    Fallible.mapM_map_eq_some fun term member => parseAggTerm_text (terms term member).1
  rw [parseAggregate, Text.splitOnce_append outer]
  simp only [Option.bind_eq_bind, Option.bind_some]
  rw [Text.stripPrefix_eq_some_iff.mpr rfl,
    List.splitOn_intercalate ',' absent (fun none => nonempty (List.map_eq_nil_iff.mp none)), read]
  simp only [Option.bind_some, groupBy_text groups]
  rfl

theorem parseSortTerm_text {key : SortKey} (comma : ',' ∉ key.column.toList) : parseSortTerm key.text = some key := by
  obtain ⟨column, ascending⟩ := key
  rw [SortKey.text, parseSortTerm, Text.splitOnce_append comma]
  simp only [Option.bind_eq_bind, Option.bind_some, String.ofList_toList]
  cases ascending with
  | false => rfl
  | true => rfl

theorem SortKey.not_mem_text {key : SortKey} (plain : PlainName key.column) : ';' ∉ key.text := by
  simp only [SortKey.text, List.mem_append, List.mem_cons, not_or]
  refine ⟨fun semicolon => (plain.2 ';' semicolon).2.1 rfl, by decide, ?_⟩
  split <;> decide

theorem parseSort_text {keys : List SortKey} (nonempty : keys ≠ []) (plain : ∀ key ∈ keys, PlainName key.column) :
    parseSort floats ([';'].intercalate (keys.map SortKey.text)) = some (.sort keys) := by
  have absent : ∀ part ∈ keys.map SortKey.text, ';' ∉ part := by
    intro part member
    obtain ⟨key, inKeys, rfl⟩ := List.mem_map.mp member
    exact SortKey.not_mem_text (plain key inKeys)
  have read : (keys.map SortKey.text).mapM parseSortTerm = some keys :=
    Fallible.mapM_map_eq_some fun key member =>
      parseSortTerm_text fun comma => ((plain key member).2 ',' comma).1 rfl
  rw [parseSort, List.splitOn_intercalate ';' absent (fun none => nonempty (List.map_eq_nil_iff.mp none)), read]
  rfl

theorem splitOnce_kind (kind : String) (rest : List Char) (plain : ':' ∉ kind.toList) :
    Text.splitOnce ':' (kind.toList ++ ':' :: rest) = some (kind.toList, rest) :=
  Text.splitOnce_append plain

theorem readDfOp_select (rest : List Char) :
    readDfOp floats ("select:".toList ++ rest) = some (.select (splitNames ',' rest)) := by
  have kind : Text.splitOnce ':' ("select:".toList ++ rest) = _ := splitOnce_kind "select" rest (by decide)
  rw [readDfOp, kind]
  rfl

theorem readDfOp_filter (rest : List Char) : readDfOp floats ("filter:".toList ++ rest) = parseFilter floats rest := by
  have kind : Text.splitOnce ':' ("filter:".toList ++ rest) = _ := splitOnce_kind "filter" rest (by decide)
  rw [readDfOp, kind]
  rfl

theorem readDfOp_aggregate (rest : List Char) :
    readDfOp floats ("aggregate:".toList ++ rest) = parseAggregate floats rest := by
  have kind : Text.splitOnce ':' ("aggregate:".toList ++ rest) = _ := splitOnce_kind "aggregate" rest (by decide)
  rw [readDfOp, kind]
  rfl

theorem readDfOp_sort (rest : List Char) : readDfOp floats ("sort:".toList ++ rest) = parseSort floats rest := by
  have kind : Text.splitOnce ':' ("sort:".toList ++ rest) = _ := splitOnce_kind "sort" rest (by decide)
  rw [readDfOp, kind]
  rfl

theorem readDfOp_limit (rest : List Char) :
    readDfOp floats ("limit:".toList ++ rest) = (parseUsize rest).map .limit := by
  have kind : Text.splitOnce ':' ("limit:".toList ++ rest) = _ := splitOnce_kind "limit" rest (by decide)
  rw [readDfOp, kind]
  rfl

/-- The text of a writable operation is read as that operation. -/
theorem readDfOp_text (noTrue : floats.parse "true" = none) (noFalse : floats.parse "false" = none)
    {op : DfOp floats} (writable : op.Writable) : readDfOp floats op.text = some op := by
  cases op with
  | select columns =>
    refine (readDfOp_select _).trans ?_
    rw [splitNames_text writable.1 writable.2]
  | filter column cmp value =>
    have comma : ',' ∉ column.toList := fun member => (writable.1.2 ',' member).1 rfl
    refine (readDfOp_filter _).trans ?_
    rw [parseFilter_text comma, parseLiteral_text noTrue noFalse writable.2, String.ofList_toList]
  | aggregate groupBy aggs =>
    exact (readDfOp_aggregate _).trans (parseAggregate_text writable.1 writable.2.1 writable.2.2)
  | sort keys => exact (readDfOp_sort _).trans (parseSort_text writable.1 writable.2)
  | limit n =>
    refine (readDfOp_limit _).trans ?_
    rw [parseUsize_printNat, Option.map_some]

/-- Every writable operation is read back from its text. -/
theorem parseDfOp_text (floats : Floats) (noTrue : floats.parse "true" = none)
    (noFalse : floats.parse "false" = none) (op : DfOp floats) (writable : op.Writable) :
    parseDfOp floats (String.ofList op.text) = .ok op := by
  rw [parseDfOp, String.toList_ofList, readDfOp_text noTrue noFalse writable]

/-- Floats that are numerals with no sign, or `nan`. -/
def exampleFloats : Floats where
  Value := Option Nat
  parse := fun text => if text = "nan" then some none else (Numeral.parseNat text.toList).map some
  isFinite := Option.isSome

/-- A string with commas, colons and semicolons is a literal. -/
theorem filter_text_read_back :
    parseDfOp exampleFloats "filter:note,eq,a,b:c;d" = .ok (.filter "note" .eq (.str "a,b:c;d")) :=
  parseDfOp_text exampleFloats rfl rfl (.filter "note" .eq (.str "a,b:c;d"))
    ⟨by decide, by decide, rfl, by decide⟩

end Datacrate.Scaffold
