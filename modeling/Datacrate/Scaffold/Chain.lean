import Datacrate.Scaffold.Grammar

namespace Datacrate.Scaffold

/-- A run of fixed source text, a method or function name, or a literal. -/
inductive Token (floats : Floats) where
  | fixed (text : String)
  | ident (name : String)
  | int (n : Int64)
  | usize (n : UInt64)
  | float (f : floats.Value)
  | bool (b : Bool)
  | str (s : String)

def Comparator.methodName : Comparator → String
  | .eq => "eq"
  | .ne => "not_eq"
  | .gt => "gt"
  | .lt => "lt"
  | .ge => "gt_eq"
  | .le => "lt_eq"

def AggFn.fnName : AggFn → String
  | .sum => "sum"
  | .count => "count"
  | .avg => "avg"
  | .min => "min"
  | .max => "max"

section Render

variable {floats : Floats}

/-- The constructor of float literals panics on a value that is not finite. -/
def literalTokens : Literal floats → Option (List (Token floats))
  | .int n => some [.int n]
  | .float f => if floats.isFinite f then some [.float f] else none
  | .bool b => some [.bool b]
  | .str s => some [.str s]

def colTokens (column : String) : List (Token floats) :=
  [.fixed "datafusion::prelude::col(", .str column, .fixed ")"]

def aggTokens (agg : AggExpr) : List (Token floats) :=
  [.fixed "datafusion::functions_aggregate::expr_fn::", .ident agg.func.fnName, .fixed "("] ++
    colTokens agg.column ++ [.fixed ").alias(", .str agg.aliasName, .fixed ")"]

def sortTokens (key : SortKey) : List (Token floats) :=
  colTokens key.column ++ [.fixed ".sort(", .bool key.ascending, .fixed ", false)"]

def separated (terms : List (List (Token floats))) : List (Token floats) :=
  [Token.fixed ","].intercalate terms

/-- The method call of one operation, or a panic. -/
def opTokens : DfOp floats → Option (List (Token floats))
  | .select columns => some ([.fixed ".select(vec!["] ++ separated (columns.map colTokens) ++ [.fixed "])?"])
  | .filter column cmp value => do
    let value ← literalTokens value
    return [.fixed ".filter("] ++ colTokens column ++
      [.fixed ".", .ident cmp.methodName, .fixed "(datafusion::prelude::lit("] ++ value ++ [.fixed ")))?"]
  | .aggregate groupBy aggs =>
    some ([.fixed ".aggregate(vec!["] ++ separated (groupBy.map colTokens) ++ [.fixed "], vec!["] ++
      separated (aggs.map aggTokens) ++ [.fixed "])?"])
  | .sort keys => some ([.fixed ".sort(vec!["] ++ separated (keys.map sortTokens) ++ [.fixed "])?"])
  | .limit n => some [.fixed ".limit(0, Some(", .usize n, .fixed "))?"]

def chainTokens (ops : List (DfOp floats)) : Option (List (Token floats)) := do
  let steps ← ops.mapM opTokens
  return .fixed "df" :: steps.flatten

/-- The transform stage of the generated pipeline. -/
def transformTokens (transform : Option (TransformSpec floats)) (targetStructName : String) :
    Option (List (Token floats)) :=
  match transform with
  | some (.sql sql) =>
    some [.fixed ".sql_transform::<", .ident targetStructName, .fixed ">(&ctx, ", .str sql, .fixed ")"]
  | some (.dataFrame ops) => do
    let chain ← chainTokens ops
    return [.fixed ".dataframe_transform::<", .ident targetStructName, .fixed ">(&ctx, |df| Ok("] ++ chain ++
      [.fixed "))"]
  | none => some []

end Render

variable (floats : Floats)

/-- The texts are refused, or rendered as a chain with one call each. No texts
ask for no chain. -/
def Generates (texts : List String) (target : String) : Prop :=
  (∃ op ∈ texts, parseTransform floats none texts = .error (.invalidTransformDf op)) ∨
  (texts = [] ∧ parseTransform floats none texts = .ok none) ∨
  ∃ ops tokens, parseTransform floats none texts = .ok (some (.dataFrame ops)) ∧ ops.length = texts.length ∧
    transformTokens (some (.dataFrame ops)) target = some tokens

/-- A comparison with the text of its literal. -/
def FilterForm (value text : List Char) : Prop :=
  ∃ column, ∃ cmp : Comparator, ',' ∉ column ∧
    text = "filter:".toList ++ (column ++ ',' :: (cmp.text.toList ++ ',' :: value))

def AggTermForm (term : List Char) : Prop :=
  ∃ func : AggFn, ∃ column label, '=' ∉ column ∧
    term = func.text.toList ++ '(' :: (column ++ ')' :: '=' :: label)

def SortTermForm (term : List Char) : Prop :=
  ∃ column, ∃ direction ∈ ["asc", "desc"], ',' ∉ column ∧ term = column ++ ',' :: direction.toList

/-- The five forms of an operation. -/
inductive OpForm : List Char → Prop
  | select (names) : OpForm ("select:".toList ++ names)
  | filter {value text} (form : FilterForm value text) : OpForm text
  | aggregate {groups terms} (plain : ';' ∉ groups) (forms : ∀ term ∈ terms.splitOn ',', AggTermForm term) :
      OpForm ("aggregate:group=".toList ++ (groups ++ ';' :: terms))
  | sort {terms} (forms : ∀ term ∈ terms.splitOn ';', SortTermForm term) : OpForm ("sort:".toList ++ terms)
  | limit {digits} (number : (Numeral.parseUnsigned 64 digits).isSome = true) : OpForm ("limit:".toList ++ digits)

/-- The text is no integer and is read as a float that is not finite. -/
def NotFinite (value : List Char) : Prop :=
  parseI64 value = none ∧ ∃ f, floats.parse (String.ofList value) = some f ∧ floats.isFinite f = false

theorem parseComparator_eq_some_iff {text : String} {cmp : Comparator} :
    parseComparator text = some cmp ↔ text = cmp.text := by
  constructor
  · intro parsed
    unfold parseComparator at parsed
    split at parsed <;> cases parsed <;> rfl
  · rintro rfl
    exact parseComparator_text cmp

theorem parseAggFn_eq_some_iff {text : String} {func : AggFn} : parseAggFn text = some func ↔ text = func.text := by
  constructor
  · intro parsed
    unfold parseAggFn at parsed
    split at parsed <;> cases parsed <;> rfl
  · rintro rfl
    exact parseAggFn_text func

theorem parseAggTerm_isSome_iff {term : List Char} : (parseAggTerm term).isSome = true ↔ AggTermForm term := by
  constructor
  · intro parsed
    obtain ⟨agg, parsed⟩ := Option.isSome_iff_exists.mp parsed
    simp only [parseAggTerm, Option.bind_eq_bind, Option.bind_eq_some_iff, Text.splitOnce_eq_some_iff,
      Text.stripLast_eq_some_iff, parseAggFn_eq_some_iff, Prod.exists] at parsed
    obtain ⟨outer, label, ⟨rfl, noEquals⟩, funcName, inner, ⟨rfl, _⟩, column, rfl, func, name, _⟩ := parsed
    have plain : '=' ∉ column := by
      intro equals
      exact noEquals (by simp [equals])
    refine ⟨func, column, label, plain, ?_⟩
    rw [← name, String.toList_ofList]
    simp only [List.append_assoc, List.cons_append, List.nil_append]
  · rintro ⟨func, column, label, plain, rfl⟩
    rw [parseAggTerm_written plain]
    rfl

theorem parseSortTerm_isSome_iff {term : List Char} : (parseSortTerm term).isSome = true ↔ SortTermForm term := by
  constructor
  · intro parsed
    obtain ⟨key, parsed⟩ := Option.isSome_iff_exists.mp parsed
    simp only [parseSortTerm, Option.bind_eq_bind, Option.bind_eq_some_iff, Text.splitOnce_eq_some_iff,
      Prod.exists] at parsed
    obtain ⟨column, direction, ⟨rfl, plain⟩, known⟩ := parsed
    refine ⟨column, String.ofList direction, ?_, plain, by rw [String.toList_ofList]⟩
    split at known
    · rename_i ascending
      exact ascending ▸ List.mem_cons_self
    · rename_i descending
      exact descending ▸ List.mem_cons_of_mem _ List.mem_cons_self
    · cases known
  · rintro ⟨column, direction, known, plain, rfl⟩
    simp only [List.mem_cons, List.not_mem_nil, or_false] at known
    rcases known with rfl | rfl
    · have read := @parseSortTerm_text ⟨String.ofList column, true⟩ (by rwa [String.toList_ofList])
      rw [SortKey.text, String.toList_ofList] at read
      exact Option.isSome_of_eq_some read
    · have read := @parseSortTerm_text ⟨String.ofList column, false⟩ (by rwa [String.toList_ofList])
      rw [SortKey.text, String.toList_ofList] at read
      exact Option.isSome_of_eq_some read

section Read

variable {floats}

theorem readDfOp_filterForm {value text : List Char} (form : FilterForm value text) :
    ∃ column cmp, readDfOp floats text = some (.filter column cmp (parseLiteral floats value)) := by
  obtain ⟨column, cmp, plain, rfl⟩ := form
  exact ⟨String.ofList column, cmp, by rw [readDfOp_filter, parseFilter_text plain]⟩

theorem parseFilter_eq_some {rest : List Char} {op : DfOp floats} (parsed : parseFilter floats rest = some op) :
    ∃ column cmp value, ',' ∉ column ∧ rest = column ++ ',' :: (Comparator.text cmp).toList ++ ',' :: value ∧
      op = .filter (String.ofList column) cmp (parseLiteral floats value) := by
  simp only [parseFilter, Option.bind_eq_bind, Option.bind_eq_some_iff, Text.splitOnce_eq_some_iff,
    Prod.exists, parseComparator_eq_some_iff] at parsed
  obtain ⟨column, _, ⟨rfl, plain⟩, cmpText, value, ⟨rfl, _⟩, cmp, known, made⟩ := parsed
  cases made
  refine ⟨column, cmp, value, plain, ?_, rfl⟩
  rw [← known, String.toList_ofList, List.append_assoc, List.cons_append]

theorem parseAggregate_eq_some {rest : List Char} {op : DfOp floats} (parsed : parseAggregate floats rest = some op) :
    ∃ groups terms groupBy aggs, ';' ∉ groups ∧ rest = "group=".toList ++ (groups ++ ';' :: terms) ∧
      (∀ term ∈ terms.splitOn ',', AggTermForm term) ∧ op = .aggregate groupBy aggs := by
  simp only [parseAggregate, Option.bind_eq_bind, Option.bind_eq_some_iff, Text.splitOnce_eq_some_iff,
    Text.stripPrefix_eq_some_iff, Prod.exists] at parsed
  obtain ⟨_, terms, ⟨rfl, plain⟩, groups, rfl, aggs, read, made⟩ := parsed
  cases made
  rw [List.mem_append, not_or] at plain
  refine ⟨groups, terms, _, aggs, plain.2, List.append_assoc _ _ _, ?_, rfl⟩
  intro term member
  exact parseAggTerm_isSome_iff.mp (Fallible.mapM_isSome_iff.mp (Option.isSome_of_eq_some read) term member)

theorem parseSort_eq_some {rest : List Char} {op : DfOp floats} (parsed : parseSort floats rest = some op) :
    ∃ keys, (∀ term ∈ rest.splitOn ';', SortTermForm term) ∧ op = .sort keys := by
  simp only [parseSort, Option.bind_eq_bind, Option.bind_eq_some_iff] at parsed
  obtain ⟨keys, read, made⟩ := parsed
  cases made
  refine ⟨keys, ?_, rfl⟩
  intro term member
  exact parseSortTerm_isSome_iff.mp (Fallible.mapM_isSome_iff.mp (Option.isSome_of_eq_some read) term member)

/-- What each kind of text is read as. -/
theorem readDfOp_cases {text : List Char} {op : DfOp floats} (read : readDfOp floats text = some op) :
    (∃ names, text = "select:".toList ++ names ∧ op = .select (splitNames ',' names)) ∨
    (∃ column cmp value, FilterForm value text ∧ op = .filter column cmp (parseLiteral floats value)) ∨
    (∃ groups terms groupBy aggs, text = "aggregate:group=".toList ++ (groups ++ ';' :: terms) ∧ ';' ∉ groups ∧
      (∀ term ∈ terms.splitOn ',', AggTermForm term) ∧ op = .aggregate groupBy aggs) ∨
    (∃ terms keys, text = "sort:".toList ++ terms ∧ (∀ term ∈ terms.splitOn ';', SortTermForm term) ∧
      op = .sort keys) ∨
    (∃ digits n, text = "limit:".toList ++ digits ∧ (Numeral.parseUnsigned 64 digits).isSome = true ∧
      op = .limit n) := by
  simp only [readDfOp, Option.bind_eq_bind, Option.bind_eq_some_iff, Text.splitOnce_eq_some_iff,
    Prod.exists] at read
  obtain ⟨kind, rest, ⟨rfl, _⟩, read⟩ := read
  have named : ∀ {name : String}, String.ofList kind = name → kind = name.toList := by
    rintro name rfl
    rw [String.toList_ofList]
  split at read
  · rename_i select
    cases read
    exact .inl ⟨rest, by rw [named select]; rfl, rfl⟩
  · rename_i filter
    obtain ⟨column, cmp, value, plain, rfl, rfl⟩ := parseFilter_eq_some read
    refine .inr (.inl ⟨_, cmp, value, ⟨column, cmp, plain, ?_⟩, rfl⟩)
    rw [named filter, List.append_assoc]
    rfl
  · rename_i aggregate
    obtain ⟨groups, terms, groupBy, aggs, plain, rfl, forms, rfl⟩ := parseAggregate_eq_some read
    exact .inr (.inr (.inl ⟨groups, terms, groupBy, aggs, by rw [named aggregate]; rfl, plain, forms, rfl⟩))
  · rename_i sort
    obtain ⟨keys, forms, rfl⟩ := parseSort_eq_some read
    exact .inr (.inr (.inr (.inl ⟨rest, keys, by rw [named sort]; rfl, forms, rfl⟩)))
  · rename_i limit
    obtain ⟨n, number, rfl⟩ := Option.map_eq_some_iff.mp read
    refine .inr (.inr (.inr (.inr ⟨rest, n, by rw [named limit]; rfl, ?_, rfl⟩)))
    rw [← Option.isSome_map]
    exact Option.isSome_of_eq_some number
  · cases read

theorem readDfOp_isSome_iff {text : List Char} : (readDfOp floats text).isSome = true ↔ OpForm text := by
  constructor
  · intro read
    obtain ⟨op, read⟩ := Option.isSome_iff_exists.mp read
    rcases readDfOp_cases read with ⟨names, rfl, _⟩ | ⟨_, _, _, form, _⟩ | ⟨groups, terms, _, _, rfl, plain, forms, _⟩ |
      ⟨terms, _, rfl, forms, _⟩ | ⟨digits, _, rfl, number, _⟩
    · exact .select names
    · exact .filter form
    · exact .aggregate plain forms
    · exact .sort forms
    · exact .limit number
  · intro form
    cases form with
    | select names => rw [readDfOp_select, Option.isSome_some]
    | filter form =>
      obtain ⟨_, _, read⟩ := @readDfOp_filterForm floats _ _ form
      exact Option.isSome_of_eq_some read
    | @aggregate groups terms plain forms =>
      have outer : ';' ∉ "group=".toList ++ groups := by
        rw [List.mem_append, not_or]
        exact ⟨by decide, plain⟩
      have parsed := Fallible.mapM_isSome_iff.mpr fun term member => parseAggTerm_isSome_iff.mpr (forms term member)
      obtain ⟨aggs, parsed⟩ := Option.isSome_iff_exists.mp parsed
      have read := @readDfOp_aggregate floats ("group=".toList ++ groups ++ ';' :: terms)
      rw [parseAggregate, Text.splitOnce_append outer] at read
      simp only [Option.bind_eq_bind, Option.bind_some] at read
      rw [Text.stripPrefix_eq_some_iff.mpr rfl, parsed, List.append_assoc] at read
      exact Option.isSome_of_eq_some read
    | @sort terms forms =>
      have parsed := Fallible.mapM_isSome_iff.mpr fun term member => parseSortTerm_isSome_iff.mpr (forms term member)
      obtain ⟨keys, parsed⟩ := Option.isSome_iff_exists.mp parsed
      rw [readDfOp_sort, parseSort, parsed]
      rfl
    | @limit digits number => rw [readDfOp_limit, Option.isSome_map, parseUsize, Option.isSome_map, number]

theorem literalTokens_isSome_iff {value : List Char} :
    (literalTokens (parseLiteral floats value)).isSome = true ↔ ¬ NotFinite floats value := by
  unfold parseLiteral NotFinite
  cases integer : parseI64 value with
  | some n => simp [literalTokens]
  | none =>
    cases real : floats.parse (String.ofList value) with
    | some f => cases finite : floats.isFinite f <;> simp [literalTokens, finite]
    | none => cases parseBool (String.ofList value) <;> simp [literalTokens]

/-- A read operation has its call, unless it compares with a float that is not
finite. -/
theorem opTokens_isSome_iff {text : List Char} {op : DfOp floats} (read : readDfOp floats text = some op) :
    (opTokens op).isSome = true ↔ ∀ value, FilterForm value text → ¬ NotFinite floats value := by
  have filter : ∀ column cmp literal, (opTokens (.filter column cmp literal)).isSome =
      (@literalTokens floats literal).isSome := by
    intro column cmp literal
    rw [opTokens]
    cases literalTokens literal <;> rfl
  constructor
  · intro rendered value form
    obtain ⟨column, cmp, same⟩ := @readDfOp_filterForm floats _ _ form
    rw [read] at same
    cases same
    rw [filter] at rendered
    exact literalTokens_isSome_iff.mp rendered
  · intro finite
    rcases readDfOp_cases read with ⟨_, _, rfl⟩ | ⟨column, cmp, value, form, rfl⟩ | ⟨_, _, _, _, _, _, _, rfl⟩ |
      ⟨_, _, _, _, rfl⟩ | ⟨_, _, _, _, rfl⟩
    · rfl
    · rw [filter]
      exact literalTokens_isSome_iff.mpr (finite value form)
    · rfl
    · rfl
    · rfl

theorem transformTokens_isSome_iff {ops : List (DfOp floats)} {target : String} :
    (transformTokens (some (.dataFrame ops)) target).isSome = true ↔ ∀ op ∈ ops, (opTokens op).isSome = true := by
  rw [← Fallible.mapM_isSome_iff, transformTokens, chainTokens]
  cases ops.mapM opTokens <;> rfl

end Read

theorem parseDfOp_ok_iff {text : String} {op : DfOp floats} :
    parseDfOp floats text = .ok op ↔ readDfOp floats text.toList = some op := by
  unfold parseDfOp
  cases readDfOp floats text.toList <;> simp

theorem parseDfOp_error {text : String} {failure : CliError} (failed : parseDfOp floats text = .error failure) :
    failure = .invalidTransformDf text ∧ ¬ OpForm text.toList := by
  unfold parseDfOp at failed
  split at failed
  · cases failed
  · rename_i unread
    cases failed
    refine ⟨rfl, fun form => ?_⟩
    rw [← @readDfOp_isSome_iff floats, unread] at form
    cases form

theorem parseTransform_of_texts {texts : List String} (nonempty : texts ≠ []) :
    parseTransform floats none texts =
      (texts.mapM (parseDfOp floats)).bind fun ops => .ok (some (.dataFrame ops)) := by
  cases texts with
  | nil => exact absurd rfl nonempty
  | cons text rest => rfl

theorem generates_of_ok {texts : List String} {target : String} {ops : List (DfOp floats)} (nonempty : texts ≠ [])
    (read : texts.mapM (parseDfOp floats) = .ok ops) :
    Generates floats texts target ↔ ∀ op ∈ ops, (opTokens op).isSome = true := by
  have parsed : parseTransform floats none texts = .ok (some (.dataFrame ops)) := by
    rw [parseTransform_of_texts floats nonempty, read]
    rfl
  have count := (Fallible.mapM_ok_iff.mp read).length_eq
  rw [← @transformTokens_isSome_iff floats ops target, Option.isSome_iff_exists]
  constructor
  · rintro (⟨op, _, failed⟩ | ⟨empty, _⟩ | ⟨others, tokens, same, _, rendered⟩)
    · rw [parsed] at failed
      cases failed
    · exact absurd empty nonempty
    · rw [parsed] at same
      cases same
      exact ⟨tokens, rendered⟩
  · rintro ⟨tokens, rendered⟩
    exact .inr (.inr ⟨ops, tokens, parsed, count.symm, rendered⟩)

/-- Every list of texts is refused or rendered, but for those that compare with
a float that is not finite. A literal has tokens when it is no such float. -/
theorem generates_iff (texts : List String) (target : String) (literal : List Char) :
    (Generates floats texts target ↔ (∃ text ∈ texts, ¬ OpForm text.toList) ∨
      ∀ text ∈ texts, ∀ value, FilterForm value text.toList → ¬ NotFinite floats value) ∧
    ((literalTokens (parseLiteral floats literal)).isSome = true ↔ ¬ NotFinite floats literal) := by
  refine ⟨?_, literalTokens_isSome_iff⟩
  by_cases empty : texts = []
  · subst empty
    exact iff_of_true (.inr (.inl ⟨rfl, rfl⟩)) (.inr fun _ member => absurd member List.not_mem_nil)
  · cases read : texts.mapM (parseDfOp floats) with
    | error failure =>
      obtain ⟨text, member, failed⟩ := Fallible.mapM_error read
      obtain ⟨rfl, unread⟩ := parseDfOp_error floats failed
      have refused : parseTransform floats none texts = .error (.invalidTransformDf text) := by
        rw [parseTransform_of_texts floats empty, read]
        rfl
      exact iff_of_true (.inl ⟨text, member, refused⟩) (.inl ⟨text, member, unread⟩)
    | ok ops =>
      have pairs := Fallible.mapM_ok_iff.mp read
      have accepted : ∀ text ∈ texts, OpForm text.toList := by
        refine (Fallible.forall_transfer (Q := fun _ => True) pairs ?_).mp fun _ _ => trivial
        intro text op done
        have form := readDfOp_isSome_iff.mp (Option.isSome_of_eq_some ((parseDfOp_ok_iff floats).mp done))
        exact iff_of_true trivial form
      rw [generates_of_ok floats empty read, Fallible.forall_transfer pairs fun text op done =>
        opTokens_isSome_iff ((parseDfOp_ok_iff floats).mp done)]
      constructor
      · exact .inr
      · rintro (⟨text, member, unread⟩ | finite)
        · exact absurd (accepted text member) unread
        · exact finite

/-- `nan` is accepted as a number and has no token. -/
theorem nan_not_rendered : ¬ Generates exampleFloats ["filter:price,gt,nan"] "Target" := by
  have read : ["filter:price,gt,nan"].mapM (parseDfOp exampleFloats) = .ok [.filter "price" .gt (.float none)] := rfl
  rw [generates_of_ok exampleFloats (List.cons_ne_nil _ _) read]
  intro rendered
  have call := rendered _ List.mem_cons_self
  cases call

end Datacrate.Scaffold
