import Datacrate.Contracts.Differences

namespace Datacrate.Contracts

/-- What a policy asks of the fields of two structs, and which pairs of
fields it goes on to compare. -/
structure FieldPolicy where
  rule : List FieldShape → List FieldShape → Prop
  matched : List FieldShape → List FieldShape → FieldShape → FieldShape → Prop

/-- Shapes that agree up to what a policy forgives in the fields of a struct,
at every nesting level. -/
inductive Fits (fields : FieldPolicy) : TypeShape → TypeShape → Prop
  | primitive (name : String) : Fits fields (.primitive name) (.primitive name)
  | optional {p c : TypeShape} : Fits fields p c → Fits fields (.optional p) (.optional c)
  | sequence {p c : TypeShape} : Fits fields p c → Fits fields (.sequence p) (.sequence c)
  | map {pk pv ck cv : TypeShape} : Fits fields pk ck → Fits fields pv cv →
      Fits fields (.map pk pv) (.map ck cv)
  | struct {producer contract : List FieldShape} : fields.rule producer contract →
      (∀ p c, fields.matched producer contract p c → Fits fields p.shape c.shape) →
      Fits fields (.struct producer) (.struct contract)

def fieldKeys (ci : Bool) (fields : List FieldShape) : List (List UInt8) :=
  fields.map (·.key ci)

/-- The same set of distinct names modulo ASCII case, compared by name. -/
def unorderedPolicy : FieldPolicy where
  rule producer contract :=
    UniqueNames true producer ∧ UniqueNames true contract ∧
      ∀ key, key ∈ fieldKeys true producer ↔ key ∈ fieldKeys true contract
  matched := KeyedList.Paired (·.key true)

/-- The same names in the same order, compared by index. -/
def orderedPolicy (ci : Bool) : FieldPolicy where
  rule producer contract := fieldKeys ci producer = fieldKeys ci contract
  matched := KeyedList.Aligned

def positionPolicy : FieldPolicy where
  rule producer contract := producer.length = contract.length
  matched := KeyedList.Aligned

/-- Distinct names on each side; a contract field absent from the producer
is optional or has a default. -/
def backwardPolicy : FieldPolicy where
  rule producer contract :=
    UniqueNames false producer ∧ UniqueNames false contract ∧
      ∀ c ∈ contract, c.key false ∉ fieldKeys false producer →
        isOptional c.shape = true ∨ c.hasDefault = true
  matched := KeyedList.Paired (·.key false)

/-- Distinct names on each side; every producer field is in the contract. -/
def forwardPolicy : FieldPolicy where
  rule producer contract :=
    UniqueNames false producer ∧ UniqueNames false contract ∧
      ∀ p ∈ producer, p.key false ∈ fieldKeys false contract
  matched := KeyedList.Paired (·.key false)

/-- No demand at all. `Full` never reaches it. -/
def anyPolicy : FieldPolicy where
  rule _ _ := True
  matched _ _ _ _ := False

def SchemaPolicy.fields : SchemaPolicy → FieldPolicy
  | .exact | .exactUnorderedCI => unorderedPolicy
  | .exactOrdered => orderedPolicy false
  | .exactOrderedCI => orderedPolicy true
  | .exactByPosition => positionPolicy
  | .backward => backwardPolicy
  | .forward => forwardPolicy
  | .full => anyPolicy

/-- The documented relation: everything under `Full`; two structs by the
policy's relation; any other pair by equality up to contract defaults. -/
def ConformsTo (policy : SchemaPolicy) (producer contract : TypeShape) : Prop :=
  policy = .full ∨
    match producer, contract with
    | .struct producerFields, .struct contractFields =>
      Fits policy.fields (.struct producerFields) (.struct contractFields)
    | producer, contract => producer.eraseDefaults = contract.eraseDefaults

def Tolerated (policy : SchemaPolicy) (diffs : List Diff) : Prop :=
  ∀ diff ∈ diffs, rejects diff policy = false

@[simp]
theorem tolerated_nil {policy : SchemaPolicy} : Tolerated policy [] := by
  simp [Tolerated]

@[simp]
theorem tolerated_append {policy : SchemaPolicy} {xs ys : List Diff} :
    Tolerated policy (xs ++ ys) ↔ Tolerated policy xs ∧ Tolerated policy ys := by
  simp only [Tolerated, List.forall_mem_append]

@[simp]
theorem tolerated_singleton {policy : SchemaPolicy} {diff : Diff} :
    Tolerated policy [diff] ↔ rejects diff policy = false := by
  simp only [Tolerated, List.forall_mem_singleton]

theorem tolerated_flatMap {α : Type} {policy : SchemaPolicy} {xs : List α} {emit : α → List Diff} :
    Tolerated policy (xs.flatMap emit) ↔ ∀ x ∈ xs, Tolerated policy (emit x) := by
  simp only [Tolerated, List.mem_flatMap]
  exact ⟨fun all x member diff inside => all diff ⟨x, member, inside⟩,
    fun all diff ⟨x, member, inside⟩ => all x member diff inside⟩

@[simp]
theorem rejects_mismatch {policy : SchemaPolicy} (strict : policy ≠ .full) (path : Path)
    (expected found : String) : rejects (mismatchDiffLabeled path expected found) policy = true := by
  cases policy <;> first | rfl | exact absurd rfl strict

/-- Whether a policy forgives a contract field the producer lacks. -/
def ForgivesMissing (policy : SchemaPolicy) (c : FieldShape) : Prop :=
  policy = .full ∨ policy = .forward ∨
    policy = .backward ∧ (isOptional c.shape = true ∨ c.hasDefault = true)

/-- Whether a policy forgives a producer field the contract lacks. -/
def ForgivesExtra (policy : SchemaPolicy) : Prop :=
  policy = .full ∨ policy = .backward

theorem rejects_missing {policy : SchemaPolicy} {path : Path} {c : FieldShape} :
    rejects (missingDiff path (isOptional c.shape) c.hasDefault) policy = false ↔
      ForgivesMissing policy c := by
  cases policy with
  | backward => cases optional : isOptional c.shape <;> simp [rejects, missingDiff, ForgivesMissing, optional]
  | _ => simp [rejects, missingDiff, ForgivesMissing]

theorem rejects_extra {policy : SchemaPolicy} {path : Path} :
    rejects (extraDiff path) policy = false ↔ ForgivesExtra policy := by
  cases policy <;> simp [rejects, extraDiff, ForgivesExtra]

section Levels

variable {policy : SchemaPolicy} {mode : Mode}

/-- The comparison against this contract shape tolerates exactly what the
relation holds of, at any path. -/
def Decides (policy : SchemaPolicy) (mode : Mode) (contract : TypeShape) : Prop :=
  ∀ producer path depth, Tolerated policy (shapeDiffs mode producer contract path depth) ↔
    Fits policy.fields producer contract

theorem tolerated_nameDiffs_iff (strict : policy ≠ .full) (producer : List FieldShape) {contract : List FieldShape}
    (decides : ∀ c ∈ contract, Decides policy mode c.shape) (path : Path) (depth : Nat) :
    Tolerated policy (nameDiffs mode producer contract path depth) ↔
      (UniqueNames mode.ci producer ∧ UniqueNames mode.ci contract ∧
        (∀ c ∈ contract, c.key mode.ci ∉ fieldKeys mode.ci producer → ForgivesMissing policy c) ∧
        ∀ p ∈ producer, p.key mode.ci ∉ fieldKeys mode.ci contract → ForgivesExtra policy) ∧
      ∀ p c, KeyedList.Paired (·.key mode.ci) producer contract p c →
        Fits policy.fields p.shape c.shape := by
  by_cases producerUnique : UniqueNames mode.ci producer
  swap
  · rw [← duplicateFieldName_eq_none_iff, ← ne_eq, Option.ne_none_iff_exists'] at producerUnique
    obtain ⟨name, found⟩ := producerUnique
    have repeated : ¬ UniqueNames mode.ci producer := by
      simp [← duplicateFieldName_eq_none_iff, found]
    simp [nameDiffs, found, strict, repeated]
  by_cases contractUnique : UniqueNames mode.ci contract
  swap
  · rw [← duplicateFieldName_eq_none_iff, ← ne_eq, Option.ne_none_iff_exists'] at contractUnique
    obtain ⟨name, found⟩ := contractUnique
    have repeated : ¬ UniqueNames mode.ci contract := by
      simp [← duplicateFieldName_eq_none_iff, found]
    simp [nameDiffs, duplicateFieldName_eq_none_iff.mpr producerUnique, found, strict, repeated]
  have contractSide : ∀ c ∈ contract, Tolerated policy (contractFieldDiffs mode producer path depth c) ↔
      (c.key mode.ci ∉ fieldKeys mode.ci producer → ForgivesMissing policy c) ∧
      ∀ p ∈ producer, p.key mode.ci = c.key mode.ci → Fits policy.fields p.shape c.shape := by
    intro c member
    unfold contractFieldDiffs
    cases found : findFieldMode producer c.name mode.ci with
    | none =>
      have absent : c.key mode.ci ∉ fieldKeys mode.ci producer := findFieldMode_eq_none_iff.mp found
      simp only [tolerated_singleton, rejects_missing, absent, not_false_eq_true, true_implies]
      refine ⟨fun forgiven => ⟨forgiven, fun p inside same => ?_⟩, And.left⟩
      exact absurd (List.mem_map.mpr ⟨p, inside, same⟩) absent
    | some p =>
      obtain ⟨inside, same⟩ := (findFieldMode_eq_some_iff producerUnique).mp found
      have present : c.key mode.ci ∈ fieldKeys mode.ci producer := List.mem_map.mpr ⟨p, inside, same⟩
      simp only [decides c member p.shape, present, not_true_eq_false, false_implies, true_and]
      refine ⟨fun fits other otherInside otherSame => ?_, fun all => all p inside same⟩
      rw [KeyedList.eq_of_key_eq producerUnique otherInside inside (otherSame.trans same.symm)]
      exact fits
  have producerSide : ∀ p ∈ producer, Tolerated policy (producerFieldDiffs mode contract path depth p) ↔
      (p.key mode.ci ∉ fieldKeys mode.ci contract → ForgivesExtra policy) := by
    intro p _
    unfold producerFieldDiffs
    have absent : (findFieldMode contract p.name mode.ci).isNone = true ↔
        p.key mode.ci ∉ fieldKeys mode.ci contract := by
      rw [Option.isNone_iff_eq_none]
      exact findFieldMode_eq_none_iff
    by_cases known : p.key mode.ci ∈ fieldKeys mode.ci contract
    · simp [absent, known]
    · simp [absent, known, rejects_extra]
  simp only [nameDiffs, duplicateFieldName_eq_none_iff.mpr producerUnique,
    duplicateFieldName_eq_none_iff.mpr contractUnique, tolerated_append, tolerated_flatMap]
  constructor
  · rintro ⟨onContract, onProducer⟩
    refine ⟨⟨producerUnique, contractUnique, fun c member => ((contractSide c member).mp
      (onContract c member)).1, fun p member => (producerSide p member).mp (onProducer p member)⟩, ?_⟩
    rintro p c ⟨pMem, cMem, same⟩
    exact ((contractSide c cMem).mp (onContract c cMem)).2 p pMem same
  · rintro ⟨⟨_, _, missing, extra⟩, parts⟩
    refine ⟨fun c member => (contractSide c member).mpr ⟨missing c member, fun p inside same =>
      parts p c ⟨inside, member, same⟩⟩, fun p member => (producerSide p member).mpr (extra p member)⟩

/-- A policy that forgives no unmatched field on either side. -/
def Unforgiving (policy : SchemaPolicy) : Prop :=
  policy ≠ .full ∧ policy ≠ .backward ∧ policy ≠ .forward

theorem Unforgiving.not_missing (unforgiving : Unforgiving policy) (c : FieldShape) :
    ¬ ForgivesMissing policy c := by
  rintro (full | forward | ⟨backward, _⟩)
  · exact unforgiving.1 full
  · exact unforgiving.2.2 forward
  · exact unforgiving.2.1 backward

theorem Unforgiving.not_extra (unforgiving : Unforgiving policy) : ¬ ForgivesExtra policy := by
  rintro (full | backward)
  · exact unforgiving.1 full
  · exact unforgiving.2.1 backward

theorem tolerated_trailingDiffs_iff (unforgiving : Unforgiving policy) (producer contract : List FieldShape)
    (path : Path) (depth : Nat) :
    Tolerated policy (trailingDiffs producer contract path depth) ↔ producer = [] ∧ contract = [] := by
  have contractSide : Tolerated policy (contract.map fun c => missingDiff (appendSegment path depth c.name).1
      (isOptional c.shape) c.hasDefault) ↔ contract = [] := by
    cases contract <;> simp [Tolerated, rejects_missing, unforgiving.not_missing]
  have producerSide : Tolerated policy (producer.map fun p => extraDiff (appendSegment path depth p.name).1) ↔
      producer = [] := by
    cases producer <;> simp [Tolerated, rejects_extra, unforgiving.not_extra]
  rw [trailingDiffs, tolerated_append, contractSide, producerSide, and_comm]

theorem tolerated_orderedDiffs_iff (unforgiving : Unforgiving policy) {producer contract : List FieldShape}
    (decides : ∀ c ∈ contract, Decides policy mode c.shape) (path : Path) (depth : Nat) :
    Tolerated policy (orderedDiffs mode path depth producer contract) ↔
      fieldKeys mode.ci producer = fieldKeys mode.ci contract ∧
      ∀ p c, KeyedList.Aligned producer contract p c → Fits policy.fields p.shape c.shape := by
  induction contract generalizing producer with
  | nil =>
    have trailing := tolerated_trailingDiffs_iff unforgiving producer [] path depth
    cases producer with
    | nil => simp [orderedDiffs, trailing, KeyedList.not_aligned_nil_left]
    | cons p producer => simp [orderedDiffs, trailing, fieldKeys]
  | cons c contract ih =>
    rw [List.forall_mem_cons] at decides
    cases producer with
    | nil =>
      have trailing := tolerated_trailingDiffs_iff unforgiving [] (c :: contract) path depth
      simp [orderedDiffs, trailing, fieldKeys]
    | cons p producer =>
      have nameSide : Tolerated policy (if !namesMatch mode.ci p.name c.name then
          [mismatchDiffLabeled (appendSegment (appendSegment path depth c.name).1
            (appendSegment path depth c.name).2 "(name)").1 c.name p.name] else []) ↔
          p.key mode.ci = c.key mode.ci := by
        rw [FieldShape.key, FieldShape.key, ← namesMatch_iff]
        cases namesMatch mode.ci p.name c.name <;> simp [unforgiving.1]
      simp only [orderedDiffs, orderedPairDiffs, tolerated_append, nameSide, decides.1 p.shape,
        ih decides.2, KeyedList.aligned_cons_iff, fieldKeys, List.map_cons, List.cons.injEq]
      constructor
      · rintro ⟨⟨sameName, fits⟩, sameRest, rest⟩
        refine ⟨⟨sameName, sameRest⟩, ?_⟩
        rintro p' c' (⟨rfl, rfl⟩ | later)
        · exact fits
        · exact rest p' c' later
      · rintro ⟨⟨sameName, sameRest⟩, parts⟩
        exact ⟨⟨sameName, parts p c (Or.inl ⟨rfl, rfl⟩)⟩, sameRest, fun p' c' later => parts p' c' (Or.inr later)⟩

theorem tolerated_positionDiffs_iff (unforgiving : Unforgiving policy) {producer contract : List FieldShape}
    (decides : ∀ c ∈ contract, Decides policy mode c.shape) (path : Path) (depth : Nat) :
    Tolerated policy (positionDiffs mode path depth producer contract) ↔
      producer.length = contract.length ∧
      ∀ p c, KeyedList.Aligned producer contract p c → Fits policy.fields p.shape c.shape := by
  induction contract generalizing producer with
  | nil =>
    have trailing := tolerated_trailingDiffs_iff unforgiving producer [] path depth
    cases producer with
    | nil => simp [positionDiffs, trailing, KeyedList.not_aligned_nil_left]
    | cons p producer => simp [positionDiffs, trailing]
  | cons c contract ih =>
    rw [List.forall_mem_cons] at decides
    cases producer with
    | nil =>
      have trailing := tolerated_trailingDiffs_iff unforgiving [] (c :: contract) path depth
      simp [positionDiffs, trailing]
    | cons p producer =>
      simp only [positionDiffs, tolerated_append, decides.1 p.shape, ih decides.2,
        KeyedList.aligned_cons_iff, List.length_cons, Nat.add_right_cancel_iff]
      constructor
      · rintro ⟨fits, sameLength, rest⟩
        refine ⟨sameLength, ?_⟩
        rintro p' c' (⟨rfl, rfl⟩ | later)
        · exact fits
        · exact rest p' c' later
      · rintro ⟨sameLength, parts⟩
        exact ⟨parts p c (Or.inl ⟨rfl, rfl⟩), sameLength, fun p' c' later => parts p' c' (Or.inr later)⟩

end Levels

/-- Two structs, under the policy's own traversal mode. -/
theorem tolerated_fieldDiffs_iff {policy : SchemaPolicy} (strict : policy ≠ .full)
    {producer contract : List FieldShape}
    (decides : ∀ c ∈ contract, Decides policy (policyMode policy) c.shape) (path : Path) (depth : Nat) :
    Tolerated policy (fieldDiffs (policyMode policy) producer contract path depth) ↔
      Fits policy.fields (.struct producer) (.struct contract) := by
  have byName := tolerated_nameDiffs_iff strict producer decides path depth
  have structs : Fits policy.fields (.struct producer) (.struct contract) ↔
      policy.fields.rule producer contract ∧
      ∀ p c, policy.fields.matched producer contract p c → Fits policy.fields p.shape c.shape := by
    refine ⟨fun fits => ?_, fun ⟨rule, parts⟩ => .struct rule parts⟩
    cases fits with
    | struct rule parts => exact ⟨rule, parts⟩
  have sameKeys : ∀ ci, ((∀ c ∈ contract, c.key ci ∈ fieldKeys ci producer) ∧
      (∀ p ∈ producer, p.key ci ∈ fieldKeys ci contract)) ↔
      ∀ key, key ∈ fieldKeys ci producer ↔ key ∈ fieldKeys ci contract := by
    intro ci
    simp only [fieldKeys, List.mem_map]
    constructor
    · rintro ⟨left, right⟩ key
      exact ⟨fun ⟨p, member, atKey⟩ => atKey ▸ right p member, fun ⟨c, member, atKey⟩ => atKey ▸ left c member⟩
    · intro same
      exact ⟨fun c member => (same _).mpr ⟨c, member, rfl⟩, fun p member => (same _).mp ⟨p, member, rfl⟩⟩
  rw [structs]
  cases policy with
  | full => exact absurd rfl strict
  | exactOrdered =>
    exact tolerated_orderedDiffs_iff (by simp [Unforgiving]) decides path depth
  | exactOrderedCI =>
    exact tolerated_orderedDiffs_iff (by simp [Unforgiving]) decides path depth
  | exactByPosition =>
    exact tolerated_positionDiffs_iff (by simp [Unforgiving]) decides path depth
  | exact | exactUnorderedCI =>
    refine byName.trans (and_congr_left fun _ => ?_)
    simp only [SchemaPolicy.fields, unorderedPolicy, policyMode, ← sameKeys, ForgivesMissing, ForgivesExtra,
      reduceCtorEq, false_or, false_and, not_not, imp_false]
  | backward =>
    refine byName.trans (and_congr_left fun _ => ?_)
    simp [SchemaPolicy.fields, backwardPolicy, policyMode, ForgivesMissing, ForgivesExtra]
  | forward =>
    refine byName.trans (and_congr_left fun _ => ?_)
    simp [SchemaPolicy.fields, forwardPolicy, policyMode, ForgivesMissing, ForgivesExtra]

theorem Fits.sameKind {fields : FieldPolicy} {producer contract : TypeShape}
    (fits : Fits fields producer contract) : sameKind producer contract = true := by
  cases fits <;> rfl

theorem decides_of_kind_ne {policy : SchemaPolicy} (strict : policy ≠ .full) {producer contract : TypeShape}
    (apart : sameKind producer contract = false) {mode : Mode} (path : Path) (depth : Nat) :
    Tolerated policy (shapeDiffs mode producer contract path depth) ↔ Fits policy.fields producer contract := by
  rw [shapeDiffs_of_kind_ne apart, tolerated_singleton, rejects_mismatch strict]
  refine ⟨fun tolerated => absurd tolerated Bool.noConfusion, fun fits => ?_⟩
  exact absurd (fits.sameKind.symm.trans apart) Bool.noConfusion

/-- Induction over the contract; the struct case is the policy's field rule. -/
theorem policy_decides {policy : SchemaPolicy} (strict : policy ≠ .full) (contract : TypeShape) :
    Decides policy (policyMode policy) contract := by
  induction contract using TypeShape.induction with
  | primitive name =>
    intro producer path depth
    cases producer with
    | primitive other =>
      have same : Fits policy.fields (.primitive other) (.primitive name) ↔ other = name :=
        ⟨fun fits => by cases fits; rfl, fun equal => equal ▸ .primitive other⟩
      rw [same, ← strEq_iff, shapeDiffs, walkShapes]
      cases strEq other name <;> simp [strict]
    | _ => exact decides_of_kind_ne strict rfl path depth
  | optional inner ih =>
    intro producer path depth
    cases producer with
    | optional other =>
      have parts : Fits policy.fields (.optional other) (.optional inner) ↔ Fits policy.fields other inner :=
        ⟨fun fits => by cases fits; assumption, .optional⟩
      rw [parts, ← ih other path depth, shapeDiffs, walkShapes, shapeDiffs]
    | _ => exact decides_of_kind_ne strict rfl path depth
  | sequence inner ih =>
    intro producer path depth
    cases producer with
    | sequence other =>
      have parts : Fits policy.fields (.sequence other) (.sequence inner) ↔ Fits policy.fields other inner :=
        ⟨fun fits => by cases fits; assumption, .sequence⟩
      rw [parts, ← ih other _ _, shapeDiffs, walkShapes, shapeDiffs]
    | _ => exact decides_of_kind_ne strict rfl path depth
  | map key value keyIh valueIh =>
    intro producer path depth
    cases producer with
    | map otherKey otherValue =>
      have parts : Fits policy.fields (.map otherKey otherValue) (.map key value) ↔
          Fits policy.fields otherKey key ∧ Fits policy.fields otherValue value :=
        ⟨fun fits => by cases fits; exact ⟨by assumption, by assumption⟩, fun parts => .map parts.1 parts.2⟩
      rw [parts, shapeDiffs_map, tolerated_append, keyIh, valueIh]
    | _ => exact decides_of_kind_ne strict rfl path depth
  | struct fields ih =>
    intro producer path depth
    cases producer with
    | struct others =>
      rw [shapeDiffs_struct]
      exact tolerated_fieldDiffs_iff strict ih path depth
    | _ => exact decides_of_kind_ne strict rfl path depth

/-- The verdict of the comparison is the documented relation. -/
theorem conforms_iff_conformsTo (producer contract : TypeShape) (policy : SchemaPolicy) :
    conforms producer contract policy = true ↔ ConformsTo policy producer contract := by
  rw [conforms_iff_tolerated]
  change Tolerated policy _ ↔ _
  by_cases full : policy = .full
  · subst full
    exact iff_of_true (fun _ _ => rfl) (Or.inl rfl)
  · unfold ConformsTo
    rw [or_iff_right full]
    split
    · exact tolerated_fieldDiffs_iff full (fun c _ => policy_decides full c.shape) emptyPath 0
    · rename_i bare
      rw [rootDiffs_of_not_structs bare, ← shapeEq_iff]
      cases shapeEq producer contract <;> simp [full]

end Datacrate.Contracts
