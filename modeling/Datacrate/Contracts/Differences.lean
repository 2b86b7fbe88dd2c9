import Datacrate.Contracts.Compare

namespace Datacrate.Contracts

/-- Every difference between two shapes, in traversal order, tolerated or
not: the traversal into a growing list. -/
def shapeDiffs (mode : Mode) (producer contract : TypeShape) (path : Path) (depth : Nat) : List Diff :=
  walkShapes (fun diffs diff => diffs ++ [diff]) (fun _ _ => true) mode producer contract path depth []

def trailingDiffs (producer contract : List FieldShape) (path : Path) (depth : Nat) : List Diff :=
  contract.map (fun c =>
    missingDiff (appendSegment path depth c.name).1 (isOptional c.shape) c.hasDefault) ++
  producer.map (fun p => extraDiff (appendSegment path depth p.name).1)

def orderedPairDiffs (mode : Mode) (path : Path) (depth : Nat) (p c : FieldShape) : List Diff :=
  let (fieldPath, fieldDepth) := appendSegment path depth c.name
  (if !namesMatch mode.ci p.name c.name then
    [mismatchDiffLabeled (appendSegment fieldPath fieldDepth "(name)").1 c.name p.name]
  else []) ++ shapeDiffs mode p.shape c.shape fieldPath fieldDepth

def orderedDiffs (mode : Mode) (path : Path) (depth : Nat) : List FieldShape → List FieldShape → List Diff
  | p :: producer, c :: contract =>
    orderedPairDiffs mode path depth p c ++ orderedDiffs mode path depth producer contract
  | producer, contract => trailingDiffs producer contract path depth

def positionDiffs (mode : Mode) (path : Path) (depth : Nat) : List FieldShape → List FieldShape → List Diff
  | p :: producer, c :: contract =>
    let (fieldPath, fieldDepth) := appendSegment path depth p.name
    shapeDiffs mode p.shape c.shape fieldPath fieldDepth ++ positionDiffs mode path depth producer contract
  | producer, contract => trailingDiffs producer contract path depth

def contractFieldDiffs (mode : Mode) (producer : List FieldShape) (path : Path) (depth : Nat)
    (c : FieldShape) : List Diff :=
  match findFieldMode producer c.name mode.ci with
  | some p =>
    let (fieldPath, fieldDepth) := appendSegment path depth c.name
    shapeDiffs mode p.shape c.shape fieldPath fieldDepth
  | none => [missingDiff (appendSegment path depth c.name).1 (isOptional c.shape) c.hasDefault]

def producerFieldDiffs (mode : Mode) (contract : List FieldShape) (path : Path) (depth : Nat)
    (p : FieldShape) : List Diff :=
  if (findFieldMode contract p.name mode.ci).isNone then
    [extraDiff (appendSegment path depth p.name).1]
  else []

def nameDiffs (mode : Mode) (producer contract : List FieldShape) (path : Path) (depth : Nat) : List Diff :=
  match duplicateFieldName producer mode.ci, duplicateFieldName contract mode.ci with
  | some name, _ | none, some name =>
    [mismatchDiffLabeled (appendSegment path depth name).1 "unique field name" name]
  | none, none =>
    contract.flatMap (contractFieldDiffs mode producer path depth) ++
    producer.flatMap (producerFieldDiffs mode contract path depth)

def fieldDiffs (mode : Mode) (producer contract : List FieldShape) (path : Path) (depth : Nat) : List Diff :=
  if mode.byPos then positionDiffs mode path depth producer contract
  else if mode.ordered then orderedDiffs mode path depth producer contract
  else nameDiffs mode producer contract path depth

def rootDiffs (mode : Mode) (producer contract : TypeShape) : List Diff :=
  match producer, contract with
  | .struct producerFields, .struct contractFields =>
    fieldDiffs mode producerFields contractFields emptyPath 0
  | producer, contract =>
    if !shapeEq producer contract then
      [mismatchDiffLabeled (singleSegment "<root>") (shapeLabel contract) (shapeLabel producer)]
    else []

theorem rootDiffs_of_not_structs {mode : Mode} {producer contract : TypeShape}
    (bare : ∀ pf cf, producer = .struct pf → contract = .struct cf → False) :
    rootDiffs mode producer contract =
      if !shapeEq producer contract then
        [mismatchDiffLabeled (singleSegment "<root>") (shapeLabel contract) (shapeLabel producer)]
      else [] := by
  unfold rootDiffs
  split
  · exact (bare _ _ rfl rfl).elim
  · rfl

section Feed

variable {clash : TypeShape → TypeShape → Bool} {mode : Mode}

/-- The traversal against this contract shape does nothing to an accumulator
but push the differences onto it, in order. -/
def Feeds (clash : TypeShape → TypeShape → Bool) (mode : Mode) (contract : TypeShape) : Prop :=
  ∀ {σ : Type} (push : σ → Diff → σ) (producer : TypeShape) (path : Path) (depth : Nat) (diffs : σ),
    walkShapes push clash mode producer contract path depth diffs =
      (shapeDiffs mode producer contract path depth).foldl push diffs

variable {σ : Type} {push : σ → Diff → σ}

theorem pushTrailing_eq_foldl (producer contract : List FieldShape) (path : Path) (depth : Nat)
    (diffs : σ) : pushTrailing push producer contract path depth diffs =
      (trailingDiffs producer contract path depth).foldl push diffs := by
  simp only [pushTrailing, trailingDiffs, List.foldl_append, List.foldl_map]

theorem walkOrdered_eq_foldl {contract : List FieldShape}
    (feeds : ∀ c ∈ contract, Feeds clash mode c.shape) (producer : List FieldShape) (path : Path)
    (depth : Nat) (diffs : σ) : walkOrdered push clash mode producer contract path depth diffs =
      (orderedDiffs mode path depth producer contract).foldl push diffs := by
  induction contract generalizing producer diffs with
  | nil =>
    cases producer <;> simp only [walkOrdered, orderedDiffs, pushTrailing_eq_foldl]
  | cons c contract ih =>
    rw [List.forall_mem_cons] at feeds
    cases producer with
    | nil => simp only [walkOrdered, orderedDiffs, pushTrailing_eq_foldl]
    | cons p producer =>
      simp only [walkOrdered, orderedDiffs, orderedPairDiffs, List.foldl_append, feeds.1,
        ih feeds.2]
      split <;> simp

theorem walkByPosition_eq_foldl {contract : List FieldShape}
    (feeds : ∀ c ∈ contract, Feeds clash mode c.shape) (producer : List FieldShape) (path : Path)
    (depth : Nat) (diffs : σ) : walkByPosition push clash mode producer contract path depth diffs =
      (positionDiffs mode path depth producer contract).foldl push diffs := by
  induction contract generalizing producer diffs with
  | nil =>
    cases producer <;> simp only [walkByPosition, positionDiffs, pushTrailing_eq_foldl]
  | cons c contract ih =>
    rw [List.forall_mem_cons] at feeds
    cases producer with
    | nil => simp only [walkByPosition, positionDiffs, pushTrailing_eq_foldl]
    | cons p producer =>
      simp only [walkByPosition, positionDiffs, List.foldl_append, feeds.1, ih feeds.2]

theorem walkByName_eq_foldl {contract : List FieldShape}
    (feeds : ∀ c ∈ contract, Feeds clash mode c.shape) (producer : List FieldShape) (path : Path)
    (depth : Nat) (diffs : σ) : walkByName push clash mode producer contract path depth diffs =
      (nameDiffs mode producer contract path depth).foldl push diffs := by
  unfold walkByName nameDiffs
  cases duplicateFieldName producer mode.ci with
  | some name => simp
  | none =>
    cases duplicateFieldName contract mode.ci with
    | some name => simp
    | none =>
      simp only [List.foldl_append, List.foldl_flatMap]
      congr 1
      · funext diffs p
        unfold producerFieldDiffs
        split <;> simp
      · refine List.foldl_ext _ _ _ ?_
        intro diffs c member
        unfold contractFieldDiffs
        cases findFieldMode producer c.name mode.ci with
        | some p => exact feeds c member push p.shape _ _ diffs
        | none => simp

theorem walkFields_eq_foldl {contract : List FieldShape}
    (feeds : ∀ c ∈ contract, Feeds clash mode c.shape) (producer : List FieldShape) (path : Path)
    (depth : Nat) (diffs : σ) : walkFields push clash mode producer contract path depth diffs =
      (fieldDiffs mode producer contract path depth).foldl push diffs := by
  unfold walkFields fieldDiffs
  split
  · exact walkByPosition_eq_foldl feeds producer path depth diffs
  · split
    · exact walkOrdered_eq_foldl feeds producer path depth diffs
    · exact walkByName_eq_foldl feeds producer path depth diffs

def sameKind : TypeShape → TypeShape → Bool
  | .primitive _, .primitive _ => true
  | .optional _, .optional _ => true
  | .sequence _, .sequence _ => true
  | .map _ _, .map _ _ => true
  | .struct _, .struct _ => true
  | _, _ => false

theorem shapeEq_of_kind_ne {producer contract : TypeShape} (apart : sameKind producer contract = false) :
    shapeEq producer contract = false := by
  cases producer <;> cases contract <;> first | rfl | exact Bool.noConfusion (apart : true = false)

/-- A guard that lets every pair of unequal shapes through. Shapes of
different kinds are unequal, so such a guard never silences a report. -/
def Open (clash : TypeShape → TypeShape → Bool) : Prop :=
  ∀ p c, shapeEq p c = false → clash p c = true

theorem open_always : Open (fun _ _ => true) := fun _ _ _ => rfl

theorem open_unequal : Open (fun p c => !shapeEq p c) := by
  intro p c unequal
  simp only [unequal, Bool.not_false]

theorem walkShapes_of_kind_ne (opened : Open clash) {producer contract : TypeShape}
    (apart : sameKind producer contract = false) (path : Path) (depth : Nat) (diffs : σ) :
    walkShapes push clash mode producer contract path depth diffs =
      push diffs (mismatchDiffLabeled path (shapeLabel contract) (shapeLabel producer)) := by
  have report := opened producer contract (shapeEq_of_kind_ne apart)
  cases producer <;> cases contract <;> first | exact Bool.noConfusion (apart : true = false) | simp [walkShapes, report]

theorem shapeDiffs_of_kind_ne {producer contract : TypeShape}
    (apart : sameKind producer contract = false) (path : Path) (depth : Nat) :
    shapeDiffs mode producer contract path depth =
      [mismatchDiffLabeled path (shapeLabel contract) (shapeLabel producer)] := by
  rw [shapeDiffs, walkShapes_of_kind_ne open_always apart, List.nil_append]

theorem foldl_snoc (xs ys : List Diff) : ys.foldl (fun diffs diff => diffs ++ [diff]) xs = xs ++ ys := by
  induction ys generalizing xs with
  | nil => simp
  | cons y ys ih => simp [ih]

theorem walkShapes_map (pk pv ck cv : TypeShape) (path : Path) (depth : Nat) (diffs : σ) :
    walkShapes push clash mode (.map pk pv) (.map ck cv) path depth diffs =
      walkShapes push clash mode pv cv (appendSegment path depth "<value>").1
        (appendSegment path depth "<value>").2
        (walkShapes push clash mode pk ck (appendSegment path depth "<key>").1
          (appendSegment path depth "<key>").2 diffs) := by
  rw [walkShapes]

theorem shapeDiffs_map_of_feeds {cv : TypeShape} (feeds : Feeds (fun _ _ => true) mode cv)
    (pk pv ck : TypeShape) (path : Path) (depth : Nat) :
    shapeDiffs mode (.map pk pv) (.map ck cv) path depth =
      shapeDiffs mode pk ck (appendSegment path depth "<key>").1 (appendSegment path depth "<key>").2 ++
      shapeDiffs mode pv cv (appendSegment path depth "<value>").1
        (appendSegment path depth "<value>").2 := by
  rw [shapeDiffs, walkShapes_map, feeds, foldl_snoc]
  rfl

theorem shapeDiffs_struct_of_feeds {contract : List FieldShape}
    (feeds : ∀ c ∈ contract, Feeds (fun _ _ => true) mode c.shape) (producer : List FieldShape)
    (path : Path) (depth : Nat) : shapeDiffs mode (.struct producer) (.struct contract) path depth =
      fieldDiffs mode producer contract path depth := by
  rw [shapeDiffs, walkShapes, walkFields_eq_foldl feeds, foldl_snoc, List.nil_append]

/-- Structural induction over the contract: each case pushes what its parts
push. The two sides of a struct agree field by field. -/
theorem walkShapes_feeds (mode : Mode) (contract : TypeShape) :
    ∀ {clash}, Open clash → Feeds clash mode contract := by
  induction contract using TypeShape.induction with
  | primitive name =>
    intro clash opened σ push producer path depth diffs
    cases producer with
    | primitive other => simp only [shapeDiffs, walkShapes]; split <;> simp
    | _ => rw [walkShapes_of_kind_ne opened rfl, shapeDiffs_of_kind_ne rfl]; rfl
  | optional inner ih =>
    intro clash opened σ push producer path depth diffs
    cases producer with
    | optional other => simpa only [shapeDiffs, walkShapes] using ih opened push other path depth diffs
    | _ => rw [walkShapes_of_kind_ne opened rfl, shapeDiffs_of_kind_ne rfl]; rfl
  | sequence inner ih =>
    intro clash opened σ push producer path depth diffs
    cases producer with
    | sequence other => simpa only [shapeDiffs, walkShapes] using ih opened push other _ _ diffs
    | _ => rw [walkShapes_of_kind_ne opened rfl, shapeDiffs_of_kind_ne rfl]; rfl
  | map key value keyIh valueIh =>
    intro clash opened σ push producer path depth diffs
    cases producer with
    | map otherKey otherValue =>
      rw [walkShapes_map, shapeDiffs_map_of_feeds (valueIh open_always), List.foldl_append,
        keyIh opened, valueIh opened]
    | _ => rw [walkShapes_of_kind_ne opened rfl, shapeDiffs_of_kind_ne rfl]; rfl
  | struct fields ih =>
    intro clash opened σ push producer path depth diffs
    cases producer with
    | struct others =>
      rw [walkShapes, walkFields_eq_foldl (fun c member => ih c member opened),
        shapeDiffs_struct_of_feeds (fun c member => ih c member open_always)]
    | _ => rw [walkShapes_of_kind_ne opened rfl, shapeDiffs_of_kind_ne rfl]; rfl

theorem shapeDiffs_struct (producer contract : List FieldShape) (path : Path) (depth : Nat) :
    shapeDiffs mode (.struct producer) (.struct contract) path depth =
      fieldDiffs mode producer contract path depth :=
  shapeDiffs_struct_of_feeds (fun c _ => walkShapes_feeds mode c.shape open_always) producer path depth

theorem shapeDiffs_map (pk pv ck cv : TypeShape) (path : Path) (depth : Nat) :
    shapeDiffs mode (.map pk pv) (.map ck cv) path depth =
      shapeDiffs mode pk ck (appendSegment path depth "<key>").1 (appendSegment path depth "<key>").2 ++
      shapeDiffs mode pv cv (appendSegment path depth "<value>").1
        (appendSegment path depth "<value>").2 :=
  shapeDiffs_map_of_feeds (walkShapes_feeds mode cv open_always) pk pv ck path depth

/-- The traversal feeds any accumulator exactly the differences, in order. -/
theorem walkRoot_eq_foldl (opened : Open clash) (producer contract : TypeShape) (diffs : σ) :
    walkRoot push clash mode producer contract diffs = (rootDiffs mode producer contract).foldl push diffs := by
  unfold walkRoot
  split
  · exact walkFields_eq_foldl (fun c _ => walkShapes_feeds mode c.shape opened) _ _ _ _
  · rename_i bare
    rw [rootDiffs_of_not_structs bare]
    split <;> rfl

end Feed

theorem compare_eq_foldl (producer contract : TypeShape) (policy : SchemaPolicy) :
    compare producer contract policy =
      (rootDiffs (policyMode policy) producer contract).foldl Comparison.push (.new policy) :=
  walkRoot_eq_foldl open_always producer contract _

/-- One rejected difference is one entry of the bounded log; a tolerated one
changes nothing. -/
theorem foldl_comparison_push (diffs : List Diff) (comparison : Comparison) :
    diffs.foldl Comparison.push comparison =
      { policy := comparison.policy
        rejected := comparison.rejected || diffs.any (rejects · comparison.policy)
        diffs := (diffs.filter (rejects · comparison.policy)).foldl BoundedLog.push comparison.diffs } := by
  induction diffs generalizing comparison with
  | nil => simp
  | cons diff rest ih =>
    rw [List.foldl_cons, ih]
    cases verdict : rejects diff comparison.policy <;> simp [Comparison.push, verdict]

theorem foldl_pushIfRejected (policy : SchemaPolicy) (diffs kept : List Diff) :
    diffs.foldl (pushIfRejected policy) kept = kept ++ diffs.filter (rejects · policy) := by
  induction diffs generalizing kept with
  | nil => simp
  | cons diff rest ih =>
    rw [List.foldl_cons, ih]
    cases verdict : rejects diff policy <;> simp [pushIfRejected, verdict]

theorem compareUnbounded_eq_filter (producer contract : TypeShape) (policy : SchemaPolicy) :
    compareUnbounded producer contract policy =
      (rootDiffs (policyMode policy) producer contract).filter (rejects · policy) := by
  rw [compareUnbounded, walkRoot_eq_foldl open_unequal, foldl_pushIfRejected, List.nil_append]

/-- The bounded comparison holds the longest prefix of the unbounded list
that fits, and its verdict does not depend on that bound. -/
theorem compare_simulates_unbounded (producer contract : TypeShape) (policy : SchemaPolicy) :
    (compare producer contract policy).diffs.Holds (compareUnbounded producer contract policy) ∧
      ((compare producer contract policy).rejected = true ↔ compareUnbounded producer contract policy ≠ []) := by
  rw [compare_eq_foldl, foldl_comparison_push, compareUnbounded_eq_filter]
  refine ⟨BoundedLog.foldl_push_empty_holds _, ?_⟩
  simp [Comparison.new, List.filter_eq_nil_iff]

theorem conforms_iff_unbounded_nil {producer contract : TypeShape} {policy : SchemaPolicy} :
    conforms producer contract policy = true ↔ compareUnbounded producer contract policy = [] := by
  have verdict := (compare_simulates_unbounded producer contract policy).2
  rw [conforms, Bool.not_eq_true', ← Bool.not_eq_true, verdict, not_not]

/-- A pair conforms when the policy tolerates each of its differences. -/
theorem conforms_iff_tolerated {producer contract : TypeShape} {policy : SchemaPolicy} :
    conforms producer contract policy = true ↔
      ∀ diff ∈ rootDiffs (policyMode policy) producer contract, rejects diff policy = false := by
  rw [conforms_iff_unbounded_nil, compareUnbounded_eq_filter, List.filter_eq_nil_iff]
  simp only [Bool.not_eq_true]

end Datacrate.Contracts
