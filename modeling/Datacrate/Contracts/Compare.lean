import Datacrate.Contracts.Shape
import Datacrate.Lib.BoundedLog

namespace Datacrate.Contracts

/-- How many path segments a difference can name. -/
abbrev maxPathDepth : Nat := 8

/-- How many differences a single comparison can name. -/
def maxDiffs : Nat := 128

abbrev Path := Vector String maxPathDepth

inductive DiffKind where
  | missing
  | extra
  | mismatch
  deriving DecidableEq, Repr

/-- A difference, with the path to the field it blames. The last two labels
are those of the contract side and of the producer side of a mismatch. -/
structure Diff where
  kind : DiffKind
  path : Path
  optionalOrDefault : Bool
  annotation : String
  expected : String
  found : String
  deriving DecidableEq, Repr

def optionalAnnotation (isOptional hasDefault : Bool) : String :=
  if isOptional then " (optional)"
  else if hasDefault then " (default)"
  else ""

def shapeLabel : TypeShape → String
  | .primitive name => name
  | .optional _ => "Optional"
  | .sequence _ => "Sequence"
  | .map _ _ => "Map"
  | .struct _ => "Struct"

def missingDiff (path : Path) (isOptional hasDefault : Bool) : Diff where
  kind := .missing
  path := path
  optionalOrDefault := isOptional || hasDefault
  annotation := optionalAnnotation isOptional hasDefault
  expected := ""
  found := ""

def extraDiff (path : Path) : Diff where
  kind := .extra
  path := path
  optionalOrDefault := false
  annotation := ""
  expected := ""
  found := ""

def mismatchDiffLabeled (path : Path) (expected found : String) : Diff where
  kind := .mismatch
  path := path
  optionalOrDefault := false
  annotation := ""
  expected := expected
  found := found

/-- The bounded accumulator of the differences that get named. -/
abbrev Diffs := BoundedLog Diff maxDiffs

/-- Applies compatibility policy before a difference consumes display
capacity. -/
def rejects (diff : Diff) : SchemaPolicy → Bool
  | .full => false
  | .backward =>
    match diff.kind with
    | .missing => !diff.optionalOrDefault
    | .extra => false
    | .mismatch => true
  | .forward => diff.kind != .missing
  | _ => true

/-- Owns the policy verdict independently of the bounded display. -/
structure Comparison where
  policy : SchemaPolicy
  rejected : Bool
  diffs : Diffs

def Comparison.new (policy : SchemaPolicy) : Comparison where
  policy := policy
  rejected := false
  diffs := .empty

def Comparison.push (comparison : Comparison) (diff : Diff) : Comparison :=
  if rejects diff comparison.policy then
    { comparison with rejected := true, diffs := comparison.diffs.push diff }
  else comparison

/-- Compare names without case, match by name in declaration order, or
ignore names and match by index. -/
structure Mode where
  ci : Bool
  ordered : Bool
  byPos : Bool
  deriving DecidableEq, Repr

def policyMode : SchemaPolicy → Mode
  | .exact | .exactUnorderedCI => { ci := true, ordered := false, byPos := false }
  | .exactOrdered => { ci := false, ordered := true, byPos := false }
  | .exactOrderedCI => { ci := true, ordered := true, byPos := false }
  | .exactByPosition => { ci := false, ordered := false, byPos := true }
  | .backward | .forward | .full => { ci := false, ordered := false, byPos := false }

def emptyPath : Path := Vector.replicate maxPathDepth ""

def appendSegment (path : Path) (depth : Nat) (seg : String) : Path × Nat :=
  if room : depth < maxPathDepth then (path.set depth seg, depth + 1) else (path, depth)

def singleSegment (name : String) : Path :=
  emptyPath.set 0 name (by decide)

section Walk

variable {σ : Type*} (push : σ → Diff → σ) (clash : TypeShape → TypeShape → Bool) (mode : Mode)

/-- The two trailing loops of an index walk: contract fields past the
producer's end, then producer fields past the contract's end. -/
def pushTrailing (producer contract : List FieldShape) (path : Path) (depth : Nat) (diffs : σ) : σ :=
  let diffs := contract.foldl (fun diffs c =>
    push diffs (missingDiff (appendSegment path depth c.name).1 (isOptional c.shape) c.hasDefault)) diffs
  producer.foldl (fun diffs p => push diffs (extraDiff (appendSegment path depth p.name).1)) diffs

mutual

/-- The traversal, over any accumulator of differences. `clash` guards the
report for two shapes of different kinds. -/
def walkShapes (producer contract : TypeShape) (path : Path) (depth : Nat) (diffs : σ) : σ :=
  match producer, contract with
  | .primitive p, .primitive c =>
    if !strEq p c then push diffs (mismatchDiffLabeled path c p) else diffs
  | .optional p, .optional c => walkShapes p c path depth diffs
  | .sequence p, .sequence c =>
    let (seqPath, seqDepth) := appendSegment path depth "[]"
    walkShapes p c seqPath seqDepth diffs
  | .map pk pv, .map ck cv =>
    let (keyPath, keyDepth) := appendSegment path depth "<key>"
    let diffs := walkShapes pk ck keyPath keyDepth diffs
    let (valuePath, valueDepth) := appendSegment path depth "<value>"
    walkShapes pv cv valuePath valueDepth diffs
  | .struct pf, .struct cf => walkFields pf cf path depth diffs
  | producer, contract =>
    if clash producer contract then
      push diffs (mismatchDiffLabeled path (shapeLabel contract) (shapeLabel producer))
    else diffs
termination_by 4 * sizeOf contract

def walkFields (producer contract : List FieldShape) (path : Path) (depth : Nat) (diffs : σ) : σ :=
  if mode.byPos then walkByPosition producer contract path depth diffs
  else if mode.ordered then walkOrdered producer contract path depth diffs
  else walkByName producer contract path depth diffs
termination_by 4 * sizeOf contract + 2

/-- Matches each contract field to a producer field by name. Unmatched
contract fields are missing and unmatched producer fields are extra. -/
def walkByName (producer contract : List FieldShape) (path : Path) (depth : Nat) (diffs : σ) : σ :=
  match duplicateFieldName producer mode.ci with
  | some name =>
    push diffs (mismatchDiffLabeled (appendSegment path depth name).1 "unique field name" name)
  | none =>
  match duplicateFieldName contract mode.ci with
  | some name =>
    push diffs (mismatchDiffLabeled (appendSegment path depth name).1 "unique field name" name)
  | none =>
  let diffs := contract.foldl (fun diffs c =>
    match findFieldMode producer c.name mode.ci with
    | some p =>
      let (fieldPath, fieldDepth) := appendSegment path depth c.name
      walkShapes p.shape c.shape fieldPath fieldDepth diffs
    | none =>
      push diffs (missingDiff (appendSegment path depth c.name).1 (isOptional c.shape) c.hasDefault)) diffs
  producer.foldl (fun diffs p =>
    if (findFieldMode contract p.name mode.ci).isNone then
      push diffs (extraDiff (appendSegment path depth p.name).1)
    else diffs) diffs
termination_by 4 * sizeOf contract + 1
decreasing_by
  have smaller := FieldShape.sizeOf_shape_lt ‹c ∈ contract›
  omega

/-- Index-aligned walk. A name difference is reported on its own and does
not stop the descent into the shapes at that index. -/
def walkOrdered (producer contract : List FieldShape) (path : Path) (depth : Nat) (diffs : σ) : σ :=
  match producer, contract with
  | p :: producer, c :: contract =>
    let (fieldPath, fieldDepth) := appendSegment path depth c.name
    let diffs :=
      if !namesMatch mode.ci p.name c.name then
        push diffs (mismatchDiffLabeled (appendSegment fieldPath fieldDepth "(name)").1 c.name p.name)
      else diffs
    let diffs := walkShapes p.shape c.shape fieldPath fieldDepth diffs
    walkOrdered producer contract path depth diffs
  | producer, contract => pushTrailing push producer contract path depth diffs
termination_by 4 * sizeOf contract + 1
decreasing_by
  · cases c
    simp only [List.cons.sizeOf_spec, FieldShape.mk.sizeOf_spec]
    omega
  · simp only [List.cons.sizeOf_spec]
    omega

/-- Positional walk. Names only label the paths. -/
def walkByPosition (producer contract : List FieldShape) (path : Path) (depth : Nat) (diffs : σ) : σ :=
  match producer, contract with
  | p :: producer, c :: contract =>
    let (fieldPath, fieldDepth) := appendSegment path depth p.name
    let diffs := walkShapes p.shape c.shape fieldPath fieldDepth diffs
    walkByPosition producer contract path depth diffs
  | producer, contract => pushTrailing push producer contract path depth diffs
termination_by 4 * sizeOf contract + 1
decreasing_by
  · cases c
    simp only [List.cons.sizeOf_spec, FieldShape.mk.sizeOf_spec]
    omega
  · simp only [List.cons.sizeOf_spec]
    omega

end

/-- The root dispatch of the traversal: two structs are walked, any other
pair is compared for exact structural equality. -/
def walkRoot (producer contract : TypeShape) (diffs : σ) : σ :=
  match producer, contract with
  | .struct producerFields, .struct contractFields =>
    walkFields push clash mode producerFields contractFields emptyPath 0 diffs
  | producer, contract =>
    if !shapeEq producer contract then
      push diffs (mismatchDiffLabeled (singleSegment "<root>") (shapeLabel contract) (shapeLabel producer))
    else diffs

end Walk

def compareShapes (producer contract : TypeShape) (path : Path) (depth : Nat) (mode : Mode)
    (diffs : Comparison) : Comparison :=
  walkShapes Comparison.push (fun _ _ => true) mode producer contract path depth diffs

def compareFields (producer contract : List FieldShape) (path : Path) (depth : Nat) (mode : Mode)
    (diffs : Comparison) : Comparison :=
  walkFields Comparison.push (fun _ _ => true) mode producer contract path depth diffs

def compareByName (producer contract : List FieldShape) (path : Path) (depth : Nat) (mode : Mode)
    (diffs : Comparison) : Comparison :=
  walkByName Comparison.push (fun _ _ => true) mode producer contract path depth diffs

def compareOrdered (producer contract : List FieldShape) (path : Path) (depth : Nat) (mode : Mode)
    (diffs : Comparison) : Comparison :=
  walkOrdered Comparison.push (fun _ _ => true) mode producer contract path depth diffs

def compareByPosition (producer contract : List FieldShape) (path : Path) (depth : Nat) (mode : Mode)
    (diffs : Comparison) : Comparison :=
  walkByPosition Comparison.push (fun _ _ => true) mode producer contract path depth diffs

/-- Traverses the shapes once, recording rejection independently of
rendering. -/
def compare (producer contract : TypeShape) (policy : SchemaPolicy) : Comparison :=
  walkRoot Comparison.push (fun _ _ => true) (policyMode policy) producer contract (.new policy)

def conforms (producer contract : TypeShape) (policy : SchemaPolicy) : Bool :=
  !(compare producer contract policy).rejected

/-- The unbounded counterpart of `Comparison.push`. -/
def pushIfRejected (policy : SchemaPolicy) (diffs : List Diff) (diff : Diff) : List Diff :=
  if rejects diff policy then diffs ++ [diff] else diffs

/-- The unbounded counterpart of `compare`. It asks `shapeEq` before it
reports two shapes of different kinds, which `compare` does not. -/
def compareUnbounded (producer contract : TypeShape) (policy : SchemaPolicy) : List Diff :=
  walkRoot (pushIfRejected policy) (fun p c => !shapeEq p c) (policyMode policy) producer contract []

example : conforms (.struct [⟨"name", .primitive "String", false⟩, ⟨"id", .primitive "i64", false⟩])
    (.struct [⟨"ID", .primitive "i64", false⟩, ⟨"NAME", .primitive "String", false⟩]) .exact = true := by
  decide +kernel

end Datacrate.Contracts
