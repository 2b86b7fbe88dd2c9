import Datacrate.Contracts.Differences

namespace Datacrate.Contracts

def sep (segment : String) : String :=
  if segment.isEmpty then "" else "."

def kindText : DiffKind → String
  | .missing => "missing `"
  | .extra => "extra `"
  | .mismatch => "mismatch `"

section Pieces

variable (diffs : Diffs) (i : Fin maxDiffs)

def diffKindLabel : String :=
  match diffs.items[i] with
  | some diff => kindText diff.kind
  | none => ""

def diffLeadSep : String :=
  if 0 < i.val ∧ diffs.items[i].isSome then "; " else ""

def diffSeg (j : Fin maxPathDepth) : String :=
  match diffs.items[i] with
  | some diff => diff.path[j]
  | none => ""

def diffSegSep (j : Fin maxPathDepth) : String :=
  sep (diffSeg diffs i j)

def diffClose : String :=
  match diffs.items[i] with
  | some _ => "`"
  | none => ""

def diffAnnotation : String :=
  match diffs.items[i] with
  | some diff => diff.annotation
  | none => ""

/-- A piece of the expected/found clause, for a difference that carries
labels. -/
def labeledPiece (text : String) : String :=
  match diffs.items[i] with
  | some diff => if !diff.expected.isEmpty then text else ""
  | none => ""

def expectedOpen : String := labeledPiece diffs i " (expected `"

def diffExpected : String :=
  match diffs.items[i] with
  | some diff => diff.expected
  | none => ""

def expectedMid : String := labeledPiece diffs i "`, found `"

def diffFound : String :=
  match diffs.items[i] with
  | some diff => diff.found
  | none => ""

def expectedClose : String := labeledPiece diffs i "`)"

/-- The message arguments generated for one slot. -/
def diffPieces : List String :=
  [diffLeadSep diffs i, diffKindLabel diffs i, diffSeg diffs i 0,
    diffSegSep diffs i 1, diffSeg diffs i 1, diffSegSep diffs i 2, diffSeg diffs i 2,
    diffSegSep diffs i 3, diffSeg diffs i 3, diffSegSep diffs i 4, diffSeg diffs i 4,
    diffSegSep diffs i 5, diffSeg diffs i 5, diffSegSep diffs i 6, diffSeg diffs i 6,
    diffSegSep diffs i 7, diffSeg diffs i 7,
    diffClose diffs i, diffAnnotation diffs i,
    expectedOpen diffs i, diffExpected diffs i, expectedMid diffs i, diffFound diffs i,
    expectedClose diffs i]

end Pieces

def messageHeader : String := "producer schema does not conform to the contract: "

/-- The panic message: the header, then the pieces of every slot. -/
def checkMessage (diffs : Diffs) : String :=
  messageHeader ++ String.join ((List.finRange maxDiffs).flatMap (diffPieces diffs))

/-- `SchemaConforms::CHECK`, with the panic message as its error. -/
def schemaConformsCheck (producer contract : TypeShape) (policy : SchemaPolicy) : Except String Unit :=
  let comparison := compare producer contract policy
  if comparison.rejected then .error (checkMessage comparison.diffs) else .ok ()

/-- A recorded difference as the message shows it. -/
def renderDiff (diff : Diff) : String :=
  let seg (j : Fin maxPathDepth) := diff.path[j]
  let clause (text : String) := if !diff.expected.isEmpty then text else ""
  String.join [kindText diff.kind, seg 0,
    sep (seg 1), seg 1, sep (seg 2), seg 2, sep (seg 3), seg 3, sep (seg 4), seg 4,
    sep (seg 5), seg 5, sep (seg 6), seg 6, sep (seg 7), seg 7, "`", diff.annotation,
    clause " (expected `", diff.expected, clause "`, found `", diff.found, clause "`)"]

theorem join_diffPieces {diffs : Diffs} {entries : List Diff} (holds : diffs.Holds entries)
    (i : Fin maxDiffs) :
    String.join (diffPieces diffs i) = BoundedLog.slotText "; " renderDiff entries i := by
  have slot : diffs.items[i] = entries[i.val]? := holds.items_eq i.val i.isLt
  unfold BoundedLog.slotText
  cases entry : entries[i.val]? with
  | none =>
    rw [entry] at slot
    simp [diffPieces, diffLeadSep, diffKindLabel, diffSeg, diffSegSep, sep, diffClose, diffAnnotation,
      labeledPiece, expectedOpen, diffExpected, expectedMid, diffFound, expectedClose, slot]
  | some diff =>
    rw [entry] at slot
    simp only [diffPieces, diffLeadSep, diffKindLabel, diffSeg, diffSegSep, diffClose, diffAnnotation,
      labeledPiece, expectedOpen, diffExpected, expectedMid, diffFound, expectedClose, slot,
      Option.isSome_some, and_true, renderDiff, String.join_cons]

/-- The message lists the recorded differences, separated by semicolons. -/
theorem checkMessage_eq {diffs : Diffs} {entries : List Diff} (holds : diffs.Holds entries) :
    checkMessage diffs =
      messageHeader ++ "; ".intercalate ((entries.take maxDiffs).map renderDiff) := by
  have slots : (List.finRange maxDiffs).map (fun i => String.join (diffPieces diffs i)) =
      (List.range maxDiffs).map (BoundedLog.slotText "; " renderDiff entries) := by
    rw [← List.map_coe_finRange_eq_range, List.map_map]
    exact List.map_congr_left fun i _ => join_diffPieces holds i
  have joined : ∀ indices : List (Fin maxDiffs), String.join (indices.flatMap (diffPieces diffs)) =
      String.join (indices.map (fun i => String.join (diffPieces diffs i))) := by
    intro indices
    induction indices with
    | nil => rfl
    | cons i rest ih => rw [List.flatMap_cons, String.join_append, ih, List.map_cons, String.join_cons]
  rw [checkMessage, joined, slots, BoundedLog.join_slotText]

theorem schemaConformsCheck_error_iff {producer contract : TypeShape} {policy : SchemaPolicy} :
    (∃ message, schemaConformsCheck producer contract policy = .error message) ↔
      conforms producer contract policy = false := by
  cases verdict : (compare producer contract policy).rejected <;>
    simp [schemaConformsCheck, conforms, verdict]

/-- Bounded and unbounded traversals agree: the log is the longest prefix
of the rejected differences that fits, the verdict is that there are any,
and a failing check names the recorded ones. -/
theorem compare_records_rejected_prefix (producer contract : TypeShape) (policy : SchemaPolicy) :
    let comparison := compare producer contract policy
    let rejected := compareUnbounded producer contract policy
    comparison.diffs.len = min rejected.length maxDiffs ∧
      (∀ i (within : i < maxDiffs), comparison.diffs.items[i] = rejected[i]?) ∧
      (comparison.rejected = true ↔ rejected ≠ []) ∧
      (0 < comparison.diffs.len ↔ comparison.rejected = true) ∧
      ((∃ message, schemaConformsCheck producer contract policy = .error message) ↔
        conforms producer contract policy = false) ∧
      ∀ message, schemaConformsCheck producer contract policy = .error message →
        ∃ first rest, rejected = first :: rest ∧
          message = messageHeader ++
            "; ".intercalate ((first :: rest.take (maxDiffs - 1)).map renderDiff) := by
  intro comparison rejected
  obtain ⟨holds, verdict⟩ := compare_simulates_unbounded producer contract policy
  refine ⟨holds.len_eq, holds.items_eq, verdict, ?_, schemaConformsCheck_error_iff, ?_⟩
  · exact (holds.len_pos_iff (by decide)).trans verdict.symm
  · intro message failed
    unfold schemaConformsCheck at failed
    dsimp only at failed
    split at failed
    · rename_i rejects
      obtain ⟨first, rest, split⟩ := List.exists_cons_of_ne_nil (verdict.mp rejects)
      refine ⟨first, rest, split, ?_⟩
      rw [← Except.error.inj failed, checkMessage_eq holds, split]
      rfl
    · cases failed

end Datacrate.Contracts
