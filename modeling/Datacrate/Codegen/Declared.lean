import Datacrate.Arrow.DataType
import Datacrate.Lib.Text
import Datacrate.Remote.Manifest

namespace Datacrate.Codegen

open Arrow
open Remote (isWhitespace)

def primitiveFromToken : String → Option DataType
  | "boolean" | "bool" => some (.leaf .boolean)
  | "int8" | "tinyint" => some (.leaf .int8)
  | "int16" | "smallint" => some (.leaf .int16)
  | "int32" | "integer" | "int" => some (.leaf .int32)
  | "int64" | "bigint" => some (.leaf .int64)
  | "uint8" => some (.leaf .uInt8)
  | "uint16" => some (.leaf .uInt16)
  | "uint32" => some (.leaf .uInt32)
  | "uint64" => some (.leaf .uInt64)
  | "float32" | "float" | "real" => some (.leaf .float32)
  | "float64" | "double" | "double precision" => some (.leaf .float64)
  | "string" | "varchar" | "text" | "character varying" | "char" => some (.leaf .utf8)
  | _ => none

def trim (text : List Char) : List Char :=
  Text.trim isWhitespace text

/-- The text with its ASCII letters in lower case. -/
def toAsciiLowercase (text : List Char) : List Char :=
  text.map Char.toLower

/-- What is between a prefix, in any case of its letters, and a last `>`. -/
def stripWrapper (wrapper : List Char) (text : List Char) : Option (List Char) :=
  if toAsciiLowercase (text.take wrapper.length) = wrapper then
    let rest := text.drop wrapper.length
    if rest.getLast? = some '>' then some rest.dropLast else none
  else none

/-- The number of open brackets after a character. It stays at zero. -/
def bracketDepth (depth : Nat) (c : Char) : Nat :=
  if c = '<' then depth + 1 else if c = '>' then depth - 1 else depth

/-- The part that is being read, up to the next comma outside brackets, and
the parts after it. -/
def scanCommas (depth : Nat) : List Char → List Char × List (List Char)
  | [] => ([], [])
  | c :: rest =>
    if c = ',' ∧ depth = 0 then ([], (scanCommas 0 rest).1 :: (scanCommas 0 rest).2)
    else (c :: (scanCommas (bracketDepth depth c) rest).1, (scanCommas (bracketDepth depth c) rest).2)

def splitTopLevelCommas (text : List Char) : List (List Char) :=
  (scanCommas 0 text).1 :: (scanCommas 0 text).2

theorem stripWrapper_length {wrapper text inner : List Char} (stripped : stripWrapper wrapper text = some inner) :
    inner.length < text.length := by
  unfold stripWrapper at stripped
  split at stripped
  · dsimp only at stripped
    split at stripped
    · rename_i closed
      cases stripped
      have nonempty : text.drop wrapper.length ≠ [] := by
        intro empty
        rw [empty] at closed
        cases closed
      have positive := List.length_pos_iff.mpr nonempty
      rw [List.length_dropLast, List.length_drop] at *
      omega
    · cases stripped
  · cases stripped

theorem scanCommas_length {depth : Nat} {text part : List Char}
    (member : part ∈ (scanCommas depth text).1 :: (scanCommas depth text).2) : part.length ≤ text.length := by
  induction text generalizing depth part with
  | nil =>
    rw [scanCommas, List.mem_singleton] at member
    rw [member]
  | cons c rest ih =>
    rw [scanCommas] at member
    split at member
    · rcases List.mem_cons.mp member with rfl | later
      · exact Nat.zero_le _
      · exact (ih later).trans (Nat.le_succ _)
    · rcases List.mem_cons.mp member with rfl | later
      · exact Nat.succ_le_succ (ih List.mem_cons_self)
      · exact (ih (List.mem_cons_of_mem _ later)).trans (Nat.le_succ _)

/-- The Arrow type of a declared type name. -/
def declaredTypeToArrow (declared : List Char) : Option DataType :=
  match _array : stripWrapper "array<".toList (trim declared) with
  | some inner => (declaredTypeToArrow inner).map fun itemType => .list (Field.new "item" itemType true)
  | none =>
    match _struct : stripWrapper "struct<".toList (trim declared) with
    | some inner => do
      let fields ← (splitTopLevelCommas inner).attach.mapM fun part =>
        match _split : Text.splitOnce ':' part.1 with
        | some (name, type) =>
          (declaredTypeToArrow type).map fun dataType => Field.new (String.ofList (trim name)) dataType true
        | none => none
      return .struct fields
    | none =>
      primitiveFromToken (String.ofList (toAsciiLowercase (trim ((trim declared).takeWhile (· != '(')))))
termination_by declared.length
decreasing_by
  · exact (stripWrapper_length _array).trans_le Text.trim_length_le
  · have inside := stripWrapper_length _struct
    have whole : (trim declared).length ≤ declared.length := Text.trim_length_le
    have within := scanCommas_length part.2
    have halves := congrArg List.length (Text.splitOnce_eq_some _split).1
    rw [List.length_append, List.length_cons] at halves
    omega

/-- The field of a part `name:type` of a struct. -/
def declaredField (part : List Char) : Option Field :=
  (Text.splitOnce ':' part).bind fun split =>
    (declaredTypeToArrow split.2).map fun dataType => Field.new (String.ofList (trim split.1)) dataType true

theorem declaredTypeToArrow_array {declared inner : List Char}
    (array : stripWrapper "array<".toList (trim declared) = some inner) :
    declaredTypeToArrow declared =
      (declaredTypeToArrow inner).map fun itemType => .list (Field.new "item" itemType true) := by
  rw [declaredTypeToArrow]
  split
  · rename_i found stripped
    rw [array] at stripped
    cases stripped
    rfl
  · rename_i stripped
    rw [array] at stripped
    cases stripped

theorem declaredTypeToArrow_struct {declared inner : List Char}
    (array : stripWrapper "array<".toList (trim declared) = none)
    (struct : stripWrapper "struct<".toList (trim declared) = some inner) :
    declaredTypeToArrow declared = ((splitTopLevelCommas inner).mapM declaredField).map .struct := by
  rw [declaredTypeToArrow]
  split
  · rename_i stripped
    rw [array] at stripped
    cases stripped
  · split
    · rename_i found stripped
      rw [struct] at stripped
      cases stripped
      rw [List.mapM_subtype (g := declaredField), List.unattach_attach]
      · cases (splitTopLevelCommas inner).mapM declaredField <;> rfl
      · intro part member
        rw [declaredField]
        split
        · rename_i name type split
          rw [split]
          rfl
        · rename_i split
          rw [split]
          rfl
    · rename_i stripped
      rw [struct] at stripped
      cases stripped

theorem declaredTypeToArrow_primitive {declared : List Char}
    (array : stripWrapper "array<".toList (trim declared) = none)
    (struct : stripWrapper "struct<".toList (trim declared) = none) :
    declaredTypeToArrow declared =
      primitiveFromToken (String.ofList (toAsciiLowercase (trim ((trim declared).takeWhile (· != '('))))) := by
  rw [declaredTypeToArrow]
  split
  · rename_i stripped
    rw [array] at stripped
    cases stripped
  · split
    · rename_i stripped
      rw [struct] at stripped
      cases stripped
    · rfl

end Datacrate.Codegen
