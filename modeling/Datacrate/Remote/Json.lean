import Datacrate.Lib.Numeral
import Datacrate.Remote.Wire

namespace Datacrate.Remote

open Fields Numeral

section Strings

/-- The characters with an escape of their own, and the letter of it. -/
def shortEscapes : List (Char × Char) :=
  [('\x22', '\x22'), ('\x5c', '\x5c'), ('\x08', 'b'), ('\x0c', 'f'), ('\x0a', 'n'), ('\x0d', 'r'), ('\x09', 't')]

/-- Other control characters are escaped by their number. -/
def escapeChar (char : Char) : List Char :=
  match shortEscapes.lookup char with
  | some letter => ['\x5c', letter]
  | none =>
    if char.toNat < 0x20 then ['\x5c', 'u', '0', '0', hexDigit (char.toNat / 16), hexDigit (char.toNat % 16)] else [char]

def hexValue (digit : Char) : Option Nat :=
  (List.range 16).find? fun value => hexDigit value == digit

/-- A string after its opening quote, and what follows its closing one. -/
def scanString : List Char → Option (List Char × List Char)
  | '\x22' :: rest => some ([], rest)
  | '\x5c' :: 'u' :: '0' :: '0' :: high :: low :: rest => do
    let high ← hexValue high
    let low ← hexValue low
    let (chars, after) ← scanString rest
    return (Char.ofNat (16 * high + low) :: chars, after)
  | '\x5c' :: letter :: rest => do
    let (char, _) ← shortEscapes.find? fun escape => escape.2 == letter
    let (chars, after) ← scanString rest
    return (char :: chars, after)
  | char :: rest => do
    let (chars, after) ← scanString rest
    return (char :: chars, after)
  | [] => none

theorem hexValue_hexDigit : ∀ value < 16, hexValue (hexDigit value) = some value := by
  decide

/-- An escape by a letter stands for one character. -/
theorem shortEscapes_letter : ∀ escape ∈ shortEscapes, escape.2 ≠ 'u' ∧
    (shortEscapes.find? fun other => other.2 == escape.2) = some escape := by
  decide

/-- An escaped character is read back. -/
theorem scanString_escapeChar (char : Char) (rest : List Char) :
    scanString (escapeChar char ++ rest) = (scanString rest).map fun read => (char :: read.1, read.2) := by
  unfold escapeChar
  cases short : shortEscapes.lookup char with
  | some letter =>
    obtain ⟨before, after, split, _⟩ := List.lookup_eq_some_iff.mp short
    obtain ⟨other, found⟩ := shortEscapes_letter (char, letter) (by rw [split]; simp)
    rw [List.cons_append, List.cons_append, List.nil_append, scanString]
    · rw [found]
      cases scanString rest <;> rfl
    · rintro high low tail same _
      exact other same
  | none =>
    have plain : char ≠ '\x22' ∧ char ≠ '\x5c' := by
      constructor
      · rintro rfl
        cases short
      · rintro rfl
        cases short
    by_cases control : char.toNat < 0x20
    · have high := hexValue_hexDigit (char.toNat / 16) (by omega)
      have low := hexValue_hexDigit (char.toNat % 16) (by omega)
      have whole : Char.ofNat (16 * (char.toNat / 16) + char.toNat % 16) = char := by
        rw [Nat.div_add_mod, Char.ofNat_toNat]
      simp only [if_pos control, List.cons_append, List.nil_append, scanString, high, low, Option.bind_eq_bind,
        Option.bind_some, whole]
      cases scanString rest <;> rfl
    · rw [if_neg control, List.cons_append, List.nil_append, scanString]
      · cases scanString rest <;> rfl
      · exact plain.1
      · rintro high low tail same _
        exact plain.2 same
      · rintro letter tail same _
        exact plain.2 same

theorem scanString_escaped (text rest : List Char) :
    scanString (text.flatMap escapeChar ++ '\x22' :: rest) = some (text, rest) := by
  induction text with
  | nil => rw [List.flatMap_nil, List.nil_append, scanString]
  | cons char text ih =>
    rw [List.flatMap_cons, List.append_assoc, scanString_escapeChar, ih, Option.map_some]

end Strings

section Objects

def printString (text : String) : List Char :=
  '\x22' :: (text.toList.flatMap escapeChar ++ ['\x22'])

def printValue : JsonValue → Option (List Char)
  | .null => some "null".toList
  | .number n => some (printNat n)
  | .string text => some (printString text)
  | .other => none

def printField (field : String × JsonValue) : Option (List Char) :=
  (printValue field.2).map fun value => printString field.1 ++ ':' :: value

/-- The fields of an object after its opening brace. -/
def printFields : JsonObject → Option (List Char)
  | [] => some ['\x7d']
  | [field] => (printField field).map (· ++ ['\x7d'])
  | field :: rest => do
    let first ← printField field
    let others ← printFields rest
    return first ++ ',' :: others

def scanValue : List Char → Option (JsonValue × List Char)
  | 'n' :: 'u' :: 'l' :: 'l' :: rest => some (.null, rest)
  | '\x22' :: rest => (scanString rest).map fun read => (.string (String.ofList read.1), read.2)
  | text => (parseNat (text.takeWhile Char.isDigit)).map fun n => (.number n, text.dropWhile Char.isDigit)

def scanField : List Char → Option ((String × JsonValue) × List Char)
  | '\x22' :: rest =>
    match scanString rest with
    | some (name, ':' :: after) => (scanValue after).map fun read => ((String.ofList name, read.1), read.2)
    | _ => none
  | _ => none

/-- At most this many fields and at least one, and the closing brace with
nothing behind it. -/
def scanFields : Nat → List Char → Option JsonObject
  | 0, _ => none
  | more + 1, text =>
    match scanField text with
    | some (field, ['\x7d']) => some [field]
    | some (field, ',' :: rest) => (scanFields more rest).map (field :: ·)
    | _ => none

def printObject (fields : JsonObject) : Option (List Char) :=
  (printFields fields).map ('\x7b' :: ·)

def scanObject : List Char → Option JsonObject
  | ['\x7b', '\x7d'] => some []
  | '\x7b' :: rest => scanFields rest.length rest
  | _ => none

variable {value : JsonValue} {field : String × JsonValue} {fields : JsonObject} {printed rest : List Char}

/-- A printed value is read back where no digit follows it. -/
theorem scanValue_printValue (given : printValue value = some printed)
    (ends : ∀ char ∈ rest.head?, char.isDigit = false) : scanValue (printed ++ rest) = some (value, rest) := by
  cases value with
  | null =>
    cases given
    rfl
  | number n =>
    cases given
    have digits : ∀ char ∈ printNat n, char.isDigit = true := fun _ => isDigit_printNat
    have none : rest.takeWhile Char.isDigit = [] ∧ rest.dropWhile Char.isDigit = rest := by
      cases rest with
      | nil => exact ⟨rfl, rfl⟩
      | cons char rest =>
        have other : ¬ char.isDigit = true := by
          rw [ends char rfl]
          exact Bool.false_ne_true
        exact ⟨List.takeWhile_cons_of_neg other, List.dropWhile_cons_of_neg other⟩
    have first : ∀ {char tail}, printNat n ++ rest = char :: tail → char.isDigit = true := by
      intro char tail same
      obtain ⟨head, others, here⟩ := List.exists_cons_of_ne_nil (isDigits_printNat n).1
      rw [here, List.cons_append, List.cons.injEq] at same
      exact digits char (by rw [here, same.1]; exact List.mem_cons_self)
    unfold scanValue
    split
    · rename_i same
      cases first same
    · rename_i same
      cases first same
    · rw [List.takeWhile_append_of_pos digits, List.dropWhile_append_of_pos digits, none.1, none.2, List.append_nil,
        parseNat_printNat, Option.map_some]
  | string text =>
    cases given
    rw [printString, List.cons_append, List.append_assoc, List.singleton_append, scanValue, scanString_escaped,
      Option.map_some, String.ofList_toList]
  | other => cases given

theorem scanField_printField (given : printField field = some printed)
    (ends : ∀ char ∈ rest.head?, char.isDigit = false) : scanField (printed ++ rest) = some (field, rest) := by
  obtain ⟨value, inner, rfl⟩ := Option.map_eq_some_iff.mp given
  rw [printString, List.cons_append, List.cons_append, List.append_assoc, List.append_assoc, List.singleton_append,
    List.cons_append, scanField, scanString_escaped]
  simp only [scanValue_printValue inner ends, Option.map_some, String.ofList_toList]

theorem printFields_length (given : printFields fields = some printed) : fields.length ≤ printed.length := by
  induction fields generalizing printed with
  | nil => exact Nat.zero_le _
  | cons field rest ih =>
    cases rest with
    | nil =>
      obtain ⟨first, _, rfl⟩ := Option.map_eq_some_iff.mp given
      rw [List.length_append, List.length_singleton, List.length_singleton]
      exact Nat.le_add_left _ _
    | cons next rest =>
      obtain ⟨first, _, more⟩ := Option.bind_eq_some_iff.mp given
      obtain ⟨others, printed, same⟩ := Option.bind_eq_some_iff.mp more
      cases same
      have shorter := ih printed
      simp only [List.length_append, List.length_cons] at shorter ⊢
      omega

theorem scanFields_printFields (given : printFields fields = some printed) (nonempty : fields ≠ []) {most : Nat}
    (enough : fields.length ≤ most) : scanFields most printed = some fields := by
  induction fields generalizing printed most with
  | nil => exact absurd rfl nonempty
  | cons field rest ih =>
    cases most with
    | zero => cases enough
    | succ most =>
      cases rest with
      | nil =>
        obtain ⟨first, inner, rfl⟩ := Option.map_eq_some_iff.mp given
        rw [scanFields, scanField_printField inner (by simp)]
        rfl
      | cons next rest =>
        obtain ⟨first, inner, more⟩ := Option.bind_eq_some_iff.mp given
        obtain ⟨others, later, same⟩ := Option.bind_eq_some_iff.mp more
        cases same
        rw [scanFields, scanField_printField inner (by simp)]
        simp only [ih later (by simp) (Nat.le_of_succ_le_succ enough), Option.map_some]

theorem scanObject_printObject (given : printObject fields = some printed) : scanObject printed = some fields := by
  obtain ⟨inner, text, rfl⟩ := Option.map_eq_some_iff.mp given
  cases fields with
  | nil =>
    cases text
    rfl
  | cons field rest =>
    have read := scanFields_printFields text (by simp) (printFields_length text)
    unfold scanObject
    split
    · rename_i same
      cases same
      cases read
    · rename_i same
      cases same
      exact read
    · rename_i none
      exact absurd rfl (none inner)

end Objects

/-- The texts of flat objects, as the JSON library writes them, in UTF-8. -/
def jsonText : JsonLibrary where
  toVec fields :=
    match printObject fields with
    | some text => .ok (String.ofList text).toByteArray.data.toList
    | none => .error "unsupported value"
  fromSlice bytes :=
    match (String.fromUTF8? ⟨bytes.toArray⟩).bind fun text => scanObject text.toList with
    | some fields => .ok fields
    | none => .error "expected an object"
  roundTrip := by
    intro fields bytes wrote
    split at wrote
    · rename_i text printed
      cases wrote
      have decoded : String.fromUTF8? (String.ofList text).toByteArray = some (String.ofList text) := by
        rw [String.fromUTF8?, dif_pos (String.ofList text).isValidUTF8]
        rfl
      simp only [Array.toArray_toList, decoded, Option.bind_some, String.toList_ofList, scanObject_printObject printed]
    · cases wrote

/-- Every object of nulls, numbers and strings is written. -/
theorem printFields_isSome {fields : JsonObject} (plain : ∀ field ∈ fields, field.2 ≠ .other) :
    ∃ printed, printFields fields = some printed := by
  have each : ∀ field ∈ fields, ∃ printed, printField field = some printed := by
    intro field member
    obtain ⟨name, value⟩ := field
    cases value with
    | other => exact absurd rfl (plain _ member)
    | _ => exact ⟨_, rfl⟩
  induction fields with
  | nil => exact ⟨_, rfl⟩
  | cons field rest ih =>
    rw [List.forall_mem_cons] at plain each
    obtain ⟨first, printed⟩ := each.1
    cases rest with
    | nil => exact ⟨_, Option.map_eq_some_iff.mpr ⟨first, printed, rfl⟩⟩
    | cons next rest =>
      obtain ⟨others, later⟩ := ih plain.2 each.2
      exact ⟨_, Option.bind_eq_some_iff.mpr ⟨first, printed, Option.bind_eq_some_iff.mpr ⟨others, later, rfl⟩⟩⟩

/-- The formats of the source, for keys under this encoding. -/
def Formats.plain (encoding : PartEncoding) : Formats :=
  .ofJson encoding jsonText

/-- Every record of the source is written. -/
theorem Formats.plain_writes {encoding : PartEncoding} {manifest : CompletionManifest} (sized : manifest.Sized) :
    ∃ bytes, (Formats.plain encoding).toVec manifest = .ok bytes := by
  have optional : ∀ text : Option String, text.map JsonValue.string ≠ some .other ∧ some (nullable text) ≠ some .other := by
    intro text
    cases text <;> simp [nullable]
  have entries : ∀ entry ∈ manifest.table, entry.2 ≠ some .other := by
    simp [CompletionManifest.table, optional]
  have values : ∀ field ∈ written manifest.table, field.2 ≠ .other := by
    rintro field member same
    obtain ⟨entry, listed, made⟩ := List.mem_filterMap.mp member
    obtain ⟨value, here, rfl⟩ := Option.map_eq_some_iff.mp made
    exact entries entry listed (here.trans (congrArg some same))
  obtain ⟨printed, text⟩ := printFields_isSome values
  have wrote : ∃ bytes, jsonText.toVec (written manifest.table) = .ok bytes := by
    simp only [jsonText, printObject, text, Option.map_some]
    exact ⟨_, rfl⟩
  exact wrote.imp fun bytes same => (if_pos sized).trans same

end Datacrate.Remote
