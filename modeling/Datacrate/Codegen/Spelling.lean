import Datacrate.Codegen.Composition

namespace Datacrate.Codegen

open Arrow
open Remote (isWhitespace)

def White (text : List Char) : Prop :=
  ∀ c ∈ text, isWhitespace c = true

instance (text : List Char) : Decidable (White text) :=
  decidable_of_iff (text.all isWhitespace = true) List.all_eq_true

/-- A written field of a struct, with what is around its name. -/
structure FieldSpelling where
  before : List Char
  name : List Char
  after : List Char
  dataType : DataType
  text : List Char

def FieldSpelling.field (spelling : FieldSpelling) : Field :=
  Field.new (String.ofList spelling.name) spelling.dataType true

def FieldSpelling.written (spelling : FieldSpelling) : List Char :=
  spelling.before ++ spelling.name ++ spelling.after ++ ':' :: spelling.text

/-- The name is written as it is, with white space around it. -/
structure FieldSpelling.Proper (spelling : FieldSpelling) : Prop where
  admissible : AdmissibleName spelling.name
  trimmed : Text.Trimmed isWhitespace spelling.name
  before : White spelling.before
  after : White spelling.after

/-- The texts that stand for a type: its tokens and keywords in any letter
case, with white space around types and names. -/
inductive Spells : DataType → List Char → Prop
  | primitive {token cased before after : List Char} {dataType : DataType} :
      primitiveFromToken (String.ofList token) = some dataType → toAsciiLowercase cased = token →
      White before → White after → Spells dataType (before ++ cased ++ after)
  | array {itemType : DataType} {inner cased before after : List Char} :
      Spells itemType inner → toAsciiLowercase cased = "array".toList → White before → White after →
      Spells (.list (Field.new "item" itemType true)) (before ++ (cased ++ ['<'] ++ inner ++ ['>']) ++ after)
  | struct {spellings : List FieldSpelling} {cased before after : List Char} :
      spellings ≠ [] → (∀ spelling ∈ spellings, spelling.Proper) →
      (∀ spelling ∈ spellings, Spells spelling.dataType spelling.text) →
      toAsciiLowercase cased = "struct".toList → White before → White after →
      Spells (.struct (spellings.map FieldSpelling.field))
        (before ++ (cased ++ ['<'] ++ [','].intercalate (spellings.map FieldSpelling.written) ++ ['>']) ++ after)

/-- No character that a scanner or the suffix rule looks for. -/
def Plain (text : List Char) : Prop :=
  ∀ c ∈ text, c ≠ ',' ∧ c ≠ '<' ∧ c ≠ '>' ∧ c ≠ '('

instance (text : List Char) : Decidable (Plain text) :=
  decidable_of_iff ((text.all fun c => c != ',' && c != '<' && c != '>' && c != '(') = true)
    (by simp [Plain, and_assoc])

instance (text : List Char) : Decidable (Text.Trimmed isWhitespace text) :=
  decidable_of_iff ((text.head?.all fun c => !isWhitespace c) && text.getLast?.all fun c => !isWhitespace c)
    (by simp [Text.Trimmed, Option.all_eq_true])

def primitiveTokens : List String :=
  ["boolean", "bool", "int8", "tinyint", "int16", "smallint", "int32", "integer", "int", "int64", "bigint", "uint8",
    "uint16", "uint32", "uint64", "float32", "float", "real", "float64", "double", "double precision", "string",
    "varchar", "text", "character varying", "char"]

theorem primitiveFromToken_mem {token : String} {dataType : DataType}
    (known : primitiveFromToken token = some dataType) : token ∈ primitiveTokens := by
  unfold primitiveFromToken at known
  split at known <;> first | decide | cases known

theorem primitiveTokens_plain :
    ∀ token ∈ primitiveTokens, Plain token.toList ∧ Text.Trimmed isWhitespace token.toList := by
  decide

/-- A token is plain in any letter case. -/
theorem plain_of_lower {cased : List Char} (plain : Plain (toAsciiLowercase cased)) : Plain cased := by
  intro c member
  have lower := plain c.toLower (List.mem_map_of_mem member)
  refine ⟨?_, ?_, ?_, ?_⟩ <;> rintro rfl
  · exact lower.1 (by decide)
  · exact lower.2.1 (by decide)
  · exact lower.2.2.1 (by decide)
  · exact lower.2.2.2 (by decide)

theorem plain_of_white {text : List Char} (white : White text) : Plain text := by
  intro c member
  have blank := white c member
  refine ⟨?_, ?_, ?_, ?_⟩ <;> rintro rfl <;> exact absurd blank (by decide)

theorem trimmed_of_lower {cased : List Char} (trimmed : Text.Trimmed isWhitespace (toAsciiLowercase cased)) :
    Text.Trimmed isWhitespace cased := by
  have solid : ∀ c : Char, isWhitespace c.toLower = false → isWhitespace c = false := by
    intro c lower
    by_contra white
    rw [Bool.not_eq_false] at white
    rw [isWhitespace_toLower white, white] at lower
    cases lower
  rw [Text.Trimmed, toAsciiLowercase, List.head?_map, List.getLast?_map] at trimmed
  exact ⟨fun c head => solid c (trimmed.1 _ (Option.mem_map_of_mem Char.toLower head)),
    fun c last => solid c (trimmed.2 _ (Option.mem_map_of_mem Char.toLower last))⟩

/-- Behind this much nesting, the text is not cut and closes what it opens. -/
def ClosedAt (least : Nat) (text : List Char) : Prop :=
  ∀ depth, least ≤ depth → (scanCommas depth text).2 = [] ∧ depthAfter depth text = depth

theorem ClosedAt.append {least : Nat} {first second : List Char} (closed : ClosedAt least first)
    (later : ClosedAt least second) : ClosedAt least (first ++ second) := by
  intro depth enough
  obtain ⟨uncut, same⟩ := closed depth enough
  rw [scanCommas_append uncut, depthAfter_append, same]
  exact later depth enough

theorem closedAt_plain {text : List Char} (plain : Plain text) (least : Nat) : ClosedAt least text :=
  fun depth _ => scanCommas_plain (fun c member =>
    ⟨(plain c member).1, (plain c member).2.1, (plain c member).2.2.1⟩) depth

theorem ClosedAt.brackets {inner : List Char} (closed : ClosedAt 1 inner) : ClosedAt 0 (['<'] ++ inner ++ ['>']) := by
  intro depth _
  obtain ⟨uncut, same⟩ := closed (depth + 1) (Nat.succ_le_succ (Nat.zero_le depth))
  have opened : scanCommas depth (['<'] ++ inner ++ ['>']) =
      ('<' :: (scanCommas (depth + 1) (inner ++ ['>'])).1, (scanCommas (depth + 1) (inner ++ ['>'])).2) := rfl
  have depths : depthAfter depth (['<'] ++ inner ++ ['>']) = depthAfter (depth + 1) (inner ++ ['>']) := rfl
  rw [opened, depths, scanCommas_append uncut, depthAfter_append, same]
  exact ⟨rfl, rfl⟩

/-- Inside brackets a comma does not cut. -/
theorem closedAt_comma : ClosedAt 1 [','] := by
  intro depth enough
  have nested : ¬ (',' = ',' ∧ depth = 0) := fun both => by omega
  rw [scanCommas, if_neg nested]
  exact ⟨rfl, rfl⟩

theorem closedAt_intercalate {parts : List (List Char)} (closed : ∀ part ∈ parts, ClosedAt 1 part) :
    ClosedAt 1 ([','].intercalate parts) := by
  induction parts with
  | nil => exact closedAt_plain (by decide) 1
  | cons part rest ih =>
    rw [List.forall_mem_cons] at closed
    by_cases last : rest = []
    · rw [last, List.intercalate_singleton]
      exact closed.1
    · rw [List.intercalate_cons_of_ne_nil last]
      exact (closed.1.append closedAt_comma).append (ih closed.2)

theorem ClosedAt.mono {least more : Nat} {text : List Char} (closed : ClosedAt least text) (le : least ≤ more) :
    ClosedAt more text :=
  fun depth enough => closed depth (le.trans enough)

theorem closedAt_written {spelling : FieldSpelling} (proper : spelling.Proper) (closed : ClosedAt 0 spelling.text) :
    ClosedAt 0 spelling.written := by
  have name : ClosedAt 0 spelling.name := fun depth _ => scanCommas_plain (fun c member =>
    ⟨(proper.admissible.2 c member).1, (proper.admissible.2 c member).2.2⟩) depth
  have whole : spelling.written =
      spelling.before ++ spelling.name ++ spelling.after ++ [':'] ++ spelling.text := by
    rw [FieldSpelling.written, List.append_assoc _ [':']]
    rfl
  rw [whole]
  exact ((((closedAt_plain (plain_of_white proper.before) 0).append name).append
    (closedAt_plain (plain_of_white proper.after) 0)).append (closedAt_plain (by decide) 0)).append closed

theorem closedAt_wrapped {cased inner before after : List Char} (keyword : Plain (toAsciiLowercase cased))
    (left : White before) (right : White after) (closed : ClosedAt 1 inner) :
    ClosedAt 0 (before ++ (cased ++ ['<'] ++ inner ++ ['>']) ++ after) := by
  have whole : before ++ (cased ++ ['<'] ++ inner ++ ['>']) ++ after =
      before ++ cased ++ (['<'] ++ inner ++ ['>']) ++ after := by
    simp only [List.append_assoc]
  rw [whole]
  exact (((closedAt_plain (plain_of_white left) 0).append (closedAt_plain (plain_of_lower keyword) 0)).append
    closed.brackets).append (closedAt_plain (plain_of_white right) 0)

/-- A spelled type is one part among the fields of a struct. -/
theorem Spells.closed {dataType : DataType} {text : List Char} (spelled : Spells dataType text) :
    ClosedAt 0 text := by
  induction spelled with
  | primitive known lower left right =>
    have token := (primitiveTokens_plain _ (primitiveFromToken_mem known)).1
    rw [String.toList_ofList, ← lower] at token
    exact ((closedAt_plain (plain_of_white left) 0).append (closedAt_plain (plain_of_lower token) 0)).append
      (closedAt_plain (plain_of_white right) 0)
  | array _ lower left right ih =>
    exact closedAt_wrapped (by rw [lower]; decide) left right (ih.mono (Nat.zero_le 1))
  | @struct spellings cased before after _ proper _ lower left right ih =>
    refine closedAt_wrapped (by rw [lower]; decide) left right (closedAt_intercalate fun part member => ?_)
    obtain ⟨spelling, inSpellings, rfl⟩ := List.mem_map.mp member
    exact (closedAt_written (proper spelling inSpellings) (ih spelling inSpellings)).mono (Nat.zero_le 1)

theorem composable_of_closed {parts : List (List Char)} (closed : ∀ part ∈ parts, ClosedAt 0 part) :
    Composable parts := by
  induction parts with
  | nil => exact trivial
  | cons part rest ih =>
    rw [List.forall_mem_cons] at closed
    obtain ⟨uncut, same⟩ := closed.1 0 le_rfl
    exact ⟨uncut, fun _ => same, ih closed.2⟩

theorem stripWrapper_token {wrapper text : List Char} (bracket : '<' ∈ wrapper)
    (plain : Plain (toAsciiLowercase text)) : stripWrapper wrapper text = none := by
  rw [stripWrapper, if_neg]
  intro lower
  rw [← lower] at bracket
  obtain ⟨c, member, same⟩ := List.mem_map.mp bracket
  exact (plain c.toLower (List.mem_map_of_mem (List.mem_of_mem_take member))).2.1 same

theorem declaredTypeToArrow_token {token cased before after : List Char} {dataType : DataType}
    (known : primitiveFromToken (String.ofList token) = some dataType) (lower : toAsciiLowercase cased = token)
    (left : White before) (right : White after) :
    declaredTypeToArrow (before ++ cased ++ after) = some dataType := by
  obtain ⟨plain, ends⟩ := primitiveTokens_plain _ (primitiveFromToken_mem known)
  rw [String.toList_ofList, ← lower] at plain ends
  have letters := plain_of_lower plain
  have trimmed : trim (before ++ cased ++ after) = cased := Text.trim_padded (trimmed_of_lower ends) left right
  have suffix : cased.takeWhile (· != '(') = cased := by
    rw [List.takeWhile_eq_self_iff]
    intro c member
    exact bne_iff_ne.mpr (letters c member).2.2.2
  rw [declaredTypeToArrow_primitive, trimmed, suffix, trim, Text.trim_eq_self (trimmed_of_lower ends), lower, known]
  · rw [trimmed]
    exact stripWrapper_token (by decide) plain
  · rw [trimmed]
    exact stripWrapper_token (by decide) plain

theorem declaredField_written {spelling : FieldSpelling} (proper : spelling.Proper)
    (read : declaredTypeToArrow spelling.text = some spelling.dataType) :
    declaredField spelling.written = some spelling.field := by
  have absent : ':' ∉ spelling.before ++ spelling.name ++ spelling.after := by
    rw [List.mem_append, List.mem_append]
    rintro ((member | member) | member)
    · exact absurd (proper.before ':' member) (by decide)
    · exact (proper.admissible.2 ':' member).2.1 rfl
    · exact absurd (proper.after ':' member) (by decide)
  have name : trim (spelling.before ++ spelling.name ++ spelling.after) = spelling.name :=
    Text.trim_padded proper.trimmed proper.before proper.after
  rw [declaredField, FieldSpelling.written, Text.splitOnce_append absent, Option.bind_some, read, name]
  rfl

theorem mapM_written {spellings : List FieldSpelling} (proper : ∀ spelling ∈ spellings, spelling.Proper)
    (read : ∀ spelling ∈ spellings, declaredTypeToArrow spelling.text = some spelling.dataType) :
    (spellings.map FieldSpelling.written).mapM declaredField = some (spellings.map FieldSpelling.field) := by
  induction spellings with
  | nil => rfl
  | cons spelling rest ih =>
    rw [List.forall_mem_cons] at proper read
    rw [List.map_cons, List.mapM_cons, declaredField_written proper.1 read.1, ih proper.2 read.2]
    rfl

/-- Whatever way a type is written, the parser reads that type. -/
theorem declaredTypeToArrow_spelled {dataType : DataType} {text : List Char} (spelled : Spells dataType text) :
    declaredTypeToArrow text = some dataType := by
  induction spelled with
  | primitive known lower left right => exact declaredTypeToArrow_token known lower left right
  | @array itemType inner cased before after _ lower left right ih =>
    have wrapper : toAsciiLowercase (cased ++ ['<']) = "array<".toList := by
      rw [toAsciiLowercase, List.map_append, ← toAsciiLowercase, lower]
      rfl
    rw [declaredTypeToArrow_wrapped_array wrapper left right, ih]
    rfl
  | @struct spellings cased before after nonempty proper spelled lower left right ih =>
    have wrapper : toAsciiLowercase (cased ++ ['<']) = "struct<".toList := by
      rw [toAsciiLowercase, List.map_append, ← toAsciiLowercase, lower]
      rfl
    have parts : splitTopLevelCommas ([','].intercalate (spellings.map FieldSpelling.written)) =
        spellings.map FieldSpelling.written := by
      refine splitTopLevelCommas_intercalate (fun empty => nonempty (List.map_eq_nil_iff.mp empty))
        (composable_of_closed fun part member => ?_)
      obtain ⟨spelling, inSpellings, rfl⟩ := List.mem_map.mp member
      exact closedAt_written (proper spelling inSpellings) (spelled spelling inSpellings).closed
    rw [declaredTypeToArrow_wrapped_struct wrapper left right, parts, mapM_written proper ih]
    rfl

/-- ` STRUCT< id : BigInt,tags:Array< varchar > >`. -/
def exampleSpellings : List FieldSpelling :=
  [⟨[' '], "id".toList, [' '], .leaf .int64, " BigInt".toList⟩,
    ⟨[], "tags".toList, [], .list (Field.new "item" (.leaf .utf8) true), "Array< varchar > ".toList⟩]

theorem exampleSpellings_proper : ∀ spelling ∈ exampleSpellings, spelling.Proper := by
  rw [exampleSpellings, List.forall_mem_cons, List.forall_mem_singleton]
  exact ⟨⟨by decide, by decide, by decide, by decide⟩, ⟨by decide, by decide, by decide, by decide⟩⟩

theorem example_spelled :
    declaredTypeToArrow " STRUCT< id : BigInt,tags:Array< varchar > >".toList =
      some (.struct (exampleSpellings.map FieldSpelling.field)) := by
  have number : Spells (.leaf .int64) " BigInt".toList :=
    @Spells.primitive "bigint".toList "BigInt".toList [' '] [] _ rfl rfl (by decide) (by decide)
  have text : Spells (.leaf .utf8) " varchar ".toList :=
    @Spells.primitive "varchar".toList "varchar".toList [' '] [' '] _ rfl rfl (by decide) (by decide)
  have list : Spells (.list (Field.new "item" (.leaf .utf8) true)) "Array< varchar > ".toList :=
    @Spells.array _ _ "Array".toList [] [' '] text rfl (by decide) (by decide)
  have spelled : ∀ spelling ∈ exampleSpellings, Spells spelling.dataType spelling.text := by
    rw [exampleSpellings, List.forall_mem_cons, List.forall_mem_singleton]
    exact ⟨number, list⟩
  exact declaredTypeToArrow_spelled (@Spells.struct exampleSpellings "STRUCT".toList [' '] []
    (List.cons_ne_nil _ _) exampleSpellings_proper spelled rfl (by decide) (by decide))

end Datacrate.Codegen
