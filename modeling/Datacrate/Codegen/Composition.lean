import Datacrate.Codegen.Declared
import Mathlib.Algebra.Order.BigOperators.Group.List

namespace Datacrate.Codegen

open Arrow
open Remote (isWhitespace)

/-- The number of open brackets after a text. -/
def depthAfter (depth : Nat) (text : List Char) : Nat :=
  text.foldl bracketDepth depth

theorem depthAfter_append (depth : Nat) (first second : List Char) :
    depthAfter depth (first ++ second) = depthAfter (depthAfter depth first) second :=
  List.foldl_append

/-- The scanner reads on behind a text that it does not cut. -/
theorem scanCommas_append {depth : Nat} {text : List Char} (uncut : (scanCommas depth text).2 = [])
    (rest : List Char) :
    scanCommas depth (text ++ rest) =
      (text ++ (scanCommas (depthAfter depth text) rest).1, (scanCommas (depthAfter depth text) rest).2) := by
  induction text generalizing depth with
  | nil => rfl
  | cons c others ih =>
    rw [scanCommas] at uncut
    split at uncut
    · cases uncut
    · rename_i inside
      rw [List.cons_append, scanCommas, if_neg inside, ih uncut]
      rfl

theorem scanCommas_uncut {depth : Nat} {text : List Char} (uncut : (scanCommas depth text).2 = []) :
    (scanCommas depth text).1 = text := by
  have whole := scanCommas_append uncut []
  rw [List.append_nil] at whole
  rw [whole]
  exact List.append_nil text

/-- A name has no character that a scanner looks for. -/
def AdmissibleName (name : List Char) : Prop :=
  name ≠ [] ∧ ∀ c ∈ name, c ≠ ',' ∧ c ≠ ':' ∧ c ≠ '<' ∧ c ≠ '>'

instance (name : List Char) : Decidable (AdmissibleName name) :=
  decidable_of_iff ((!name.isEmpty && name.all fun c => c != ',' && c != ':' && c != '<' && c != '>') = true)
    (by simp [AdmissibleName, and_assoc])

theorem scanCommas_plain {text : List Char} (plain : ∀ c ∈ text, c ≠ ',' ∧ c ≠ '<' ∧ c ≠ '>') (depth : Nat) :
    (scanCommas depth text).2 = [] ∧ depthAfter depth text = depth := by
  induction text with
  | nil => exact ⟨rfl, rfl⟩
  | cons c rest ih =>
    rw [List.forall_mem_cons] at plain
    obtain ⟨comma, opening, closing⟩ := plain.1
    have same : bracketDepth depth c = depth := by rw [bracketDepth, if_neg opening, if_neg closing]
    have later := ih plain.2
    rw [scanCommas, if_neg (fun both => comma both.1), depthAfter, List.foldl_cons, same]
    exact later

/-- No text is cut at a comma, and only the last may end inside brackets. -/
def Composable : List (List Char) → Prop
  | [] => True
  | text :: rest => (scanCommas 0 text).2 = [] ∧ (rest ≠ [] → depthAfter 0 text = 0) ∧ Composable rest

theorem splitTopLevelCommas_intercalate {parts : List (List Char)} (nonempty : parts ≠ [])
    (composable : Composable parts) : splitTopLevelCommas ([','].intercalate parts) = parts := by
  induction parts with
  | nil => exact absurd rfl nonempty
  | cons part rest ih =>
    obtain ⟨uncut, closed, later⟩ := composable
    by_cases last : rest = []
    · rw [last, List.intercalate_singleton, splitTopLevelCommas, uncut, scanCommas_uncut uncut]
    · have split := ih last later
      rw [splitTopLevelCommas] at split
      rw [List.intercalate_cons_of_ne_nil last, List.append_assoc, splitTopLevelCommas, scanCommas_append uncut,
        closed last, List.singleton_append, scanCommas, if_pos ⟨rfl, rfl⟩, List.append_nil, split]

theorem isWhitespace_toLower {c : Char} (white : isWhitespace c = true) : c.toLower = c := by
  unfold Char.toLower
  split
  · rename_i upper
    obtain ⟨least, most⟩ := upper
    simp [isWhitespace, UInt32.le_iff_toNat_le] at least most white
    omega
  · rfl

/-- Blanks around a wrapped text, in any case of the wrapper's letters, are
all that goes when the text is trimmed. -/
theorem trim_wrapped {wrapper cased inner before after : List Char} {first : Char} {more : List Char}
    (letters : wrapper = first :: more) (solid : isWhitespace first = false)
    (lower : toAsciiLowercase cased = wrapper) (left : ∀ c ∈ before, isWhitespace c = true)
    (right : ∀ c ∈ after, isWhitespace c = true) :
    trim (before ++ (cased ++ inner ++ ['>']) ++ after) = cased ++ inner ++ ['>'] := by
  refine Text.trim_padded ⟨fun c head => ?_, fun c last => ?_⟩ left right
  · cases cased with
    | nil =>
      rw [letters] at lower
      cases lower
    | cons d others =>
      cases head
      rw [letters, toAsciiLowercase, List.map_cons, List.cons.injEq] at lower
      by_contra white
      rw [Bool.not_eq_false] at white
      rw [isWhitespace_toLower white] at lower
      rw [lower.1, solid] at white
      cases white
  · rw [List.getLast?_concat, Option.mem_some_iff] at last
    rw [← last]
    decide

theorem stripWrapper_wrapped {wrapper cased inner : List Char} (lower : toAsciiLowercase cased = wrapper) :
    stripWrapper wrapper (cased ++ inner ++ ['>']) = some inner := by
  have same : wrapper.length = cased.length := by rw [← lower, toAsciiLowercase, List.length_map]
  rw [stripWrapper, same, List.append_assoc, List.take_left, List.drop_left, if_pos lower]
  dsimp only
  rw [List.getLast?_concat, if_pos rfl, List.dropLast_concat]

theorem stripWrapper_other {first c : Char} {more rest : List Char} (other : c.toLower ≠ first) :
    stripWrapper (first :: more) (c :: rest) = none := by
  rw [stripWrapper, if_neg]
  rw [List.length_cons, List.take_succ_cons, toAsciiLowercase, List.map_cons, List.cons.injEq]
  exact fun same => other same.1

section Wrapped

variable {before cased inner after : List Char}

theorem declaredTypeToArrow_wrapped_array (lower : toAsciiLowercase cased = "array<".toList)
    (left : ∀ c ∈ before, isWhitespace c = true) (right : ∀ c ∈ after, isWhitespace c = true) :
    declaredTypeToArrow (before ++ (cased ++ inner ++ ['>']) ++ after) =
      (declaredTypeToArrow inner).map fun itemType => .list (Field.new "item" itemType true) := by
  apply declaredTypeToArrow_array
  rw [trim_wrapped rfl (by decide) lower left right, stripWrapper_wrapped lower]

theorem declaredTypeToArrow_wrapped_struct (lower : toAsciiLowercase cased = "struct<".toList)
    (left : ∀ c ∈ before, isWhitespace c = true) (right : ∀ c ∈ after, isWhitespace c = true) :
    declaredTypeToArrow (before ++ (cased ++ inner ++ ['>']) ++ after) =
      ((splitTopLevelCommas inner).mapM declaredField).map .struct := by
  have trimmed := @trim_wrapped _ cased inner before after _ _ rfl (by decide) lower left right
  apply declaredTypeToArrow_struct
  · rw [trimmed]
    cases cased with
    | nil => cases lower
    | cons c others =>
      have head : c.toLower = 's' := (List.cons.inj lower).1
      exact stripWrapper_other (by rw [head]; decide)
  · rw [trimmed, stripWrapper_wrapped lower]

end Wrapped

def arrayText (text : List Char) : List Char :=
  "array<".toList ++ text ++ ['>']

/-- `struct<f1:t1,...,fn:tn>`. -/
def structText (names texts : List (List Char)) : List Char :=
  "struct<".toList ++ [','].intercalate (List.zipWith (fun name text => name ++ ':' :: text) names texts) ++ ['>']

theorem declaredTypeToArrow_arrayText (text : List Char) :
    declaredTypeToArrow (arrayText text) =
      (declaredTypeToArrow text).map fun itemType => .list (Field.new "item" itemType true) := by
  have read := @declaredTypeToArrow_wrapped_array [] "array<".toList text [] rfl
    (fun c member => absurd member List.not_mem_nil) (fun c member => absurd member List.not_mem_nil)
  rw [List.nil_append, List.append_nil] at read
  exact read

theorem declaredTypeToArrow_structText (names texts : List (List Char)) :
    declaredTypeToArrow (structText names texts) =
      ((splitTopLevelCommas ([','].intercalate
        (List.zipWith (fun name text => name ++ ':' :: text) names texts))).mapM declaredField).map .struct := by
  have read := @declaredTypeToArrow_wrapped_struct [] "struct<".toList
    ([','].intercalate (List.zipWith (fun name text => name ++ ':' :: text) names texts)) [] rfl
    (fun c member => absurd member List.not_mem_nil) (fun c member => absurd member List.not_mem_nil)
  rw [List.nil_append, List.append_nil] at read
  exact read

theorem scanCommas_name {name : List Char} (admissible : AdmissibleName name) (depth : Nat) :
    (scanCommas depth (name ++ [':'])).2 = [] ∧ depthAfter depth (name ++ [':']) = depth := by
  apply scanCommas_plain
  rw [List.forall_mem_append, List.forall_mem_singleton]
  exact ⟨fun c member => ⟨(admissible.2 c member).1, (admissible.2 c member).2.2⟩, by decide⟩

theorem scanCommas_named {name : List Char} (admissible : AdmissibleName name) (depth : Nat) (text : List Char) :
    (scanCommas depth (name ++ ':' :: text)).2 = (scanCommas depth text).2 ∧
      depthAfter depth (name ++ ':' :: text) = depthAfter depth text := by
  obtain ⟨uncut, same⟩ := scanCommas_name admissible depth
  have whole : name ++ ':' :: text = name ++ [':'] ++ text := by rw [List.append_assoc]; rfl
  rw [whole, scanCommas_append uncut, same, depthAfter_append, same]
  exact ⟨rfl, rfl⟩

theorem composable_named {names texts : List (List Char)} (lengths : names.length = texts.length)
    (admissible : ∀ name ∈ names, AdmissibleName name) (composable : Composable texts) :
    Composable (List.zipWith (fun name text => name ++ ':' :: text) names texts) := by
  induction names generalizing texts with
  | nil => exact trivial
  | cons name others ih =>
    cases texts with
    | nil => exact trivial
    | cons text rest =>
      rw [List.forall_mem_cons] at admissible
      obtain ⟨uncut, closed, later⟩ := composable
      obtain ⟨cuts, depth⟩ := scanCommas_named admissible.1 0 text
      refine ⟨cuts.trans uncut, fun more => depth.trans (closed fun last => more ?_),
        ih (Nat.succ.inj lengths) admissible.2 later⟩
      rw [last, List.zipWith_nil_right]

/-- The fields of the struct that a composed text stands for. -/
def composedFields (names : List (List Char)) (types : List DataType) : List Field :=
  List.zipWith (fun name type => Field.new (String.ofList (trim name)) type true) names types

theorem declaredField_named {name text : List Char} (admissible : AdmissibleName name) :
    declaredField (name ++ ':' :: text) =
      (declaredTypeToArrow text).map fun type => Field.new (String.ofList (trim name)) type true := by
  have absent : ':' ∉ name := fun member => (admissible.2 ':' member).2.1 rfl
  rw [declaredField, Text.splitOnce_append absent, Option.bind_some]

theorem mapM_declaredField {names : List (List Char)} {texts : List (List Char × DataType)}
    (admissible : ∀ name ∈ names, AdmissibleName name)
    (accepted : ∀ text ∈ texts, declaredTypeToArrow text.1 = some text.2) :
    (List.zipWith (fun name text => name ++ ':' :: text) names (texts.map (·.1))).mapM declaredField =
      some (composedFields names (texts.map (·.2))) := by
  induction names generalizing texts with
  | nil => rfl
  | cons name others ih =>
    cases texts with
    | nil => rfl
    | cons text rest =>
      rw [List.forall_mem_cons] at admissible accepted
      rw [List.map_cons, List.zipWith_cons_cons, List.mapM_cons, declaredField_named admissible.1, accepted.1,
        ih admissible.2 accepted.2]
      rfl

theorem declaredTypeToArrow_composable {names : List (List Char)} {texts : List (List Char × DataType)}
    (nonempty : texts ≠ []) (lengths : names.length = texts.length)
    (admissible : ∀ name ∈ names, AdmissibleName name)
    (accepted : ∀ text ∈ texts, declaredTypeToArrow text.1 = some text.2)
    (composable : Composable (texts.map (·.1))) :
    declaredTypeToArrow (structText names (texts.map (·.1))) =
      some (.struct (composedFields names (texts.map (·.2)))) := by
  have parts := composable_named (lengths.trans (List.length_map _).symm) admissible composable
  have some : List.zipWith (fun name text => name ++ ':' :: text) names (texts.map (·.1)) ≠ [] := by
    rw [ne_eq, List.zipWith_eq_nil_iff, ← List.length_eq_zero_iff, ← List.length_eq_zero_iff, List.length_map,
      lengths, or_self, List.length_eq_zero_iff]
    exact nonempty
  rw [declaredTypeToArrow_structText, splitTopLevelCommas_intercalate some parts,
    mapM_declaredField admissible accepted]
  rfl

/-- The part gives a field of that name. -/
def Named (name part : List Char) : Prop :=
  ∃ before type, Text.splitOnce ':' part = some (before, type) ∧ trim before = name

/-- A part that starts inside a short text has no long name: either the text
names it, or the name goes on behind the text, past a comma. -/
theorem not_named_suffix {name text rest : List Char} (short : text.length < name.length) (plain : ',' ∉ name)
    (behind : rest = [] ∨ rest.head? = some ',') : ¬ Named name (text ++ rest) := by
  rintro ⟨before, type, split, trimmed⟩
  obtain ⟨whole, absent⟩ := Text.splitOnce_eq_some split
  have within : name.length ≤ before.length := by
    rw [← trimmed]
    exact Text.trim_length_le
  have past : text.length < before.length := short.trans_le within
  have comma : ',' ∈ before := by
    rcases behind with rfl | head
    · have length := congrArg List.length whole
      rw [List.append_nil, List.length_append, List.length_cons] at length
      omega
    · cases rest with
      | nil => cases head
      | cons c others =>
        cases head
        have at_text := congrArg (·[text.length]?) whole
        simp only [List.getElem?_append_right le_rfl, Nat.sub_self, List.getElem?_cons_zero,
          List.getElem?_append_left past] at at_text
        exact List.mem_of_getElem? at_text.symm
  refine plain ?_
  rw [← trimmed]
  exact Text.mem_trim comma (by decide)

theorem scanCommas_head {depth : Nat} {rest : List Char} (behind : rest = [] ∨ rest.head? = some ',') :
    (scanCommas depth rest).1 = [] ∨ (scanCommas depth rest).1.head? = some ',' := by
  rcases behind with rfl | head
  · exact Or.inl rfl
  · cases rest with
    | nil => cases head
    | cons c others =>
      cases head
      rw [scanCommas]
      split
      · exact Or.inl rfl
      · exact Or.inr rfl

/-- Where a short text is cut, a part starts that has not the long name. -/
theorem uncut_of_named {name text rest : List Char} {depth : Nat} (short : text.length < name.length)
    (plain : ',' ∉ name) (behind : rest = [] ∨ rest.head? = some ',')
    (named : ∀ part ∈ (scanCommas depth (text ++ rest)).2, Named name part) : (scanCommas depth text).2 = [] := by
  induction text generalizing depth with
  | nil => rfl
  | cons c others ih =>
    have shorter : others.length < name.length := (Nat.lt_succ_self _).trans short
    rw [List.cons_append, scanCommas] at named
    rw [scanCommas]
    by_cases cut : c = ',' ∧ depth = 0
    · rw [if_pos cut, List.forall_mem_cons] at named
      have uncut := ih shorter named.2
      rw [scanCommas_append uncut] at named
      exact absurd named.1 (not_named_suffix shorter plain (scanCommas_head behind))
    · rw [if_neg cut] at named ⊢
      exact ih shorter named

theorem named_of_declaredField {part name : List Char} {field : Field} (read : declaredField part = some field)
    (same : field.name = String.ofList name) : Named name part := by
  obtain ⟨⟨before, type⟩, split, typed⟩ := Option.bind_eq_some_iff.mp read
  obtain ⟨dataType, _, rfl⟩ := Option.map_eq_some_iff.mp typed
  exact ⟨before, type, split, String.ofList_inj.mp same⟩

theorem named_of_mapM {parts : List (List Char)} {fields : List Field} {name : List Char}
    (read : parts.mapM declaredField = some fields) (same : ∀ field ∈ fields, field.name = String.ofList name) :
    parts.length = fields.length ∧ ∀ part ∈ parts, Named name part := by
  induction parts generalizing fields with
  | nil =>
    cases read
    exact ⟨rfl, fun part member => absurd member List.not_mem_nil⟩
  | cons part rest ih =>
    rw [List.mapM_cons] at read
    obtain ⟨field, first, more⟩ := Option.bind_eq_some_iff.mp read
    obtain ⟨others, later, whole⟩ := Option.bind_eq_some_iff.mp more
    cases whole
    rw [List.forall_mem_cons] at same
    obtain ⟨lengths, named⟩ := ih later same.2
    exact ⟨congrArg Nat.succ lengths, List.forall_mem_cons.mpr ⟨named_of_declaredField first same.1, named⟩⟩

/-- Under one long name there are at most as many parts as texts, and fewer
unless the texts compose. -/
theorem composable_of_named {name : List Char} (admissible : AdmissibleName name) {texts : List (List Char)}
    (nonempty : texts ≠ []) (short : ∀ text ∈ texts, text.length < name.length) {depth : Nat}
    (named : ∀ part ∈ (scanCommas depth ([','].intercalate (texts.map fun text => name ++ ':' :: text))).2,
      Named name part) :
    (scanCommas depth ([','].intercalate (texts.map fun text => name ++ ':' :: text))).2.length + 1 ≤ texts.length ∧
      ((scanCommas depth ([','].intercalate (texts.map fun text => name ++ ':' :: text))).2.length + 1 =
        texts.length → depth = 0 → Composable texts) := by
  have plain : ',' ∉ name := fun member => (admissible.2 ',' member).1 rfl
  induction texts generalizing depth with
  | nil => exact absurd rfl nonempty
  | cons text rest ih =>
    rw [List.forall_mem_cons] at short
    have colon : (scanCommas depth (name ++ [':'])).2 = [] := (scanCommas_name admissible depth).1
    by_cases last : rest = []
    · rw [last, List.map_singleton, List.intercalate_singleton] at named ⊢
      have cuts := (scanCommas_named admissible depth text).1
      rw [cuts] at named
      have uncut := @uncut_of_named name text [] depth short.1 plain (Or.inl rfl) (by rw [List.append_nil]; exact named)
      rw [cuts, uncut]
      exact ⟨le_rfl, fun _ zero => ⟨zero ▸ uncut, fun more => absurd rfl more, trivial⟩⟩
    · have others : rest.map (fun text => name ++ ':' :: text) ≠ [] := fun empty => last (List.map_eq_nil_iff.mp empty)
      have whole : [','].intercalate ((text :: rest).map fun text => name ++ ':' :: text) =
          name ++ ':' :: (text ++ ',' :: [','].intercalate (rest.map fun text => name ++ ':' :: text)) := by
        rw [List.map_cons, List.intercalate_cons_of_ne_nil others]
        simp
      rw [whole, (scanCommas_named admissible depth _).1] at named ⊢
      have uncut := uncut_of_named short.1 plain (Or.inr rfl) named
      rw [scanCommas_append uncut] at named ⊢
      dsimp only at named ⊢
      rw [scanCommas] at named ⊢
      by_cases closed : depthAfter depth text = 0
      · rw [if_pos ⟨rfl, closed⟩] at named ⊢
        rw [List.forall_mem_cons] at named
        obtain ⟨most, composes⟩ := ih last short.2 named.2
        rw [List.length_cons, List.length_cons]
        refine ⟨Nat.succ_le_succ most, fun same zero => ?_⟩
        rw [zero] at uncut closed
        exact ⟨uncut, fun _ => closed, composes (Nat.succ.inj same) rfl⟩
      · rw [if_neg fun both => closed both.2] at named ⊢
        obtain ⟨most, _⟩ := ih last short.2 named
        rw [List.length_cons]
        dsimp only
        exact ⟨most.trans (Nat.le_succ _), fun same => by omega⟩

theorem zipWith_replicate_left {α β γ : Type} (f : α → β → γ) (x : α) (ys : List β) :
    List.zipWith f (List.replicate ys.length x) ys = ys.map (f x) := by
  induction ys with
  | nil => rfl
  | cons y rest ih => rw [List.length_cons, List.replicate_succ, List.zipWith_cons_cons, ih, List.map_cons]

/-- Only composable texts make a struct of their types under all names. -/
theorem composable_of_structText {texts : List (List Char × DataType)} (nonempty : texts ≠ [])
    (composes : ∀ names : List (List Char), names.length = texts.length → (∀ name ∈ names, AdmissibleName name) →
      declaredTypeToArrow (structText names (texts.map (·.1))) =
        some (.struct (composedFields names (texts.map (·.2))))) :
    Composable (texts.map (·.1)) := by
  let name := List.replicate ((texts.map (·.1.length)).sum + 1) 'x'
  have letters : ∀ c ∈ name, c = 'x' := fun c member => List.eq_of_mem_replicate member
  have admissible : AdmissibleName name :=
    ⟨List.cons_ne_nil _ _, fun c member => by rw [letters c member]; decide⟩
  have trimmed : trim name = name := by
    refine Text.trim_eq_self ⟨fun c head => ?_, fun c last => ?_⟩
    · rw [letters c (List.mem_of_mem_head? head)]
      decide
    · rw [letters c (List.mem_of_mem_getLast? last)]
      decide
  have short : ∀ text ∈ texts.map (·.1), text.length < name.length := by
    intro text member
    obtain ⟨pair, inTexts, rfl⟩ := List.mem_map.mp member
    have bound := List.single_le_sum (fun _ _ => Nat.zero_le _) _ (List.mem_map_of_mem (f := (·.1.length)) inTexts)
    rw [List.length_replicate]
    omega
  have read := composes (List.replicate texts.length name) List.length_replicate
    fun other member => by rw [List.eq_of_mem_replicate member]; exact admissible
  have joined := zipWith_replicate_left (fun name text => name ++ ':' :: text) name (texts.map (·.1))
  have fields := zipWith_replicate_left (fun name type => Field.new (String.ofList (trim name)) type true) name
    (texts.map (·.2))
  rw [List.length_map] at joined fields
  rw [declaredTypeToArrow_structText, joined, composedFields, fields] at read
  obtain ⟨made, parts, whole⟩ := Option.map_eq_some_iff.mp read
  cases whole
  obtain ⟨lengths, named⟩ := @named_of_mapM _ _ name parts (by
    intro field member
    obtain ⟨type, _, rfl⟩ := List.mem_map.mp member
    exact congrArg String.ofList trimmed)
  rw [splitTopLevelCommas] at lengths named
  rw [List.forall_mem_cons] at named
  rw [List.length_cons, List.length_map, List.length_map] at lengths
  have some : texts.map (·.1) ≠ [] := fun empty => nonempty (List.map_eq_nil_iff.mp empty)
  exact (composable_of_named admissible some short named.2).2 (by rw [lengths, List.length_map]) rfl

/-- Accepted texts compose to lists and structs of their types exactly when no
text has a comma outside brackets and only the last leaves brackets open. -/
theorem declared_types_compose_iff {texts : List (List Char × DataType)} (nonempty : texts ≠ [])
    (accepted : ∀ text ∈ texts, declaredTypeToArrow text.1 = some text.2) :
    ((∀ text ∈ texts, declaredTypeToArrow (arrayText text.1) = some (.list (Field.new "item" text.2 true))) ∧
      ∀ names : List (List Char), names.length = texts.length → (∀ name ∈ names, AdmissibleName name) →
        declaredTypeToArrow (structText names (texts.map (·.1))) =
          some (.struct (composedFields names (texts.map (·.2))))) ↔
      Composable (texts.map (·.1)) := by
  constructor
  · intro composes
    exact composable_of_structText nonempty composes.2
  · intro composable
    refine ⟨fun text member => ?_, fun names lengths admissible =>
      declaredTypeToArrow_composable nonempty lengths admissible accepted composable⟩
    rw [declaredTypeToArrow_arrayText, accepted text member]
    rfl

theorem declaredTypeToArrow_varchar : declaredTypeToArrow "varchar(50)".toList = some (.leaf .utf8) := by
  rw [declaredTypeToArrow_primitive rfl rfl]
  rfl

theorem declaredTypeToArrow_numeric : declaredTypeToArrow "int(10,2)".toList = some (.leaf .int32) := by
  rw [declaredTypeToArrow_primitive rfl rfl]
  rfl

theorem varchar_list_composes :
    declaredTypeToArrow "struct<tag:varchar(50),tags:array<varchar(50)>>".toList =
      some (.struct [Field.new "tag" (.leaf .utf8) true,
        Field.new "tags" (.list (Field.new "item" (.leaf .utf8) true)) true]) := by
  have composes := @declared_types_compose_iff [("varchar(50)".toList, .leaf .utf8),
    (arrayText "varchar(50)".toList, .list (Field.new "item" (.leaf .utf8) true))] (List.cons_ne_nil _ _) (by
    rw [List.forall_mem_cons, List.forall_mem_singleton]
    refine ⟨declaredTypeToArrow_varchar, ?_⟩
    rw [declaredTypeToArrow_arrayText, declaredTypeToArrow_varchar]
    rfl)
  exact (composes.mpr ⟨by decide, by decide, by decide, by decide, trivial⟩).2 ["tag".toList, "tags".toList] rfl (by decide)

/-- The comma of a scale ends the field. -/
theorem scale_does_not_compose :
    ¬ ∀ texts : List (List Char × DataType), texts ≠ [] →
      (∀ text ∈ texts, declaredTypeToArrow text.1 = some text.2) →
      (∀ text ∈ texts, declaredTypeToArrow (arrayText text.1) = some (.list (Field.new "item" text.2 true))) ∧
        ∀ names : List (List Char), names.length = texts.length → (∀ name ∈ names, AdmissibleName name) →
          declaredTypeToArrow (structText names (texts.map (·.1))) =
            some (.struct (composedFields names (texts.map (·.2)))) := by
  intro compose
  have accepted : ∀ text ∈ [("int(10,2)".toList, DataType.leaf .int32)],
      declaredTypeToArrow text.1 = some text.2 :=
    List.forall_mem_singleton.mpr declaredTypeToArrow_numeric
  have read := (compose _ (List.cons_ne_nil _ _) accepted).2 ["a".toList] rfl (by decide)
  rw [declaredTypeToArrow_structText] at read
  have parts : splitTopLevelCommas ([','].intercalate (List.zipWith (fun name text => name ++ ':' :: text)
      ["a".toList] ["int(10,2)".toList])) = ["a:int(10".toList, "2)".toList] := rfl
  have unnamed : declaredField "2)".toList = none := rfl
  rw [List.map_singleton, parts, List.mapM_cons, List.mapM_cons, unnamed] at read
  cases first : declaredField "a:int(10".toList with
  | none =>
    rw [first] at read
    cases read
  | some field =>
    rw [first] at read
    cases read

end Datacrate.Codegen
