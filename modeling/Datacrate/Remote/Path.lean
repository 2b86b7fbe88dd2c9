import Mathlib.Algebra.Order.BigOperators.Group.List
import Mathlib.Algebra.Order.Ring.Nat
import Mathlib.Data.List.Basic

namespace Datacrate.Remote

/-- A key of the object store: its parts, which are not empty and hold no
delimiter. -/
structure ObjectPath where
  parts : List String
  clean : ∀ part ∈ parts, part ≠ "" ∧ '/' ∉ part.toList
  deriving DecidableEq, Repr

def ObjectPath.text (path : ObjectPath) : String :=
  "/".intercalate path.parts

/-- How the store's library encodes a part of a key: percent-encoding is
injective, leaves no delimiter and makes nothing shorter. -/
structure PartEncoding where
  encode : String → String
  injective : Function.Injective encode
  clean : ∀ part, '/' ∉ (encode part).toList
  grows : ∀ part, part.length ≤ (encode part).length

/-- The parts of a text, encoded, without the empty ones. -/
def encodedParts (encoding : PartEncoding) (text : List Char) : List String :=
  ((text.splitOn '/').map fun part => encoding.encode (String.ofList part)).filter (· ≠ "")

/-- The key of a text. -/
def ObjectPath.ofText (encoding : PartEncoding) (text : String) : ObjectPath where
  parts := encodedParts encoding text.toList
  clean := by
    intro part member
    obtain ⟨inside, nonempty⟩ := List.mem_filter.mp member
    obtain ⟨raw, _, rfl⟩ := List.mem_map.mp inside
    exact ⟨by simpa using nonempty, encoding.clean _⟩

section Texts

/-- A suffix without delimiters lengthens the last part. -/
theorem splitOn_append_suffix (text : List Char) :
    ∃ init last, ∀ suffix : List Char, '/' ∉ suffix →
      (text ++ suffix).splitOn '/' = init ++ [last ++ suffix] := by
  induction text with
  | nil => exact ⟨[], [], fun suffix plain => by simp [List.splitOn_eq_singleton plain]⟩
  | cons first text ih =>
    obtain ⟨init, last, split⟩ := ih
    by_cases delimiter : first = '/'
    · refine ⟨[] :: init, last, fun suffix plain => ?_⟩
      rw [List.cons_append, List.splitOn_cons_eq_if_modifyHead, if_pos (by simp [delimiter]), split suffix plain,
        List.cons_append]
    · cases init with
      | nil =>
        refine ⟨[], first :: last, fun suffix plain => ?_⟩
        rw [List.cons_append, List.splitOn_cons_eq_if_modifyHead, if_neg (by simp [delimiter]), split suffix plain]
        rfl
      | cons head init =>
        refine ⟨(first :: head) :: init, last, fun suffix plain => ?_⟩
        rw [List.cons_append, List.splitOn_cons_eq_if_modifyHead, if_neg (by simp [delimiter]), split suffix plain]
        rfl

/-- Splitting loses the delimiters alone. -/
theorem flatten_splitOn (text : List Char) : (text.splitOn '/').flatten = text.filter (· ≠ '/') := by
  induction text with
  | nil => simp
  | cons first text ih =>
    rw [List.splitOn_cons_eq_if_modifyHead]
    by_cases delimiter : first = '/'
    · simp [delimiter, ih]
    · obtain ⟨head, rest, split⟩ := List.exists_cons_of_ne_nil (List.splitOn_ne_nil '/' text)
      rw [split] at ih ⊢
      simp only [List.flatten_cons] at ih
      simpa [delimiter] using ih

theorem filter_intercalate {parts : List (List Char)} (clean : ∀ part ∈ parts, '/' ∉ part) :
    (['/'].intercalate parts).filter (· ≠ '/') = parts.flatten := by
  induction parts with
  | nil => rfl
  | cons part parts ih =>
    rw [List.forall_mem_cons] at clean
    have kept : part.filter (· ≠ '/') = part := by
      rw [List.filter_eq_self]
      intro char member
      have other : char ≠ '/' := by
        rintro rfl
        exact clean.1 member
      simpa using other
    cases parts with
    | nil => simpa using kept
    | cons next parts =>
      rw [List.intercalate_cons_cons, List.filter_append, List.filter_append, kept, ih clean.2]
      simp

end Texts

/-- The characters of a key. -/
def ObjectPath.weight (path : ObjectPath) : Nat :=
  (path.parts.map String.length).sum

section Keys

variable (encoding : PartEncoding) (path : ObjectPath)

theorem ObjectPath.filter_text : (path.text.toList.filter (· ≠ '/')).length = path.weight := by
  have clean : ∀ part ∈ path.parts.map String.toList, '/' ∉ part := by
    intro part member
    obtain ⟨raw, inside, rfl⟩ := List.mem_map.mp member
    exact (path.clean raw inside).2
  have text : path.text.toList = ['/'].intercalate (path.parts.map String.toList) := by
    simp [ObjectPath.text]
  rw [text, filter_intercalate clean, List.length_flatten, List.map_map]
  rfl

theorem ObjectPath.weight_ofText (text : String) :
    (text.toList.filter (· ≠ '/')).length ≤ (ObjectPath.ofText encoding text).weight := by
  have dropped : ∀ parts : List String,
      ((parts.filter (· ≠ "")).map String.length).sum = (parts.map String.length).sum := by
    intro parts
    induction parts with
    | nil => rfl
    | cons part parts ih =>
      by_cases empty : part = ""
      · simpa [empty] using ih
      · simpa [empty] using ih
  unfold ObjectPath.weight ObjectPath.ofText encodedParts
  rw [dropped, List.map_map, ← flatten_splitOn, List.length_flatten]
  refine List.sum_le_sum fun part _ => ?_
  simpa using encoding.grows (String.ofList part)

/-- A nonempty suffix without delimiters makes another key. -/
theorem ObjectPath.ofText_heavier {suffix : String} (more : (suffix.toList.filter (· ≠ '/')).length ≠ 0) :
    ObjectPath.ofText encoding (path.text ++ suffix) ≠ path := by
  intro same
  have weight := ObjectPath.weight_ofText encoding (path.text ++ suffix)
  rw [same, String.toList_append, List.filter_append, List.length_append, path.filter_text] at weight
  omega

theorem PartEncoding.encode_ne_empty {part : List Char} (nonempty : part ≠ []) :
    encoding.encode (String.ofList part) ≠ "" := by
  intro empty
  have grows := encoding.grows (String.ofList part)
  rw [empty] at grows
  exact nonempty (by simpa using grows)

/-- A key with one more part after a suffix differs from one without. -/
theorem ObjectPath.ofText_deeper {left right tail : String} (leftPlain : '/' ∉ left.toList)
    (rightPlain : '/' ∉ right.toList) (leftMore : left ≠ "") (rightMore : right ≠ "")
    (deeper : encodedParts encoding tail.toList ≠ []) :
    ObjectPath.ofText encoding (path.text ++ left) ≠ ObjectPath.ofText encoding (path.text ++ right ++ "/" ++ tail) := by
  intro same
  obtain ⟨init, last, split⟩ := splitOn_append_suffix path.text.toList
  have counted : ∀ {suffix : String}, suffix ≠ "" → encoding.encode (String.ofList (last ++ suffix.toList)) ≠ "" := by
    intro suffix more
    refine encoding.encode_ne_empty ?_
    simp only [ne_eq, List.append_eq_nil_iff, not_and]
    exact fun _ empty => more (String.toList_injective empty)
  have joined : (path.text ++ right ++ "/" ++ tail).toList =
      (path.text.toList ++ right.toList) ++ '/' :: tail.toList := by simp
  have parts : encodedParts encoding (path.text ++ left).toList =
      encodedParts encoding (path.text ++ right ++ "/" ++ tail).toList := congrArg ObjectPath.parts same
  have shallow := congrArg List.length parts
  have below := List.length_pos_of_ne_nil deeper
  rw [joined, String.toList_append] at shallow
  unfold encodedParts at shallow below
  rw [List.splitOn_append_cons_self, split _ leftPlain, split _ rightPlain] at shallow
  simp only [List.map_append, List.filter_append, List.length_append, List.map_cons, List.map_nil, ne_eq,
    counted leftMore, counted rightMore, not_false_eq_true, decide_true, List.filter_cons_of_pos, List.filter_nil,
    List.length_singleton] at shallow
  simp only [ne_eq] at below
  omega

end Keys

section Percent

def escape (char : Char) : List Char :=
  if char = '/' then ['%', '2', 'F'] else if char = '%' then ['%', '2', '5'] else [char]

def unescape : List Char → List Char
  | '%' :: '2' :: 'F' :: text => '/' :: unescape text
  | '%' :: '2' :: '5' :: text => '%' :: unescape text
  | char :: text => char :: unescape text
  | [] => []

theorem unescape_escape (text : List Char) : unescape (text.flatMap escape) = text := by
  induction text with
  | nil => rfl
  | cons char text ih =>
    rw [List.flatMap_cons]
    by_cases delimiter : char = '/'
    · simp [escape, delimiter, unescape, ih]
    · by_cases percent : char = '%'
      · simp [escape, percent, unescape, ih]
      · simp [escape, delimiter, percent, unescape, ih]

/-- Percent-encoding of the delimiter and of the escape itself. -/
def percentEncoding : PartEncoding where
  encode := fun part => String.ofList (part.toList.flatMap escape)
  injective := by
    intro first second same
    have texts := congrArg unescape (String.ofList_injective same)
    rw [unescape_escape, unescape_escape] at texts
    exact String.toList_injective texts
  clean := by
    intro part
    rw [String.toList_ofList, List.mem_flatMap]
    rintro ⟨char, _, inside⟩
    by_cases delimiter : char = '/'
    · simp [escape, delimiter] at inside
    · by_cases percent : char = '%'
      · simp [escape, percent] at inside
      · rw [escape, if_neg delimiter, if_neg percent, List.mem_singleton] at inside
        exact delimiter inside.symm
  grows := by
    intro part
    rw [String.length_ofList, ← String.length_toList, List.length_flatMap]
    have each : ∀ char ∈ part.toList, 1 ≤ (escape char).length := by
      intro char _
      unfold escape
      split
      · simp
      · split <;> simp
    calc part.toList.length = (part.toList.map fun _ => 1).sum := by simp
      _ ≤ (part.toList.map fun char => (escape char).length).sum := List.sum_le_sum each

end Percent

end Datacrate.Remote
