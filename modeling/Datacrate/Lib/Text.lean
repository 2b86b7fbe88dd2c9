import Mathlib.Data.List.DropRight
import Mathlib.Data.List.TakeWhile

namespace Text

variable {α : Type}

/-- The text without blanks at its ends. -/
def trim (blank : α → Bool) (text : List α) : List α :=
  (text.dropWhile blank).rdropWhile blank

/-- No blank stands at either end. -/
def Trimmed (blank : α → Bool) (text : List α) : Prop :=
  (∀ c ∈ text.head?, blank c = false) ∧ ∀ c ∈ text.getLast?, blank c = false

section Trim

variable {blank : α → Bool} {text before after : List α}

theorem dropWhile_of_head (first : ∀ c ∈ text.head?, blank c = false) : text.dropWhile blank = text := by
  cases text with
  | nil => rfl
  | cons c rest => exact List.dropWhile_cons_of_neg (by rw [first c rfl]; exact Bool.false_ne_true)

theorem rdropWhile_of_last (last : ∀ c ∈ text.getLast?, blank c = false) : text.rdropWhile blank = text := by
  rw [List.rdropWhile_eq_self_iff]
  intro nonempty
  rw [last _ (List.getLast?_eq_some_getLast nonempty)]
  exact Bool.false_ne_true

theorem rdropWhile_append_of_all (white : ∀ c ∈ after, blank c = true) :
    (text ++ after).rdropWhile blank = text.rdropWhile blank := by
  rw [List.rdropWhile, List.reverse_append, List.dropWhile_append_of_pos, List.rdropWhile]
  intro c member
  exact white c (List.mem_reverse.mp member)

theorem trim_eq_self (trimmed : Trimmed blank text) : trim blank text = text := by
  rw [trim, dropWhile_of_head trimmed.1, rdropWhile_of_last trimmed.2]

/-- Blanks around a trimmed text are all that goes. -/
theorem trim_padded (trimmed : Trimmed blank text) (left : ∀ c ∈ before, blank c = true)
    (right : ∀ c ∈ after, blank c = true) : trim blank (before ++ text ++ after) = text := by
  rw [trim, List.append_assoc, List.dropWhile_append_of_pos left]
  by_cases empty : text = []
  · rw [empty, List.nil_append, List.dropWhile_eq_nil_iff.mpr right]
    rfl
  · rw [dropWhile_of_head, rdropWhile_append_of_all right, rdropWhile_of_last trimmed.2]
    intro c first
    rw [List.head?_append_of_ne_nil text empty] at first
    exact trimmed.1 c first

theorem trim_sublist : (trim blank text).Sublist text :=
  (List.rdropWhile_prefix blank _).sublist.trans (List.dropWhile_suffix blank).sublist

theorem trim_length_le : (trim blank text).length ≤ text.length :=
  trim_sublist.length_le

/-- Trimming keeps what is not blank. -/
theorem mem_trim {c : α} (member : c ∈ text) (solid : blank c = false) : c ∈ trim blank text := by
  have kept : c ∈ text.dropWhile blank := by
    have parts := List.takeWhile_append_dropWhile (p := blank) (l := text)
    rw [← parts, List.mem_append] at member
    refine member.resolve_left fun dropped => ?_
    rw [List.mem_takeWhile_imp dropped] at solid
    cases solid
  have parts := List.rdropWhile_append_rtakeWhile (p := blank) (l := text.dropWhile blank)
  rw [← parts, List.mem_append] at kept
  refine kept.resolve_right fun dropped => ?_
  rw [List.mem_rtakeWhile_imp dropped] at solid
  cases solid

end Trim

/-- The texts before and after the first separator. -/
def splitOnce [DecidableEq α] (separator : α) : List α → Option (List α × List α)
  | [] => none
  | c :: rest =>
    if c = separator then some ([], rest)
    else (splitOnce separator rest).map fun parts => (c :: parts.1, parts.2)

section SplitOnce

variable [DecidableEq α] {separator : α} {text first rest : List α}

theorem splitOnce_append (absent : separator ∉ first) :
    splitOnce separator (first ++ separator :: rest) = some (first, rest) := by
  induction first with
  | nil => simp [splitOnce]
  | cons c others ih =>
    rw [List.mem_cons, not_or] at absent
    rw [List.cons_append, splitOnce, if_neg (Ne.symm absent.1), ih absent.2]
    rfl

theorem splitOnce_eq_some (split : splitOnce separator text = some (first, rest)) :
    text = first ++ separator :: rest ∧ separator ∉ first := by
  induction text generalizing first with
  | nil => cases split
  | cons c others ih =>
    rw [splitOnce] at split
    split at split
    · rename_i same
      cases split
      exact ⟨by rw [same, List.nil_append], List.not_mem_nil⟩
    · rename_i other
      obtain ⟨⟨start, tail⟩, found, parts⟩ := Option.map_eq_some_iff.mp split
      cases parts
      obtain ⟨whole, absent⟩ := ih found
      exact ⟨by rw [whole, List.cons_append], by
        rw [List.mem_cons, not_or]
        exact ⟨Ne.symm other, absent⟩⟩

end SplitOnce

/-- What follows a prefix. -/
def stripPrefix [DecidableEq α] (start text : List α) : Option (List α) :=
  if text.take start.length = start then some (text.drop start.length) else none

/-- What comes before a last element. -/
def stripLast [DecidableEq α] (last : α) (text : List α) : Option (List α) :=
  if text.getLast? = some last then some text.dropLast else none

section Strip

variable [DecidableEq α] {start text rest : List α} {last : α}

theorem stripPrefix_eq_some_iff : stripPrefix start text = some rest ↔ text = start ++ rest := by
  constructor
  · intro stripped
    unfold stripPrefix at stripped
    split at stripped
    · rename_i same
      cases stripped
      have parts := List.take_append_drop start.length text
      rw [same] at parts
      exact parts.symm
    · cases stripped
  · rintro rfl
    rw [stripPrefix, List.take_left, if_pos rfl, List.drop_left]

theorem stripLast_eq_some_iff : stripLast last text = some rest ↔ text = rest ++ [last] := by
  constructor
  · intro stripped
    unfold stripLast at stripped
    split at stripped
    · rename_i ends
      cases stripped
      exact (List.dropLast_append_getLast? last ends).symm
    · cases stripped
  · rintro rfl
    rw [stripLast, List.getLast?_concat, if_pos rfl, List.dropLast_concat]

theorem splitOnce_eq_some_iff {separator : α} {first : List α} :
    splitOnce separator text = some (first, rest) ↔ text = first ++ separator :: rest ∧ separator ∉ first := by
  constructor
  · exact splitOnce_eq_some
  · rintro ⟨rfl, absent⟩
    exact splitOnce_append absent

end Strip

/-- The texts before and after the last separator. -/
def rsplitOnce [DecidableEq α] (separator : α) (text : List α) : Option (List α × List α) :=
  (splitOnce separator text.reverse).map fun parts => (parts.2.reverse, parts.1.reverse)

theorem rsplitOnce_eq_some_iff [DecidableEq α] {separator : α} {text first rest : List α} :
    rsplitOnce separator text = some (first, rest) ↔ text = first ++ separator :: rest ∧ separator ∉ rest := by
  rw [rsplitOnce, Option.map_eq_some_iff]
  constructor
  · rintro ⟨⟨before, after⟩, split, parts⟩
    cases parts
    obtain ⟨whole, absent⟩ := splitOnce_eq_some split
    refine ⟨List.reverse_inj.mp ?_, by rwa [List.mem_reverse]⟩
    rw [whole]
    simp
  · rintro ⟨rfl, absent⟩
    refine ⟨(rest.reverse, first.reverse), splitOnce_eq_some_iff.mpr ⟨by simp, by rwa [List.mem_reverse]⟩, by simp⟩

theorem not_mem_intercalate {c separator : α} {parts : List (List α)} (other : c ≠ separator)
    (absent : ∀ part ∈ parts, c ∉ part) : c ∉ [separator].intercalate parts := by
  induction parts with
  | nil => exact List.not_mem_nil
  | cons part rest ih =>
    rw [List.forall_mem_cons] at absent
    by_cases last : rest = []
    · rw [last, List.intercalate_singleton]
      exact absent.1
    · rw [List.intercalate_cons_of_ne_nil last, List.mem_append, List.mem_append, List.mem_singleton, not_or, not_or]
      exact ⟨⟨absent.1, other⟩, ih absent.2⟩

theorem intercalate_ne_nil {separator : α} {parts : List (List α)} (some : parts ≠ [])
    (nonempty : ∀ part ∈ parts, part ≠ []) : [separator].intercalate parts ≠ [] := by
  cases parts with
  | nil => exact absurd rfl some
  | cons part rest =>
    rw [List.forall_mem_cons] at nonempty
    by_cases last : rest = []
    · rw [last, List.intercalate_singleton]
      exact nonempty.1
    · rw [List.intercalate_cons_of_ne_nil last, List.append_assoc]
      exact List.append_ne_nil_of_left_ne_nil nonempty.1 _

end Text
