import Mathlib.Algebra.Order.Ring.Nat
import Mathlib.Data.List.Basic
import Mathlib.Tactic.NormNum

namespace Numeral

/-- The number that decimal digits stand for. -/
def decimal (digits : List Char) : Nat :=
  Nat.ofDigitChars 10 digits 0

def IsDigits (text : List Char) : Prop :=
  text ≠ [] ∧ text.all Char.isDigit = true

instance (text : List Char) : Decidable (IsDigits text) :=
  inferInstanceAs (Decidable (_ ∧ _))

def parseNat (digits : List Char) : Option Nat :=
  if IsDigits digits then some (decimal digits) else none

/-- Whether there is a minus sign, and the text without a sign. -/
def splitSign : List Char → Bool × List Char
  | '-' :: digits => (true, digits)
  | '+' :: digits => (false, digits)
  | digits => (false, digits)

/-- A signed integer of this many bits: an optional sign and digits. -/
def parseInt (bits : Nat) (text : List Char) : Option Int :=
  (parseNat (splitSign text).2).bind fun magnitude =>
    if (splitSign text).1 then if magnitude ≤ 2 ^ (bits - 1) then some (-(magnitude : Int)) else none
    else if magnitude < 2 ^ (bits - 1) then some magnitude else none

def stripPlus : List Char → List Char
  | '+' :: digits => digits
  | digits => digits

/-- An unsigned integer of this many bits. It takes no minus sign. -/
def parseUnsigned (bits : Nat) (text : List Char) : Option Nat :=
  (parseNat (stripPlus text)).bind fun magnitude =>
    if magnitude < 2 ^ bits then some magnitude else none

/-- The digits of a number, as they are printed. -/
def printNat (n : Nat) : List Char :=
  Nat.toDigits 10 n

def printInt (value : Int) : List Char :=
  if value < 0 then '-' :: printNat value.natAbs else printNat value.natAbs

theorem isDigit_printNat {n : Nat} {c : Char} (member : c ∈ printNat n) : c.isDigit = true :=
  Nat.isDigit_of_mem_toDigits (by omega) (by omega) member

theorem isDigits_printNat (n : Nat) : IsDigits (printNat n) :=
  ⟨Nat.toDigits_ne_nil, List.all_eq_true.mpr fun _ member => isDigit_printNat member⟩

theorem decimal_printNat (n : Nat) : decimal (printNat n) = n :=
  Nat.ofDigitChars_ten_toDigits

theorem parseNat_printNat (n : Nat) : parseNat (printNat n) = some n := by
  rw [parseNat, if_pos (isDigits_printNat n), decimal_printNat]

theorem splitSign_digits {digits : List Char} (isDigits : IsDigits digits) : splitSign digits = (false, digits) := by
  obtain ⟨nonempty, all⟩ := isDigits
  cases digits with
  | nil => exact absurd rfl nonempty
  | cons c rest =>
    rw [List.all_cons, Bool.and_eq_true] at all
    unfold splitSign
    split
    · rename_i same
      cases same
      exact absurd all.1 (by decide)
    · rename_i same
      cases same
      exact absurd all.1 (by decide)
    · rfl

theorem parseInt_digits {bits : Nat} {digits : List Char} (isDigits : IsDigits digits) :
    parseInt bits digits = if decimal digits < 2 ^ (bits - 1) then some (decimal digits : Int) else none := by
  rw [parseInt, splitSign_digits isDigits, parseNat, if_pos isDigits]
  rfl

theorem parseInt_negative {bits : Nat} {digits : List Char} (isDigits : IsDigits digits) :
    parseInt bits ('-' :: digits) = if decimal digits ≤ 2 ^ (bits - 1) then some (-(decimal digits : Int)) else none := by
  have signed : splitSign ('-' :: digits) = (true, digits) := rfl
  rw [parseInt, signed, parseNat, if_pos isDigits]
  rfl

theorem parseInt_positive {bits : Nat} {digits : List Char} (isDigits : IsDigits digits) :
    parseInt bits ('+' :: digits) = if decimal digits < 2 ^ (bits - 1) then some (decimal digits : Int) else none := by
  have signed : splitSign ('+' :: digits) = (false, digits) := rfl
  rw [parseInt, signed, parseNat, if_pos isDigits]
  rfl

/-- A printed integer in range is read back. -/
theorem parseInt_printInt {bits : Nat} {value : Int} (least : -2 ^ (bits - 1) ≤ value)
    (most : value < 2 ^ (bits - 1)) : parseInt bits (printInt value) = some value := by
  have power : ((2 ^ (bits - 1) : Nat) : Int) = 2 ^ (bits - 1) := by norm_num
  unfold printInt
  split
  · rename_i negative
    rw [parseInt_negative (isDigits_printNat _), decimal_printNat, if_pos (by omega)]
    exact congrArg some (by omega)
  · rename_i positive
    rw [parseInt_digits (isDigits_printNat _), decimal_printNat, if_pos (by omega)]
    exact congrArg some (by omega)

theorem parseUnsigned_printNat {bits n : Nat} (most : n < 2 ^ bits) : parseUnsigned bits (printNat n) = some n := by
  have unsigned : stripPlus (printNat n) = printNat n := by
    unfold stripPlus
    split
    · rename_i rest same
      have plus := @isDigit_printNat n '+' (by rw [same]; exact List.mem_cons_self)
      exact absurd plus (by decide)
    · rfl
  rw [parseUnsigned, unsigned, parseNat_printNat, Option.bind_some, if_pos most]

end Numeral
