import Datacrate.Lib.Numeral
import Datacrate.Lib.Text
import Mathlib.Tactic.Ring

namespace Datacrate.Query

open Numeral

/-- The error of a refused amount. The unchecked product of a sign and a
fraction could also overflow, which panics. -/
inductive AmountFailure where
  | invalidAmount (row : Nat) (value : String)
  | overflow
  deriving DecidableEq, Repr

def inI128 (value : Int) : Bool :=
  -2 ^ 127 ≤ value && value < 2 ^ 127

def checkedMul (a b : Int) : Option Int :=
  if inI128 (a * b) then some (a * b) else none

def checkedAdd (a b : Int) : Option Int :=
  if inI128 (a + b) then some (a + b) else none

def parseI128 (text : List Char) : Option Int :=
  parseInt 128 text

/-- The text without a minus sign or else without a plus sign. -/
def stripSign : List Char → List Char
  | '-' :: digits => digits
  | '+' :: digits => digits
  | digits => digits

/-- The greatest amount of ten digits, in hundredths. -/
def maxAmount : Int :=
  9999999999

/-- The amount in hundredths. The length of the fraction counts bytes, which
are characters where all are ASCII digits. -/
def parseAmount (row : Nat) (value : String) : Except AmountFailure Int :=
  let invalid : Except AmountFailure Int := .error (.invalidAmount row value)
  match Text.splitOnce '.' value.toList with
  | none => invalid
  | some (whole, frac) =>
    let digits := stripSign whole
    if digits.isEmpty || !digits.all Char.isDigit || frac.length != 2 || !frac.all Char.isDigit then invalid
    else
      match parseI128 whole with
      | none => invalid
      | some whole =>
        match parseI128 frac with
        | none => invalid
        | some frac =>
          let sign : Int := if value.toList.head? = some '-' then -1 else 1
          if !inI128 (sign * frac) then .error .overflow
          else
            match (checkedMul whole 100).bind fun scaled => checkedAdd scaled (sign * frac) with
            | some amount => if -maxAmount ≤ amount && amount ≤ maxAmount then .ok amount else invalid
            | none => invalid

def IsSign (sign : List Char) : Prop :=
  sign = [] ∨ sign = ['+'] ∨ sign = ['-']

/-- An optional sign, digits, a dot and two digits, with their value in
hundredths. -/
def Denotes (text : List Char) (amount : Int) : Prop :=
  ∃ sign digits frac : List Char, IsSign sign ∧ IsDigits digits ∧ IsDigits frac ∧ frac.length = 2 ∧
    text = sign ++ digits ++ '.' :: frac ∧
    amount = (if sign = ['-'] then -1 else 1) * (decimal digits * 100 + decimal frac : Int)

/-- The amount with two decimals. -/
def formatAmount (amount : Int) : String :=
  String.ofList ((if amount < 0 then ['-'] else []) ++ printNat (amount.natAbs / 100) ++
    ['.', Nat.digitChar (amount.natAbs % 100 / 10), Nat.digitChar (amount.natAbs % 10)])

theorem stripSign_split (whole : List Char) : ∃ sign, IsSign sign ∧ whole = sign ++ stripSign whole := by
  unfold stripSign
  split
  · exact ⟨['-'], Or.inr (Or.inr rfl), rfl⟩
  · exact ⟨['+'], Or.inr (Or.inl rfl), rfl⟩
  · exact ⟨[], Or.inl rfl, rfl⟩

theorem digit_ne {digits : List Char} (isDigits : IsDigits digits) {c : Char} (other : c.isDigit = false) :
    c ∉ digits := by
  intro member
  rw [List.all_eq_true.mp isDigits.2 c member] at other
  cases other

theorem head_ne {digits : List Char} (isDigits : IsDigits digits) {c : Char} (other : c.isDigit = false)
    (rest : List Char) : (digits ++ rest).head? ≠ some c := by
  intro head
  rw [List.head?_append_of_ne_nil digits isDigits.1] at head
  exact digit_ne isDigits other (List.mem_of_mem_head? head)

section Signed

variable {sign digits : List Char}

theorem stripSign_append (signed : IsSign sign) (isDigits : IsDigits digits) : stripSign (sign ++ digits) = digits := by
  rcases signed with rfl | rfl | rfl
  · rw [List.nil_append]
    have minus := head_ne isDigits (c := '-') (by decide) []
    have plus := head_ne isDigits (c := '+') (by decide) []
    rw [List.append_nil] at minus plus
    unfold stripSign
    split
    · exact absurd rfl minus
    · exact absurd rfl plus
    · rfl
  · rfl
  · rfl

theorem starts_with_minus (signed : IsSign sign) (isDigits : IsDigits digits) (rest : List Char) :
    (sign ++ digits ++ rest).head? = some '-' ↔ sign = ['-'] := by
  rcases signed with rfl | rfl | rfl
  · exact iff_of_false (by rw [List.nil_append]; exact head_ne isDigits (by decide) rest) (by simp)
  · exact iff_of_false (by simp) (by simp)
  · exact iff_of_true rfl rfl

/-- The integer part is read with its sign, unless it is out of range. -/
theorem parseI128_signed (signed : IsSign sign) (isDigits : IsDigits digits) :
    parseI128 (sign ++ digits) = some ((if sign = ['-'] then -1 else 1) * (decimal digits : Int)) ∨
      parseI128 (sign ++ digits) = none ∧ 2 ^ 127 ≤ decimal digits := by
  rcases signed with rfl | rfl | rfl
  · rw [List.nil_append, parseI128, parseInt_digits isDigits]
    split
    · exact Or.inl (by simp)
    · exact Or.inr ⟨rfl, by omega⟩
  · rw [List.singleton_append, parseI128, parseInt_positive isDigits]
    split
    · exact Or.inl (by simp)
    · exact Or.inr ⟨rfl, by omega⟩
  · rw [List.singleton_append, parseI128, parseInt_negative isDigits]
    split
    · exact Or.inl (by simp)
    · exact Or.inr ⟨rfl, by omega⟩

end Signed

theorem decimal_pair_lt {frac : List Char} (isDigits : IsDigits frac) (length : frac.length = 2) :
    decimal frac < 100 := by
  obtain ⟨a, b, rfl⟩ := List.length_eq_two.mp length
  have all := isDigits.2
  simp [Char.isDigit, UInt32.le_iff_toNat_le] at all
  simp [decimal, Nat.ofDigitChars_cons]
  omega

theorem parseI128_frac {frac : List Char} (isDigits : IsDigits frac) (length : frac.length = 2) :
    parseI128 frac = some (decimal frac : Int) := by
  have small := decimal_pair_lt isDigits length
  rw [parseI128, parseInt_digits isDigits, if_pos (by omega)]

theorem isDigits_check {digits : List Char} (isDigits : IsDigits digits) :
    (digits.isEmpty || !digits.all Char.isDigit) = false := by
  rw [isDigits.2, Bool.not_true, Bool.or_false, List.isEmpty_eq_false_iff]
  exact isDigits.1

theorem inI128_iff {value : Int} : inI128 value = true ↔ -2 ^ 127 ≤ value ∧ value < 2 ^ 127 := by
  rw [inI128, Bool.and_eq_true, decide_eq_true_iff, decide_eq_true_iff]

/-- The checked sum is the amount, or it overflows far beyond the range. -/
theorem checked_sum {toward : Int} (unit : toward = -1 ∨ toward = 1) {units cents : Nat} (small : cents < 100) :
    ((checkedMul (toward * units) 100).bind fun scaled => checkedAdd scaled (toward * cents)) =
        some (toward * (units * 100 + cents)) ∨
      ((checkedMul (toward * units) 100).bind fun scaled => checkedAdd scaled (toward * cents)) = none ∧
        maxAmount < units := by
  have sum : toward * units * 100 + toward * cents = toward * (units * 100 + cents) := by ring
  unfold checkedMul
  split
  · rw [Option.bind_some, checkedAdd, sum]
    split
    · exact Or.inl rfl
    · rename_i beyond
      rw [inI128_iff] at beyond
      refine Or.inr ⟨rfl, ?_⟩
      rcases unit with rfl | rfl <;> rw [maxAmount] <;> omega
  · rename_i beyond
    rw [inI128_iff] at beyond
    refine Or.inr ⟨rfl, ?_⟩
    rcases unit with rfl | rfl <;> rw [maxAmount] <;> omega

/-- A text of the right form is refused exactly when it is out of range. -/
theorem parseAmount_denoted (row : Nat) {value : String} {amount : Int} (denotes : Denotes value.toList amount) :
    parseAmount row value =
      if -maxAmount ≤ amount ∧ amount ≤ maxAmount then .ok amount else .error (.invalidAmount row value) := by
  obtain ⟨sign, digits, frac, signed, isDigits, isFrac, length, text, rfl⟩ := denotes
  have dot : '.' ∉ sign ++ digits := by
    rw [List.mem_append, not_or]
    refine ⟨?_, digit_ne isDigits (by decide)⟩
    rcases signed with rfl | rfl | rfl <;> decide
  have small := decimal_pair_lt isFrac length
  have minus := starts_with_minus signed isDigits ('.' :: frac)
  have checks : ((digits.isEmpty || !digits.all Char.isDigit) || frac.length != 2 || !frac.all Char.isDigit) = false := by
    rw [isDigits_check isDigits, length, isFrac.2]
    rfl
  unfold parseAmount
  rw [text, Text.splitOnce_append dot]
  simp only [stripSign_append signed isDigits, checks, parseI128_frac isFrac length, minus, Bool.false_eq_true, if_false]
  generalize direction : (if sign = ['-'] then -1 else 1 : Int) = toward
  have unit : toward = -1 ∨ toward = 1 := by
    rw [← direction]
    split <;> simp
  have whole := parseI128_signed signed isDigits
  rw [direction] at whole
  generalize decimal digits = units at whole ⊢
  generalize decimal frac = cents at small ⊢
  have huge : maxAmount < units →
      ¬ (-maxAmount ≤ toward * (units * 100 + cents : Int) ∧ toward * (units * 100 + cents : Int) ≤ maxAmount) := by
    intro large
    rw [maxAmount] at large ⊢
    rcases unit with rfl | rfl <;> omega
  rcases whole with read | ⟨unread, large⟩
  · have fits : inI128 (toward * cents) = true := by
      rw [inI128_iff]
      rcases unit with rfl | rfl <;> omega
    rw [read]
    simp only [fits, Bool.not_true, Bool.false_eq_true, if_false]
    rcases checked_sum unit small with sum | ⟨beyond, large⟩
    · rw [sum]
      simp only [Bool.and_eq_true, decide_eq_true_eq]
    · rw [beyond, if_neg (huge large)]
  · have large : maxAmount < units := by
      rw [maxAmount]
      omega
    rw [unread, if_neg (huge large)]

/-- Everything else is refused by one of the checks. -/
theorem parseAmount_undenoted (row : Nat) {value : String} (undenoted : ∀ amount, ¬ Denotes value.toList amount) :
    parseAmount row value = .error (.invalidAmount row value) := by
  unfold parseAmount
  split
  · rfl
  · rename_i whole frac split
    obtain ⟨text, _⟩ := Text.splitOnce_eq_some split
    obtain ⟨sign, signed, parts⟩ := stripSign_split whole
    dsimp only
    rw [if_pos]
    by_contra checks
    simp only [Bool.or_eq_true, Bool.not_eq_true', bne_iff_ne, not_or, not_not, Bool.not_eq_true,
      List.isEmpty_eq_false_iff, Bool.not_eq_false] at checks
    obtain ⟨⟨⟨nonempty, digits⟩, length⟩, fracDigits⟩ := checks
    have some : frac ≠ [] := by
      intro empty
      rw [empty] at length
      cases length
    exact undenoted _ ⟨sign, stripSign whole, frac, signed, ⟨nonempty, digits⟩, ⟨some, fracDigits⟩, length,
      by rw [text, ← parts], rfl⟩

theorem denotes_formatAmount (amount : Int) : Denotes (formatAmount amount).toList amount := by
  have tens : amount.natAbs % 100 / 10 < 10 := by omega
  have ones : amount.natAbs % 10 < 10 := by omega
  refine ⟨if amount < 0 then ['-'] else [], printNat (amount.natAbs / 100),
    [Nat.digitChar (amount.natAbs % 100 / 10), Nat.digitChar (amount.natAbs % 10)], ?_, isDigits_printNat _, ?_, rfl,
    String.toList_ofList, ?_⟩
  · split
    · exact Or.inr (Or.inr rfl)
    · exact Or.inl rfl
  · refine ⟨List.cons_ne_nil _ _, ?_⟩
    rw [List.all_cons, List.all_cons, Nat.isDigit_digitChar, Nat.isDigit_digitChar, decide_eq_true tens,
      decide_eq_true ones]
    rfl
  · rw [decimal_printNat, decimal, Nat.ofDigitChars_cons_digitChar_of_lt_ten tens,
      Nat.ofDigitChars_cons_digitChar_of_lt_ten ones, Nat.ofDigitChars_nil]
    split
    · rw [if_pos rfl]
      omega
    · rw [if_neg (by simp)]
      omega

/-- An amount is accepted exactly when its text has the documented form and
its value is in range, as that value; all else is the one error, and every
amount in range is read back from its two-decimal text. -/
theorem parse_amount_exact :
    (∀ row value amount, parseAmount row value = .ok amount ↔
      Denotes value.toList amount ∧ -maxAmount ≤ amount ∧ amount ≤ maxAmount) ∧
    (∀ row value failure, parseAmount row value = .error failure → failure = .invalidAmount row value) ∧
    ∀ row amount, -maxAmount ≤ amount → amount ≤ maxAmount → parseAmount row (formatAmount amount) = .ok amount := by
  refine ⟨fun row value amount => ⟨fun parsed => ?_, fun accepted => ?_⟩, fun row value failure failed => ?_,
    fun row amount least most => ?_⟩
  · by_cases denoted : ∃ other, Denotes value.toList other
    · obtain ⟨other, denotes⟩ := denoted
      rw [parseAmount_denoted row denotes] at parsed
      split at parsed
      · rename_i range
        cases parsed
        exact ⟨denotes, range⟩
      · cases parsed
    · rw [parseAmount_undenoted row (not_exists.mp denoted)] at parsed
      cases parsed
  · rw [parseAmount_denoted row accepted.1, if_pos accepted.2]
  · by_cases denoted : ∃ other, Denotes value.toList other
    · obtain ⟨other, denotes⟩ := denoted
      rw [parseAmount_denoted row denotes] at failed
      split at failed
      · cases failed
      · cases failed
        rfl
    · rw [parseAmount_undenoted row (not_exists.mp denoted)] at failed
      cases failed
      rfl
  · rw [parseAmount_denoted row (denotes_formatAmount amount), if_pos ⟨least, most⟩]

end Datacrate.Query
