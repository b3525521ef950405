import Assembler.Proofs.Text.Name
import Mathlib.Data.List.Induction

/-!
# Numbers in decimal

What digits denote is said here digit by digit, without saying how a number is read.  There is no
bound on the digits, and zeros in front change nothing.  The reader of numerals takes exactly the
texts that denote a number, and a number that is written in decimal is read back, filled up with
zeros or not.

## Main definitions

* `Decimal` : digits and the number that they denote.
* `number?` : the number that a text denotes, however large.

## Main results

* `decimal_iff`, `number?_eq_some_iff`, `readNumeral?_eq_some_iff_decimal` : readers take exactly
  the texts that denote a number.
* `number?_toDigits`, `number?_padded` : numbers are read back.
* `length_padded` : a number that is not too large fills its width.
-/

namespace Assembler.Text

/-- Digits denote a number in base ten: a digit its value, and a further digit ten times the number
before it and its value. -/
inductive Decimal : List Char → Nat → Prop
  | digit {c : Char} (hdigit : c.isDigit = true) : Decimal [c] (c.toNat - '0'.toNat)
  | append {front : List Char} {c : Char} {n : Nat} (hfront : Decimal front n)
      (hdigit : c.isDigit = true) :
      Decimal (front ++ [c]) (10 * n + (c.toNat - '0'.toNat))

variable {text : List Char} {limit n : Nat}

private theorem numeralValue_append (front : List Char) (c : Char) :
    numeralValue (front ++ [c]) = 10 * numeralValue front + (c.toNat - '0'.toNat) := by
  rw [numeralValue, Nat.ofDigitChars_append, Nat.ofDigitChars_cons, Nat.ofDigitChars_nil]
  rfl

theorem Decimal.ne_nil (h : Decimal text n) : text ≠ [] := by
  cases h with
  | digit => exact List.cons_ne_nil _ _
  | append => exact List.concat_ne_nil _ _

theorem Decimal.isDigit (h : Decimal text n) : ∀ c ∈ text, c.isDigit = true := by
  induction h with
  | digit hdigit =>
    intro c hc
    rwa [List.mem_singleton.mp hc]
  | append _ hdigit ih =>
    intro c hc
    rcases List.mem_append.mp hc with hfront | hlast
    · exact ih c hfront
    · rwa [List.mem_singleton.mp hlast]

theorem Decimal.numeralValue_eq (h : Decimal text n) : numeralValue text = n := by
  induction h with
  | digit => simp [numeralValue, Nat.ofDigitChars_cons, Nat.ofDigitChars_nil]
  | append _ _ ih => rw [numeralValue_append, ih]

/-- Digits, if there are any, denote their value. -/
theorem decimal_numeralValue (hne : text ≠ []) (h : ∀ c ∈ text, c.isDigit = true) :
    Decimal text (numeralValue text) := by
  induction text using List.reverseRecOn with
  | nil => exact absurd rfl hne
  | append_singleton front c ih =>
    have hlast : c.isDigit = true := h c (by simp)
    have hfront : ∀ d ∈ front, d.isDigit = true := fun d hd => h d (List.mem_append_left _ hd)
    rw [numeralValue_append]
    by_cases hnil : front = []
    · rw [hnil]
      simpa [numeralValue, Nat.ofDigitChars_nil] using Decimal.digit hlast
    · exact .append (ih hnil hfront) hlast

private theorem isNumeral_iff :
    isNumeral text = true ↔ text ≠ [] ∧ ∀ c ∈ text, c.isDigit = true := by
  simp [isNumeral]

/-- What a numeral denotes is its value. -/
theorem decimal_iff : Decimal text n ↔ isNumeral text = true ∧ numeralValue text = n := by
  constructor
  · intro h
    exact ⟨isNumeral_iff.mpr ⟨h.ne_nil, h.isDigit⟩, h.numeralValue_eq⟩
  · rintro ⟨hnumeral, rfl⟩
    obtain ⟨hne, hdigits⟩ := isNumeral_iff.mp hnumeral
    exact decimal_numeralValue hne hdigits

/-- The numerals that are read are those that denote a number within the limit. -/
theorem readNumeral?_eq_some_iff_decimal :
    readNumeral? limit text = some n ↔ Decimal text n ∧ n ≤ limit := by
  rw [readNumeral?_eq_some_iff, decimal_iff, and_assoc]

private theorem decimal_toDigits (n : Nat) : Decimal (Nat.toDigits 10 n) n :=
  decimal_iff.mpr ⟨isNumeral_toDigits n, numeralValue_toDigits n⟩

/-- Zeros in front change nothing. -/
theorem Decimal.zeros (h : Decimal text n) (count : Nat) :
    Decimal (List.replicate count '0' ++ text) n := by
  induction count with
  | zero => exact h
  | succ count ih =>
    refine decimal_iff.mpr ⟨isNumeral_iff.mpr ⟨by simp [h.ne_nil], fun c hc => ?_⟩, ?_⟩
    · rcases List.mem_append.mp hc with hzero | hdigit
      · rw [List.eq_of_mem_replicate hzero]
        rfl
      · exact h.isDigit c hdigit
    · rw [List.replicate_succ, List.cons_append, ← ih.numeralValue_eq, numeralValue,
        Nat.ofDigitChars_cons]
      rfl

theorem decimal_padded (width n : Nat) : Decimal (padded width n).toList n := by
  rw [padded, String.toList_ofList]
  exact (decimal_toDigits n).zeros _

/-- A number that has at most `width` digits is filled up to that width. -/
theorem length_padded {width : Nat} (h : (Nat.toDigits 10 n).length ≤ width) :
    (padded width n).toList.length = width := by
  rw [padded, String.toList_ofList, List.length_append, List.length_replicate]
  exact Nat.sub_add_cancel h

/-! ### Numbers of any size -/

/-- The number that a text denotes. -/
def number? (text : List Char) : Option Nat :=
  if isNumeral text then some (numeralValue text) else none

theorem number?_eq_some_iff : number? text = some n ↔ Decimal text n := by
  rw [number?, decimal_iff, Option.ite_none_right_eq_some, Option.some.injEq]

@[simp]
theorem number?_toDigits (n : Nat) : number? (Nat.toDigits 10 n) = some n :=
  number?_eq_some_iff.mpr (decimal_toDigits n)

@[simp]
theorem number?_padded (width n : Nat) : number? (padded width n).toList = some n :=
  number?_eq_some_iff.mpr (decimal_padded width n)

end Assembler.Text
