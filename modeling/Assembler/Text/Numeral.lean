/-!
# Decimal numerals

A numeral is a non-empty text of ASCII digits.  It has no sign and no grouping mark, and it may
have any number of leading zeros.  Reading is bounded: the caller names the largest value that
it takes.

## Main definitions

* `isNumeral`, `numeralValue` : numerals and their values.
* `readNumeral?` : the value of a numeral that does not exceed a limit.
* `padded` : a number in decimal with leading zeros up to a width.

## Main results

* `readNumeral?_eq_some_iff` : exactly the numerals within the limit are read.
* `readNumeral?_repr` : a number written in decimal is read back.
-/

namespace Assembler.Text

/-- Whether a text is a non-empty sequence of ASCII digits. -/
def isNumeral (text : List Char) : Bool :=
  !text.isEmpty && text.all Char.isDigit

/-- The number that a sequence of digits denotes in base ten. -/
def numeralValue (digits : List Char) : Nat :=
  Nat.ofDigitChars 10 digits 0

/-- The value of a text that is a numeral of at most `limit`. -/
def readNumeral? (limit : Nat) (text : List Char) : Option Nat :=
  if isNumeral text && numeralValue text ≤ limit then some (numeralValue text) else none

/-- A number in decimal, with zeros in front where it has fewer than `width` digits. -/
def padded (width n : Nat) : String :=
  String.ofList (List.replicate (width - (Nat.toDigits 10 n).length) '0' ++ Nat.toDigits 10 n)

/-- Exactly the numerals within the limit are read. -/
theorem readNumeral?_eq_some_iff {limit n : Nat} {text : List Char} :
    readNumeral? limit text = some n ↔
      isNumeral text = true ∧ numeralValue text = n ∧ n ≤ limit := by
  simp only [readNumeral?, Bool.and_eq_true, decide_eq_true_eq, Option.ite_none_right_eq_some,
    Option.some.injEq]
  constructor
  · rintro ⟨⟨hdigits, hle⟩, rfl⟩
    exact ⟨hdigits, rfl, hle⟩
  · rintro ⟨hdigits, rfl, hle⟩
    exact ⟨⟨hdigits, hle⟩, rfl⟩

/-- A number written in decimal is a numeral. -/
theorem isNumeral_toDigits (n : Nat) : isNumeral (Nat.toDigits 10 n) = true := by
  simp only [isNumeral, Bool.and_eq_true, Bool.not_eq_true', List.isEmpty_eq_false_iff,
    List.all_eq_true]
  exact ⟨Nat.toDigits_ne_nil,
    fun _ h => Nat.isDigit_of_mem_toDigits (by decide) (by decide) h⟩

/-- The numeral of a number denotes that number. -/
theorem numeralValue_toDigits (n : Nat) : numeralValue (Nat.toDigits 10 n) = n :=
  Nat.ofDigitChars_toDigits (by decide) (by decide)

/-- A number within the limit that is written in decimal is read back. -/
theorem readNumeral?_repr {limit n : Nat} (h : n ≤ limit) :
    readNumeral? limit n.repr.toList = some n :=
  readNumeral?_eq_some_iff.2 (by
    rw [Nat.toList_repr]
    exact ⟨isNumeral_toDigits n, numeralValue_toDigits n, h⟩)

end Assembler.Text
