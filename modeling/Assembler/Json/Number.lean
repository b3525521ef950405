import Assembler.Json.Failure
import Assembler.Text.Numeral

/-!
# Reading JSON numbers

A number is a whole part without superfluous zeros, and optionally a fraction and an exponent.
A number without fraction and exponent is whole as long as it fits sixty-four bits.  Any other
number is taken in floating point: as many of its digits as fit an unsigned number of sixty-four
bits make up a significand, and a power of ten does the rest.

## Main definitions

* `Numeral`, `readNumeral` : a number as it is written.
* `Numeral.found?` : the value of a number, unless it is too large for any.
-/

namespace Assembler.Json

/-- A number as it is written. -/
structure Numeral where
  negative : Bool
  whole : List Char
  /-- The digits after the point, none if there is no point. -/
  fraction : List Char
  /-- The sign and the digits of the exponent. -/
  exponent : Option (Bool × List Char)
  deriving DecidableEq, Repr

/-- Reads one or more digits.  `atEnd` is the failure where the text ends before them. -/
def readDigits (atEnd : Failure) : Reader (List Char)
  | [] => .error atEnd
  | c :: rest =>
    if c.isDigit then .ok (c :: rest.takeWhile Char.isDigit, rest.dropWhile Char.isDigit)
    else .error .illFormed

/-- Reads the whole part of a number.  A zero in front of it is the whole of it. -/
def readWhole (atEnd : Failure) (text : List Char) : Except Failure (List Char × List Char) :=
  match readDigits atEnd text with
  | .ok ('0' :: _ :: _, _) => .error .illFormed
  | result => result

/-- Reads the digits after a point, if there is a point. -/
def readFraction (atEnd : Failure) : Reader (List Char)
  | '.' :: rest => readDigits atEnd rest
  | text => .ok ([], text)

/-- Reads a sign, if there is one.  It is `true` for a minus. -/
def readSign : List Char → Bool × List Char
  | '+' :: rest => (false, rest)
  | '-' :: rest => (true, rest)
  | text => (false, text)

/-- Reads an exponent, if there is one. -/
def readExponent (atEnd : Failure) : Reader (Option (Bool × List Char))
  | [] => .ok (none, [])
  | c :: rest =>
    if c = 'e' ∨ c = 'E' then
      let (negative, rest) := readSign rest
      match readDigits atEnd rest with
      | .ok (digits, rest) => .ok (some (negative, digits), rest)
      | .error failure => .error failure
    else .ok (none, c :: rest)

/-- Reads a number as it is written.  `atEnd` is the failure where the text ends inside it. -/
def readNumeral (atEnd : Failure) (text : List Char) : Except Failure (Numeral × List Char) := do
  let (negative, text) := match text with
    | '-' :: rest => (true, rest)
    | text => (false, text)
  let (whole, text) ← readWhole atEnd text
  let (fraction, text) ← readFraction atEnd text
  let (exponent, text) ← readExponent atEnd text
  return (⟨negative, whole, fraction, exponent⟩, text)

/-- Appends digits to a significand while it stays a count, and leaves the others. -/
def absorb (significand : Nat) : List Char → Nat × List Char
  | [] => (significand, [])
  | digit :: rest =>
    let longer := significand * 10 + (digit.toNat - '0'.toNat)
    if longer ≤ Range.count.limit then absorb longer rest else (significand, digit :: rest)

/-- The greatest exponent that is reckoned with.  A number with a greater one is nothing, or too
large, or too small to differ from nothing. -/
def greatestExponent : Nat := 2147483647

namespace Numeral

/-- The magnitude of a number in floating point, unless it is too large. -/
def magnitude? (numeral : Numeral) : Option Decimal.Magnitude :=
  let (whole, left) := absorb 0 numeral.whole
  let (significand, ignored) := absorb whole numeral.fraction
  let shift : Int := (left.length : Int) - ((numeral.fraction.length : Int) - ignored.length)
  match numeral.exponent with
  | none => Decimal.Magnitude.ofScientific? significand shift
  | some (negative, digits) =>
    let exponent := Text.numeralValue digits
    if exponent ≤ greatestExponent then
      Decimal.Magnitude.ofScientific? significand
        (if negative then shift - exponent else shift + exponent)
    else if significand = 0 ∨ negative then some .zero
    else none

/-- The value of a number, unless it is too large for any.  A whole number counts as such down
to `-2 ^ 63` and up to `2 ^ 64 - 1`; there is no whole number `-0`. -/
def found? (numeral : Numeral) : Option Found :=
  let value := Text.numeralValue numeral.whole
  let fractional := numeral.magnitude?.map (Found.fractional numeral.negative)
  if !numeral.fraction.isEmpty || numeral.exponent.isSome then fractional
  else if numeral.negative then
    if value ≠ 0 ∧ value ≤ Decimal.twoTo 63 then some (.negative value) else fractional
  else if value ≤ Range.count.limit then some (.natural value)
  else fractional

end Numeral

/-- Reads the value of a number. -/
def readNumber (text : List Char) : Except Failure (Found × List Char) := do
  let (numeral, rest) ← readNumeral .truncated text
  match numeral.found? with
  | some found => return (found, rest)
  | none => throw .illFormed

end Assembler.Json
