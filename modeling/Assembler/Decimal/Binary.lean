/-!
# Numbers in binary floating point

A magnitude in double precision is a significand of at most 53 bits times a power of two.  The
smallest power is `2 ^ (-1074)`, and a magnitude that would need a power above `2 ^ 971` is too
large.  Every operation takes the exact result as a quotient of natural numbers and rounds it
once, to the nearest magnitude, and to the even significand where two are equally near.

## Main definitions

* `Magnitude` : significand and exponent.
* `Magnitude.ofRatio?` : the magnitude nearest to a quotient.
* `Magnitude.times?`, `Magnitude.over?` : product and quotient of magnitudes.
-/

namespace Assembler.Decimal

/-- A power of two. -/
def twoTo (n : Nat) : Nat := Nat.pow 2 n

/-- A power of ten. -/
def tenTo (n : Nat) : Nat := Nat.pow 10 n

/-- The number `significand * 2 ^ exponent`. -/
structure Magnitude where
  significand : Nat
  exponent : Int
  deriving DecidableEq, Repr

namespace Magnitude

/-- The least power of two. -/
def leastExponent : Int := -1074

/-- The greatest power of two. -/
def greatestExponent : Int := 971

/-- The number of values that a significand can take. -/
def significandBound : Nat := twoTo 53

/-- The magnitude of nothing. -/
def zero : Magnitude := ⟨0, leastExponent⟩

/-- The quotient of two numbers rounded to the nearest natural number, to the even one of two
that are equally near. -/
def roundQuotient (num den : Nat) : Nat :=
  let floor := num / den
  let twice := 2 * (num % den)
  if twice < den then floor
  else if twice = den ∧ floor % 2 = 0 then floor
  else floor + 1

/-- A quotient divided by a power of two, as numerator and denominator. -/
def scaled (num den : Nat) (exponent : Int) : Nat × Nat :=
  if 0 ≤ exponent then (num, den * twoTo exponent.toNat)
  else (num * twoTo (-exponent).toNat, den)

/-- The power of two with which the significand of a positive quotient has 53 bits, or the least
power if there is no such power. -/
def exponentOf (num den : Nat) : Int :=
  let guess : Int := (num.log2 : Int) - den.log2 - 53
  let (n, d) := scaled num den guess
  max leastExponent (if n / d < significandBound then guess else guess + 1)

/-- The magnitude nearest to the quotient of two numbers, unless it is too large. -/
def ofRatio? (num den : Nat) : Option Magnitude :=
  if num = 0 ∨ den = 0 then some zero
  else
    let exponent := exponentOf num den
    let (n, d) := scaled num den exponent
    let significand := roundQuotient n d
    let rounded : Magnitude :=
      if significand < significandBound then ⟨significand, exponent⟩
      else ⟨significand / 2, exponent + 1⟩
    if rounded.exponent ≤ greatestExponent then some rounded else none

/-- A magnitude as a quotient of natural numbers. -/
def toRatio (x : Magnitude) : Nat × Nat :=
  if 0 ≤ x.exponent then (x.significand * twoTo x.exponent.toNat, 1)
  else (x.significand, twoTo (-x.exponent).toNat)

/-- The product of two magnitudes. -/
def times? (x y : Magnitude) : Option Magnitude :=
  ofRatio? (x.toRatio.1 * y.toRatio.1) (x.toRatio.2 * y.toRatio.2)

/-- The quotient of two magnitudes. -/
def over? (x y : Magnitude) : Option Magnitude :=
  ofRatio? (x.toRatio.1 * y.toRatio.2) (x.toRatio.2 * y.toRatio.1)

/-- The magnitude nearest to a power of ten. -/
def powerOfTen? (n : Nat) : Option Magnitude :=
  ofRatio? (tenTo n) 1

/-- The exponent of the greatest power of ten that is a magnitude. -/
def greatestPower : Nat := 308

/-- A magnitude divided by a power of ten, `10 ^ 308` at a time and at most `rounds + 1` times.
A magnitude of nothing stays so, and then the division is over. -/
def overPowerOfTen? : Nat → Magnitude → Nat → Option Magnitude
  | 0, x, n => (powerOfTen? n).bind x.over?
  | rounds + 1, x, n =>
    if n ≤ greatestPower then (powerOfTen? n).bind x.over?
    else if x.significand = 0 then some x
    else
      ((powerOfTen? greatestPower).bind x.over?).bind fun less =>
        overPowerOfTen? rounds less (n - greatestPower)

/-- A magnitude multiplied by a power of ten, unless the result is too large. -/
def timesPowerOfTen? (x : Magnitude) (n : Nat) : Option Magnitude :=
  if n ≤ greatestPower then (powerOfTen? n).bind x.times?
  else if x.significand = 0 then some x
  else none

/-- A natural number multiplied by a power of ten, rounded after every operation. -/
def ofScientific? (significand : Nat) (exponent : Int) : Option Magnitude :=
  (ofRatio? significand 1).bind fun x =>
    if 0 ≤ exponent then x.timesPowerOfTen? exponent.toNat
    else overPowerOfTen? (-exponent).toNat x (-exponent).toNat

end Magnitude

end Assembler.Decimal
