import Assembler.Decimal.Binary

/-!
# The shortest decimal form of a magnitude

A magnitude is printed with the fewest digits that are still nearer to it than to any other
magnitude; of several such forms the one nearest to the magnitude is taken.  Grids of decimal
numbers are tried from coarse to fine, and on each only the two neighbours of the magnitude can
do.

The form is written positionally while its point stands within sixteen digits, or at most five
zeros would come in front of the digits; a positional form always has a point.  Otherwise it is
written with an exponent, and the exponent with its sign.

## Main definitions

* `Magnitude.shortest` : the digits and the exponent of the shortest form.
* `Magnitude.text` : the printed form.
-/

namespace Assembler.Decimal

/-- The number `digits * 10 ^ exponent`. -/
structure Scientific where
  digits : Nat
  exponent : Int
  deriving DecidableEq, Repr

/-- The numbers that round to a magnitude: those between two ends, all over one denominator. -/
structure Interval where
  low : Nat
  value : Nat
  high : Nat
  den : Nat
  /-- Whether the ends themselves round to the magnitude. -/
  closed : Bool

namespace Magnitude

/-- The numbers that round to a positive magnitude.  The neighbour below is only half as far
away where the significand is the least of its length. -/
def interval (x : Magnitude) : Interval :=
  let half : Nat := if x.significand = twoTo 52 ∧ leastExponent < x.exponent then 1 else 2
  let factor : Nat := if 0 ≤ x.exponent then twoTo x.exponent.toNat else 1
  { low := (4 * x.significand - half) * factor
    value := 4 * x.significand * factor
    high := (4 * x.significand + 2) * factor
    den := 4 * if 0 ≤ x.exponent then 1 else twoTo (-x.exponent).toNat
    closed := x.significand % 2 = 0 }

end Magnitude

namespace Interval

/-- The same interval counted in units of a power of ten. -/
def inUnits (i : Interval) (exponent : Int) : Interval :=
  if 0 ≤ exponent then { i with den := i.den * tenTo exponent.toNat }
  else
    let factor := tenTo (-exponent).toNat
    { i with low := i.low * factor, value := i.value * factor, high := i.high * factor }

/-- Whether a whole number of units lies in an interval. -/
def contains (i : Interval) (n : Nat) : Bool :=
  if i.closed then i.low ≤ n * i.den && n * i.den ≤ i.high
  else i.low < n * i.den && n * i.den < i.high

/-- The whole number in an interval that is nearest to its value, the even one of two. -/
def nearest? (i : Interval) : Option Nat :=
  let below := i.value / i.den
  let above := below + 1
  match i.contains below, i.contains above with
  | false, false => none
  | true, false => some below
  | false, true => some above
  | true, true =>
    let toBelow := i.value - below * i.den
    let toAbove := above * i.den - i.value
    if toBelow < toAbove then some below
    else if toAbove < toBelow then some above
    else some (if below % 2 = 0 then below else above)

end Interval

/-- The same number with the zeros at the end of its digits moved into the exponent. -/
def Scientific.normalize : Nat → Scientific → Scientific
  | 0, x => x
  | fuel + 1, x =>
    if x.digits % 10 = 0 ∧ x.digits ≠ 0 then normalize fuel ⟨x.digits / 10, x.exponent + 1⟩
    else x

namespace Magnitude

/-- The first grid from `exponent` downwards on which a number rounds to the magnitude. -/
def shortestFrom (i : Interval) : Nat → Int → Scientific
  | 0, exponent => ⟨0, exponent⟩
  | fuel + 1, exponent =>
    match (i.inUnits exponent).nearest? with
    | some digits => ⟨digits, exponent⟩
    | none => shortestFrom i fuel (exponent - 1)

/-- The shortest decimal form of a positive magnitude.  The coarsest grid is that of the leading
digit, and a grid with seventeen digits always has a number that rounds to the magnitude. -/
def shortest (x : Magnitude) : Scientific :=
  let (num, den) := x.toRatio
  let leading : Int := ((Nat.toDigits 10 num).length : Int) - (Nat.toDigits 10 den).length
  (shortestFrom x.interval 20 leading).normalize 20

end Magnitude

/-- A text of zeros. -/
def zeros (count : Nat) : List Char :=
  List.replicate count '0'

/-- A decimal number in the layout for people: positional as long as that is not too long. -/
def Scientific.text (x : Scientific) : List Char :=
  let digits := Nat.toDigits 10 x.digits
  let point : Int := digits.length + x.exponent
  if 0 ≤ x.exponent ∧ point ≤ 16 then digits ++ zeros x.exponent.toNat ++ ['.', '0']
  else if 0 < point ∧ point ≤ 16 then
    digits.take point.toNat ++ '.' :: digits.drop point.toNat
  else if -5 < point ∧ point ≤ 0 then '0' :: '.' :: (zeros (-point).toNat ++ digits)
  else
    let mantissa := match digits with
      | first :: second :: rest => first :: '.' :: second :: rest
      | short => short
    let exponent := point - 1
    mantissa ++ 'e' :: (if exponent < 0 then '-' else '+') :: Nat.toDigits 10 exponent.natAbs

/-- The printed form of a magnitude. -/
def Magnitude.text (x : Magnitude) : List Char :=
  if x.significand = 0 then ['0', '.', '0'] else x.shortest.text

end Assembler.Decimal
