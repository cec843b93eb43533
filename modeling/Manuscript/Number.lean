import Manuscript.Text.Basic

/-!
# Numbers

Whole numbers are written with the digits 0 to 9, without leading zeros, and with a
hyphen in front when they are negative.

A double is zero or a multiple of a power of two with a significand of at most 53
bits. All finite doubles are multiples of the smallest positive one, so a finite
double is written here as `significand * 2 ^ scale` such units, and reading and
writing it are exact computations with natural numbers.

Reading a decimal takes the nearest double, and of two equally near ones that with
the even significand. Writing a double takes the fewest digits that read back, and
of these the nearest to the double.
-/

namespace Manuscript

namespace Text

/-- The decimal digits of a natural number. -/
def numeral (n : Nat) : Text := Nat.toDigits 10 n

/-- The decimal numeral of an integer. -/
def signedNumeral : Int → Text
  | .ofNat n => numeral n
  | .negSucc n => '-' :: numeral (n + 1)

/-- An ASCII digit. -/
def isDigit (c : Char) : Bool := '0' ≤ c && c ≤ '9'

/-- The number that decimal digits stand for. -/
def valueOfDigits (digits : Text) : Nat :=
  digits.foldl (fun value digit => value * 10 + (digit.toNat - 48)) 0

end Text

/-- A double: the finite ones count units of 2 to the power of -1074. -/
inductive Double where
  | notANumber
  | infinite (negative : Bool)
  | finite (negative : Bool) (significand scale : Nat)
deriving DecidableEq, Repr

namespace Double

/-- The number of smallest positive doubles that make up the number one. -/
def unitsInOne : Nat := Nat.pow 2 1074

/-- The quotient of two natural numbers, rounded to the nearest; a tie goes to the
even neighbour. -/
def roundedQuotient (numerator denominator : Nat) : Nat :=
  let quotient := numerator / denominator
  let remainder := numerator % denominator
  if 2 * remainder < denominator then quotient
  else if denominator < 2 * remainder then quotient + 1
  else if quotient % 2 = 0 then quotient else quotient + 1

/-- The double nearest to a fraction. The unit of the last place is chosen so that 53
bits remain before it. -/
def ofFraction (negative : Bool) (numerator denominator : Nat) : Double :=
  let units := numerator * unitsInOne
  let whole := units / denominator
  let scale := if whole < Nat.pow 2 53 then 0 else Nat.log2 whole - 52
  let significand := roundedQuotient units (denominator * Nat.pow 2 scale)
  let (significand, scale) :=
    if significand = Nat.pow 2 53 then (Nat.pow 2 52, scale + 1) else (significand, scale)
  if 2045 < scale then .infinite negative else .finite negative significand scale

/-- The double nearest to `digits * 10 ^ exponent`. Decimals beyond every double are
told by their number of digits and not computed. -/
def ofDecimal (negative : Bool) (digits : Nat) (exponent : Int) : Double :=
  let magnitude : Int := (Nat.toDigits 10 digits).length + exponent
  if digits = 0 ∨ magnitude < -330 then .finite negative 0 0
  else if 330 < magnitude then .infinite negative
  else match exponent with
    | .ofNat places => ofFraction negative (digits * Nat.pow 10 places) 1
    | .negSucc places => ofFraction negative digits (Nat.pow 10 (places + 1))

/-- The position of the decimal point of a positive finite double: the least `d` with
the number below `10 ^ d`. -/
def pointPosition (significand scale : Nat) : Int :=
  let shifted := significand * Nat.pow 2 scale * Nat.pow 10 400 / unitsInOne
  ((Nat.toDigits 10 shifted).length : Int) - 400

/-- Whether `digits * 10 ^ exponent` reads back as the double, that is, lies between
the midpoints to its neighbours. A midpoint itself reads back exactly when the
significand is even. All sides count quarters of a unit. -/
def readsBack (significand scale digits : Nat) (exponent : Int) : Bool :=
  let gapBelow := if significand = Nat.pow 2 52 ∧ 0 < scale then 1 else 2
  let low := (4 * significand - gapBelow) * Nat.pow 2 scale
  let high := (4 * significand + 2) * Nat.pow 2 scale
  let (candidate, factor) := match exponent with
    | .ofNat places => (digits * Nat.pow 10 places * (4 * unitsInOne), 1)
    | .negSucc places => (digits * (4 * unitsInOne), Nat.pow 10 (places + 1))
  if significand % 2 = 0 then low * factor ≤ candidate && candidate ≤ high * factor
  else low * factor < candidate && candidate < high * factor

/-- The two neighbours of the double on the grid of multiples of `10 ^ exponent`, the
nearer one first; a tie puts the even one first. -/
def neighbours (significand scale : Nat) (exponent : Int) : Nat × Nat :=
  let (numerator, denominator) := match exponent with
    | .ofNat places => (significand * Nat.pow 2 scale, unitsInOne * Nat.pow 10 places)
    | .negSucc places => (significand * Nat.pow 2 scale * Nat.pow 10 (places + 1), unitsInOne)
  let below := numerator / denominator
  if roundedQuotient numerator denominator = below then (below, below + 1)
  else (below + 1, below)

/-- The fewest digits that read back, tried from `count` digits on; `tries` bounds the
search, and 17 digits always read back. The answer is a number of digits and the
power of ten it is multiplied with. -/
def shortestFrom (significand scale : Nat) (point : Int) : Nat → Nat → Nat × Int
  | 0, count => ((neighbours significand scale (point - count)).1, point - count)
  | tries + 1, count =>
    let exponent := point - count
    let (nearer, farther) := neighbours significand scale exponent
    if readsBack significand scale nearer exponent then (nearer, exponent)
    else if readsBack significand scale farther exponent then (farther, exponent)
    else shortestFrom significand scale point tries (count + 1)

/-- The fewest digits of a positive finite double, without zeros at their end, and the
position of the decimal point relative to their beginning. -/
def shortest (significand scale : Nat) : Text × Int :=
  let point := pointPosition significand scale
  let (value, exponent) := shortestFrom significand scale point 16 1
  let digits := Text.numeral value
  ((digits.reverse.dropWhile (· == '0')).reverse, digits.length + exponent)

/-- Digits with a decimal point, or with an exponent of at least two digits. The point
is used from one ten-thousandth up to numbers of sixteen digits before it. -/
def layOut (digits : Text) (point : Int) : Text :=
  if point ≤ -4 ∨ 16 < point then
    let mantissa := match digits with
      | first :: second :: rest => first :: '.' :: second :: rest
      | _ => digits
    let magnitude := Text.numeral (point - 1).natAbs
    let padded := List.replicate (2 - magnitude.length) '0' ++ magnitude
    mantissa ++ 'e' :: (if point - 1 < 0 then '-' else '+') :: padded
  else match point with
    | .negSucc places => '0' :: '.' :: List.replicate (places + 1) '0' ++ digits
    | .ofNat 0 => '0' :: '.' :: digits
    | .ofNat places =>
      let fraction := digits.drop places
      digits.take places ++ List.replicate (places - digits.length) '0'
        ++ '.' :: (if fraction.isEmpty then ['0'] else fraction)

/-- The text of a finite double. -/
def finiteText (negative : Bool) (significand scale : Nat) : Text :=
  let unsigned :=
    if significand = 0 then "0.0".toList
    else let (digits, point) := shortest significand scale; layOut digits point
  if negative then '-' :: unsigned else unsigned

/-- Whether a double is a whole number, and then which. -/
def toInt? : Double → Option Int
  | .finite negative significand scale =>
    let units := significand * Nat.pow 2 scale
    if units % unitsInOne = 0 then
      let whole : Int := (units / unitsInOne : Nat)
      some (if negative then -whole else whole)
    else none
  | _ => none

end Double

end Manuscript
