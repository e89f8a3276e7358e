import GateScript.Decimal.Binary64

/-! The shortest decimal that reads back as a given number, and its text. -/
namespace GateScript.Decimal

/-- The decimal `coefficient * 10 ^ exponent`. -/
structure Scaled where
  coefficient : Nat
  exponent : Int

namespace Scaled

/-- Is the decimal at least `num / den`? -/
def atLeast (x : Scaled) (num den : Nat) : Bool :=
  if x.exponent < 0 then num * Nat.pow 10 x.exponent.natAbs ≤ x.coefficient * den
  else num ≤ x.coefficient * Nat.pow 10 x.exponent.natAbs * den

/-- Is the decimal at most `num / den`? -/
def atMost (x : Scaled) (num den : Nat) : Bool :=
  if x.exponent < 0 then x.coefficient * den ≤ num * Nat.pow 10 x.exponent.natAbs
  else x.coefficient * Nat.pow 10 x.exponent.natAbs * den ≤ num

/-- Removes zeros at the end of the coefficient. -/
def strip : Nat → Scaled → Scaled
  | 0, x => x
  | fuel + 1, x =>
    if x.coefficient ≠ 0 && x.coefficient % 10 = 0 then
      strip fuel ⟨x.coefficient / 10, x.exponent + 1⟩
    else x

def digits (x : Scaled) : List Char := Nat.toDigits 10 x.coefficient

/-- The exponent of the first digit. -/
def magnitude (x : Scaled) : Int := x.exponent + x.digits.length - 1

end Scaled

/-- A number and the ends of the interval of what is nearer to it than to its neighbours, over one
denominator. The ends belong to the interval if the coefficient is even. -/
structure Neighbourhood where
  low : Nat
  value : Nat
  high : Nat
  den : Nat
  closed : Bool

/-- Below a power of two the numbers are twice as dense. -/
def Binary64.neighbourhood (x : Binary64) : Neighbourhood :=
  let m := x.coefficient
  let below := if m = 1 <<< 52 && 1 <<< 53 ≤ x.magnitude then 1 else 2
  let q := x.exponent - 2
  let scale := if q < 0 then 1 else 1 <<< q.natAbs
  let den := if q < 0 then 1 <<< q.natAbs else 1
  ⟨(4 * m - below) * scale, 4 * m * scale, (4 * m + 2) * scale, den, m % 2 == 0⟩

namespace Neighbourhood

def contains (n : Neighbourhood) (x : Scaled) : Bool :=
  x.atLeast n.low n.den && x.atMost n.high n.den &&
    (n.closed || (!x.atMost n.low n.den && !x.atLeast n.high n.den))

/-- The exponent of the first decimal digit of the value. -/
def magnitude (n : Neighbourhood) : Int :=
  let guess := ((n.value.log2 : Int) - n.den.log2) * 30103 / 100000
  if !(Scaled.mk 1 guess).atMost n.value n.den then guess - 1
  else if (Scaled.mk 1 (guess + 1)).atMost n.value n.den then guess + 1
  else guess

/-- The multiples of a power of ten around the value. -/
def around (n : Neighbourhood) (exponent : Int) : Scaled × Scaled :=
  let c :=
    if exponent < 0 then n.value * Nat.pow 10 exponent.natAbs / n.den
    else n.value / (n.den * Nat.pow 10 exponent.natAbs)
  (⟨c, exponent⟩, ⟨c + 1, exponent⟩)

/-- Is the value nearer to the lower of two neighbouring decimals? A midpoint goes to the even
one. -/
def prefersLower (n : Neighbourhood) (lower : Scaled) : Bool :=
  let middle : Scaled := ⟨10 * lower.coefficient + 5, lower.exponent - 1⟩
  if middle.atMost n.value n.den then middle.atLeast n.value n.den && lower.coefficient % 2 == 0
  else true

/-- The decimal with the given number of digits that reads back, if there is one. -/
def withDigits? (n : Neighbourhood) (count : Nat) : Option Scaled :=
  let (lower, upper) := n.around (n.magnitude - count + 1)
  match n.contains lower, n.contains upper with
  | true, true => some (if n.prefersLower lower then lower else upper)
  | true, false => some lower
  | false, true => some upper
  | false, false => none

/-- Seventeen digits always suffice. -/
def shortest (n : Neighbourhood) : Scaled :=
  let found := (List.range 17).findSome? fun i => n.withDigits? (i + 1)
  (found.getD (n.around (n.magnitude - 16)).1).strip 17

end Neighbourhood

/-- Digits before the point, and after it. Without digits there is a zero. -/
def positional (digits : List Char) (magnitude : Int) : List Char :=
  if magnitude < 0 then
    '0' :: '.' :: List.replicate (magnitude.natAbs - 1) '0' ++ digits
  else
    let whole := magnitude.natAbs + 1
    let padded := digits ++ List.replicate (whole - digits.length) '0'
    let fraction := padded.drop whole
    padded.take whole ++ '.' :: (if fraction.isEmpty then ['0'] else fraction)

/-- One digit before the point, and a signed exponent of at least two digits. -/
def scientific (digits : List Char) (magnitude : Int) : List Char :=
  let fraction := digits.drop 1
  let places := Nat.toDigits 10 magnitude.natAbs
  digits.take 1 ++ (if fraction.isEmpty then [] else '.' :: fraction) ++
    'e' :: (if magnitude < 0 then '-' else '+') ::
      (if places.length < 2 then '0' :: places else places)

/-- Numbers from 0.0001 up to 10 ^ 16 are written with a point only, all others with an exponent. -/
def Binary64.text (x : Binary64) : String :=
  let sign := if x.isNegative then ['-'] else []
  if x.magnitude = 0 then String.ofList (sign ++ "0.0".toList)
  else if x.magnitude = Binary64.infinity then String.ofList (sign ++ "inf".toList)
  else if Binary64.infinity < x.magnitude then "nan"
  else
    let d := x.neighbourhood.shortest
    String.ofList <| sign ++
      if -4 ≤ d.magnitude ∧ d.magnitude < 16 then positional d.digits d.magnitude
      else scientific d.digits d.magnitude

end GateScript.Decimal
