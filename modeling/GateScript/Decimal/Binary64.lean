/-! Binary floating-point numbers of 64 bits, by their encoding, and the nearest one to a decimal. -/
namespace GateScript.Decimal

/-- Sign, 11 bits of exponent and 52 bits of fraction. -/
structure Binary64 where
  bits : UInt64
  deriving DecidableEq, Repr

/-- Why a floating-point number is not taken for an integer. -/
inductive WholeFault where
  | notFinite
  | fractional
  | outOfRange
  deriving DecidableEq, Repr

/-- The quotient of two numbers, rounded to the nearest integer and to the even one at a midpoint. -/
def roundDiv (n d : Nat) : Nat :=
  if 2 * (n % d) < d then n / d
  else if d < 2 * (n % d) then n / d + 1
  else n / d + n / d % 2

/-- A quotient divided by a power of two, as a quotient. -/
def scaled (num den : Nat) (q : Int) : Nat × Nat :=
  if q < 0 then (num <<< q.natAbs, den) else (num, den <<< q.natAbs)

namespace Binary64

def infinity : Nat := 0x7ff0000000000000

def ofMagnitude (negative : Bool) (magnitude : Nat) : Binary64 :=
  ⟨UInt64.ofNat (if negative then 1 <<< 63 + magnitude else magnitude)⟩

/-- The exponent of the last place of the numbers around a quotient. The least one is shared by the
subnormal numbers. -/
def lastPlace (num den : Nat) : Int :=
  let q := max ((num.log2 : Int) - den.log2 - 53) (-1074)
  let (n, d) := scaled num den q
  if n / d < 1 <<< 53 then q else q + 1

/-- The magnitude nearest to a quotient. A coefficient that is rounded up to a power of two carries
into the exponent. -/
def magnitudeOfRatio (num den : Nat) : Nat :=
  let q := lastPlace num den
  let (n, d) := scaled num den q
  min infinity ((q + 1074).toNat <<< 52 + roundDiv n d)

/-- The number nearest to `digits * 10 ^ exponent`. Exponents far outside the range need no
powers. -/
def ofDecimal (negative : Bool) (digits : Nat) (exponent : Int) : Binary64 :=
  ofMagnitude negative <|
    if digits = 0 then 0
    else if 400 < exponent then infinity
    else if exponent + digits.log2 + 1 < -400 then 0
    else if exponent < 0 then magnitudeOfRatio digits (Nat.pow 10 exponent.natAbs)
    else magnitudeOfRatio (digits * Nat.pow 10 exponent.natAbs) 1

def isNegative (x : Binary64) : Bool := 1 <<< 63 ≤ x.bits.toNat

def magnitude (x : Binary64) : Nat := x.bits.toNat % 1 <<< 63

/-- The fraction, with the leading one of a normal number. -/
def coefficient (x : Binary64) : Nat :=
  if x.magnitude < 1 <<< 52 then x.magnitude else 1 <<< 52 + x.magnitude % 1 <<< 52

/-- The exponent of the last place. -/
def exponent (x : Binary64) : Int := (max (x.magnitude >>> 52) 1 : Nat) - 1075

/-- The integer that a number is equal to. Its magnitude has to fit into 63 bits. -/
def whole (x : Binary64) : Except WholeFault Int :=
  let places := (-x.exponent).toNat
  let n := x.coefficient <<< x.exponent.toNat >>> places
  if infinity ≤ x.magnitude then .error .notFinite
  else if x.coefficient % 1 <<< places ≠ 0 then .error .fractional
  else if 1 <<< 63 ≤ n then .error .outOfRange
  else .ok (if x.isNegative then -n else n)

end Binary64

end GateScript.Decimal
