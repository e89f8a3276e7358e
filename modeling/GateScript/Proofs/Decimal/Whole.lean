import GateScript.Number
import Mathlib.Algebra.Order.Field.Power
import Mathlib.Algebra.Order.Field.Rat
import Mathlib.Tactic.Linarith
import Mathlib.Tactic.Positivity

/-!
Floating-point numbers that stand for integers.

A finite number is a coefficient times a power of two, with a sign. It stands for an integer exactly
if it is equal to it and the integer is less than `2 ^ 63` in magnitude.
-/
namespace GateScript

namespace Decimal.Binary64

/-- The value of a finite number. -/
def value (x : Binary64) : ℚ :=
  (if x.isNegative then -1 else 1) * (x.coefficient * 2 ^ x.exponent)

end Decimal.Binary64

namespace Number

example :
    (read none "2.0").toOption.map whole = some (.ok 2) ∧
      (read none "0.5").toOption.map whole = some (.error .fractional) ∧
      (read none "9223372036854774784.0").toOption.map whole = some (.ok 9223372036854774784) ∧
      (read none "9223372036854775808.0").toOption.map whole = some (.error .outOfRange) := by
  decide +kernel

end Number

end GateScript
