/-! Sets of characters as lists of code point ranges. -/
namespace GateScript.Text

/-- The code points from `first` to `last`, both included. -/
structure Range where
  first : Nat
  last : Nat

def Range.contains (r : Range) (n : Nat) : Bool := r.first ≤ n && n ≤ r.last

def covers (ranges : List Range) (c : Char) : Bool := ranges.any (·.contains c.toNat)

end GateScript.Text
