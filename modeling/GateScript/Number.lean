import GateScript.Decimal.Numeral
import GateScript.Decimal.Shortest

/-! The numbers of a program: integers of any size, and floating-point numbers. -/
namespace GateScript

inductive Number where
  | int (value : Int)
  | real (value : Decimal.Binary64)
  deriving DecidableEq, Repr

namespace Number

/-- Why a text is not read as a number. -/
inductive ReadFault where
  | integer (fault : Decimal.IntegerFault)
  | decimal
  deriving DecidableEq, Repr

/-- A numeral with a point is a floating-point number. Only integers have a limit to their digits. -/
def read (limit : Option Nat) (text : String) : Except ReadFault Number :=
  if text.toList.contains '.' then
    match Decimal.readDecimal? text.toList with
    | some x => .ok (real x)
    | none => .error .decimal
  else
    match Decimal.readInteger limit text.toList with
    | .ok n => .ok (int n)
    | .error fault => .error (.integer fault)

/-- The integer that a number stands for. Integers may be of any size. -/
def whole : Number → Except Decimal.WholeFault Int
  | int n => .ok n
  | real x => x.whole

def text : Number → String
  | int n => toString n
  | real x => x.text

/-- The name of the kind of number in messages. -/
def kindName : Number → String
  | int _ => "int"
  | real _ => "float"

end Number

end GateScript
