import GateScript.Lower.Run
import GateScript.Program.Build
import GateScript.Source.Parse

/-! From a program text to its nodes and its circuits. -/
namespace GateScript

/-- Why a text has no nodes. -/
inductive TextError where
  | parse (error : Source.ParseError)
  | build (error : Program.BuildError)
  deriving DecidableEq, Repr

/-- The nodes of a program text. -/
def nodesOfText (text : String) : Except TextError (List Program.Node) :=
  match Source.parse text with
  | .error e => .error (.parse e)
  | .ok statements =>
    match Program.nodesOf Decimal.digitLimit statements with
    | .error e => .error (.build e)
    | .ok nodes => .ok nodes

/-- The circuits of a program text. -/
def circuitsOfText (text : String) : Except TextError (Lower.Outcome Lower.Circuits) :=
  (nodesOfText text).map Lower.lower

end GateScript
