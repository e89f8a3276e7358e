import GateScript.Source.Terminal

/-! Positions in a text, and tokens. -/
namespace GateScript.Source

/-- Lines and columns count from one. A column counts characters after the last line feed. -/
structure Position where
  line : Nat
  column : Nat
  deriving DecidableEq, Repr

namespace Position

/-- Where a text begins. -/
def origin : Position := ⟨1, 1⟩

/-- The position after a character. -/
def next (p : Position) (c : Char) : Position :=
  if c = '\n' then ⟨p.line + 1, 1⟩ else ⟨p.line, p.column + 1⟩

def after (p : Position) (cs : List Char) : Position := cs.foldl next p

end Position

/-- A token stands from `start` up to `stop`, the position after its last character. -/
structure Token where
  terminal : Terminal
  text : String
  start : Position
  stop : Position
  deriving DecidableEq, Repr

end GateScript.Source
