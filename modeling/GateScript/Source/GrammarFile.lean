/-! The file that the grammar is kept in has to be there and open to readers. -/
namespace GateScript.Source

/-- The file of the grammar below a directory. -/
def grammarPath (root : String) : String := root ++ "/spinachlang/grammar.lark"

/-- What stands in the way of reading a file. -/
inductive GrammarFault where
  | missing
  | denied
  deriving DecidableEq, Repr

/-- The grammar could not be read. -/
structure GrammarError where
  fault : GrammarFault
  path : String
  deriving DecidableEq, Repr

def GrammarError.message (e : GrammarError) : String :=
  match e.fault with
  | .missing => "Spinach grammar file not found: " ++ e.path
  | .denied => "Permission denied reading grammar file: " ++ e.path

/-- The path of a grammar that can be read. -/
def openGrammar (root : String) : Option GrammarFault → Except GrammarError String
  | none => .ok (grammarPath root)
  | some fault => .error ⟨fault, grammarPath root⟩

end GateScript.Source
