import GateScript.Program.Node
import GateScript.Proofs.Source.Scanning

/-!
How programs are written. Statements stand on lines of their own, and one blank stands between two
tokens. A unit of the default register is written without the register, and a branch of several
parts in parentheses.
-/
namespace GateScript.Program

open Source

section Lexemes

/-- Pieces with a separator between any two. -/
def separated (separator : String) : List (List String) → List String
  | [] => []
  | piece :: pieces => piece ++ pieces.flatMap (separator :: ·)

def commaSeparated (texts : List String) : List String := separated "," (texts.map ([·]))

def Argument.lexeme : Argument → String
  | .name s => s
  | .number n => n.text

def Part.lexemes : Part → List String
  | .gate ⟨name, []⟩ => [name]
  | .gate ⟨name, args⟩ => name :: "(" :: (commaSeparated (args.map Argument.lexeme) ++ [")"])
  | .named ⟨name, reversed⟩ => name :: if reversed then ["<-"] else []

def pipelineLexemes (parts : List Part) : List String := separated "|" (parts.map Part.lexemes)

def branchLexemes : List Part → List String
  | [part] => part.lexemes
  | parts => "(" :: (pipelineLexemes parts ++ [")"])

def elseLexemes : Option (List Part) → List String
  | none => []
  | some parts => "else" :: branchLexemes parts

def listLexemes (texts : List String) : List String := "[" :: (commaSeparated texts ++ ["]"])

/-- Only names and numbers can be written. -/
def TargetItem.lexeme : TargetItem → String
  | .name s => s
  | .number n => n.text
  | _ => ""

def Target.lexemes : Target → List String
  | .all => ["*"]
  | .name s => [s]
  | .index n => [toString n]
  | .list items => listLexemes (items.map TargetItem.lexeme)

def unitLexemes (default register : String) (index : Nat) : List String :=
  if register = default then [toString index] else [register, toString index]

/-- The tokens of a node. Nodes that no text stands for have none. -/
def Node.lexemes : Node → List String
  | .qubit name q => name :: ":" :: "q" :: unitLexemes "q" q.register q.index
  | .bit name b => name :: ":" :: "b" :: unitLexemes "c" b.register b.index
  | .list name items => name :: ":" :: listLexemes items
  | .instruction name parts => name :: ":" :: pipelineLexemes parts
  | .action target count (.parts parts) =>
    target.lexemes ++ "->" :: ((count.map toString).toList ++ pipelineLexemes parts)
  | .conditional target flag ifParts elseParts =>
    target.lexemes ++ "->" :: (branchLexemes ifParts ++ "if" :: flag :: elseLexemes elseParts)
  | .action _ _ (.name _) => []
  | .foreign => []

/-- The text of a program. -/
def render (nodes : List Node) : String :=
  "\n".intercalate (nodes.map fun node => " ".intercalate node.lexemes)

example : render
    [.qubit "x" ⟨"q", 0⟩, .bit "c" ⟨"flags", 1⟩, .instruction "go" [.gate ⟨"H", []⟩],
      .conditional (.list [.name "x", .number (.int 2)]) "c"
        [.gate ⟨"RZ", [.number (.int 1), .name "t"]⟩, .named ⟨"go", false⟩]
        (some [.named ⟨"go", true⟩])] =
    "x : q 0\nc : b flags 1\ngo : H\n[ x , 2 ] -> ( RZ ( 1 , t ) | go ) if c else go <-" := by
  decide

end Lexemes

section Writable

/-- A name that may stand where the word `q` has a meaning of its own. -/
def IsOperandName (s : String) : Prop := isName s ∧ s ≠ "q"

/-- Names, and integers that are not negative. -/
def Argument.Writable : Argument → Prop
  | .name s => IsOperandName s
  | .number (.int n) => 0 ≤ n
  | .number (.real _) => False

def Part.Writable : Part → Prop
  | .gate call => isGateName call.name ∧ ∀ arg ∈ call.args, arg.Writable
  | .named r => isName r.name

def PipelineWritable (parts : List Part) : Prop := parts ≠ [] ∧ ∀ part ∈ parts, part.Writable

def TargetItem.Writable : TargetItem → Prop
  | .name s => IsOperandName s
  | .number (.int n) => 0 ≤ n
  | _ => False

def Target.Writable : Target → Prop
  | .all => True
  | .name s => IsOperandName s
  | .index n => 0 ≤ n
  | .list items => items ≠ [] ∧ ∀ item ∈ items, item.Writable

/-- After the colon of a declaration the words `q` and `b` are no names of pipelines. -/
def Part.LeadsDeclaration : Part → Prop
  | .gate _ => True
  | .named r => r.name ≠ "q" ∧ r.name ≠ "b"

/-- Nodes that a text can stand for. -/
def Node.Writable : Node → Prop
  | .qubit name q => IsOperandName name ∧ isName q.register
  | .bit name b => IsOperandName name ∧ isName b.register
  | .list name items => IsOperandName name ∧ items ≠ [] ∧ ∀ item ∈ items, IsOperandName item
  | .instruction name parts => IsOperandName name ∧ PipelineWritable parts ∧
    ∀ part ∈ parts.head?, part.LeadsDeclaration
  | .action target count (.parts parts) =>
    target.Writable ∧ (∀ n ∈ count, 0 ≤ n) ∧ PipelineWritable parts
  | .conditional target flag ifParts elseParts =>
    target.Writable ∧ isName flag ∧ PipelineWritable ifParts ∧
      ∀ parts ∈ elseParts, PipelineWritable parts
  | .action _ _ (.name _) => False
  | .foreign => False

instance : DecidablePred IsOperandName := fun _ => inferInstanceAs (Decidable (_ ∧ _))

instance : DecidablePred Argument.Writable
  | .name _ | .number (.int _) | .number (.real _) => by
    dsimp only [Argument.Writable]; infer_instance

instance : DecidablePred Part.Writable
  | .gate _ | .named _ => by dsimp only [Part.Writable]; infer_instance

instance : DecidablePred PipelineWritable := fun _ => inferInstanceAs (Decidable (_ ∧ _))

instance : DecidablePred TargetItem.Writable
  | .name _ | .number (.int _) | .number (.real _) | .qubit _ | .bit _ | .nothing | .list => by
    dsimp only [TargetItem.Writable]; infer_instance

instance : DecidablePred Target.Writable
  | .all | .name _ | .index _ | .list _ => by dsimp only [Target.Writable]; infer_instance

instance : DecidablePred Part.LeadsDeclaration
  | .gate _ | .named _ => by dsimp only [Part.LeadsDeclaration]; infer_instance

instance : DecidablePred Node.Writable
  | .qubit _ _ | .bit _ _ | .list _ _ | .instruction _ _ | .action _ _ (.parts _)
  | .action _ _ (.name _) | .conditional _ _ _ _ | .foreign => by
    dsimp only [Node.Writable]; infer_instance

end Writable

section Numbers

def Argument.numbers : Argument → List Int
  | .number (.int n) => [n]
  | _ => []

def Part.numbers : Part → List Int
  | .gate call => call.args.flatMap Argument.numbers
  | .named _ => []

def TargetItem.numbers : TargetItem → List Int
  | .number (.int n) => [n]
  | _ => []

def Target.numbers : Target → List Int
  | .index n => [n]
  | .list items => items.flatMap TargetItem.numbers
  | _ => []

/-- The integers that the text of a node holds. -/
def Node.numbers : Node → List Int
  | .qubit _ q => [(q.index : Int)]
  | .bit _ b => [(b.index : Int)]
  | .list _ _ => []
  | .instruction _ parts => parts.flatMap Part.numbers
  | .action target count (.parts parts) =>
    target.numbers ++ count.toList ++ parts.flatMap Part.numbers
  | .action target count (.name _) => target.numbers ++ count.toList
  | .conditional target _ ifParts elseParts =>
    target.numbers ++ ifParts.flatMap Part.numbers ++ (elseParts.getD []).flatMap Part.numbers
  | .foreign => []

end Numbers

end GateScript.Program
