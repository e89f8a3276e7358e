import GateScript.Program.Node
import GateScript.Text.Quoted

/-! What the pieces of a parse tree are built into. -/
namespace GateScript.Program

inductive Value where
  | nothing
  | text (text : String)
  | token (terminal text : String)
  | number (value : Number)
  | gate (call : GateCall)
  | named (reference : Reference)
  | pipeline (parts : List Part)
  | node (node : Node)
  | list (items : List Value)
  /-- A tree whose rule has no meaning of its own. -/
  | tree (rule : String) (children : List Value)

def Argument.display : Argument → String
  | .name s => Text.quoted s
  | .number n => n.text

def bracketed (texts : List String) : String := "[" ++ ", ".intercalate texts ++ "]"

/-- A value made of named fields, each as messages show it. -/
structure Record where
  kind : String
  fields : List (String × String)
  deriving DecidableEq, Repr

namespace Record

def fieldTexts (r : Record) : List String := r.fields.map fun f => f.1 ++ "=" ++ f.2

/-- A record as messages show it. -/
def display (r : Record) : String := r.kind ++ "(" ++ ", ".intercalate r.fieldTexts ++ ")"

/-- A record as a text of its own. -/
def plain (r : Record) : String := " ".intercalate r.fieldTexts

end Record

def Part.record : Part → Record
  | .gate g =>
    ⟨"GateCall", [("name", Text.quoted g.name), ("args", bracketed (g.args.map Argument.display))]⟩
  | .named r =>
    ⟨"GatePipeByName",
      [("name", Text.quoted r.name), ("rev", if r.reversed then "True" else "False")]⟩

def pipelineRecord (parts : List Part) : Record :=
  ⟨"GatePipeline", [("parts", bracketed (parts.map fun p => p.record.display))]⟩

/-- A unit as messages show it. -/
def unitText (register : String) (index : Nat) : String :=
  register ++ "[" ++ toString index ++ "]"

def TargetItem.display : TargetItem → String
  | .name s => Text.quoted s
  | .number n => n.text
  | .qubit q => unitText q.register q.index
  | .bit b => unitText b.register b.index
  | .nothing => "None"
  | .list => bracketed []

def Target.display : Target → String
  | .all => Text.quoted "*"
  | .name s => Text.quoted s
  | .index n => toString n
  | .list items => bracketed (items.map TargetItem.display)

def Node.record : Node → Record
  | .qubit name q =>
    ⟨"QubitDeclaration", [("name", Text.quoted name), ("qubit", unitText q.register q.index)]⟩
  | .bit name b =>
    ⟨"BitDeclaration", [("name", Text.quoted name), ("bit", unitText b.register b.index)]⟩
  | .list name items =>
    ⟨"ListDeclaration",
      [("name", Text.quoted name), ("items", bracketed (items.map Text.quoted))]⟩
  | .instruction name parts =>
    ⟨"InstructionDeclaration",
      [("name", Text.quoted name), ("pipeline", (pipelineRecord parts).display)]⟩
  | .action target count body =>
    ⟨"Action",
      [("target", target.display), ("count", (count.map toString).getD "None"),
        ("instruction", match body with
          | .parts parts => (pipelineRecord parts).display
          | .name s => Text.quoted s)]⟩
  | .conditional target flag ifParts elseParts =>
    ⟨"ConditionalAction",
      [("target", target.display), ("condition_bit", Text.quoted flag),
        ("if_pipeline", (pipelineRecord ifParts).display),
        ("else_pipeline", (elseParts.map fun parts => (pipelineRecord parts).display).getD "None")]⟩
  | .foreign => ⟨"object", []⟩

namespace Value

mutual

/-- A value as messages show it. -/
def display : Value → String
  | nothing => "None"
  | text s => Text.quoted s
  | token terminal s => "Token(" ++ Text.quoted terminal ++ ", " ++ Text.quoted s ++ ")"
  | number n => n.text
  | gate g => (Part.gate g).record.display
  | named r => (Part.named r).record.display
  | pipeline parts => (pipelineRecord parts).display
  | node n => n.record.display
  | list items => bracketed (displayAll items)
  | tree rule children =>
    "Tree(" ++ Text.quoted rule ++ ", " ++ bracketed (displayAll children) ++ ")"

def displayAll : List Value → List String
  | [] => []
  | v :: vs => display v :: displayAll vs

end

/-- The characters of a text or a token. -/
def string? : Value → Option String
  | text s => some s
  | token _ s => some s
  | _ => none

/-- A value as a text of its own: its characters, its fields, or the way it is shown. -/
def plain (v : Value) : String :=
  match v with
  | text s => s
  | token _ s => s
  | gate g => (Part.gate g).record.plain
  | named r => (Part.named r).record.plain
  | pipeline parts => (pipelineRecord parts).plain
  | node n => n.record.plain
  | v => v.display

end Value

end GateScript.Program
