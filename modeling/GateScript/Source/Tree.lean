import GateScript.Source.Statement

/-! Parse trees. Punctuation, newlines and the words `q`, `b`, `if` and `else` are not in them. -/
namespace GateScript.Source

/-- A tree with leaves of type `α`. `absent` stands for an optional part that was left out. -/
inductive Tree (α : Type) where
  | node (rule : String) (children : List (Tree α))
  | leaf (value : α)
  | absent

namespace Tree

def ofOption {α : Type} : Option α → Tree α
  | some a => leaf a
  | none => absent

mutual

def map {α β : Type} (f : α → β) : Tree α → Tree β
  | node rule children => node rule (mapAll f children)
  | leaf value => leaf (f value)
  | absent => absent

def mapAll {α β : Type} (f : α → β) : List (Tree α) → List (Tree β)
  | [] => []
  | t :: ts => map f t :: mapAll f ts

end

end Tree

open GateScript.Source.Tree

def Operand.tree : Operand → Tree Token
  | .name t => leaf t
  | .number t => leaf t
  | .qubit t => node "qubit_ref" [leaf t]

def Item.tree : Item → Tree Token
  | .gate name [] => node "gate_call" [leaf name, absent]
  | .gate name args => node "gate_call" [leaf name, node "args" (args.map Operand.tree)]
  | .named name arrow => node "gate_pipe_by_name" [leaf name, ofOption arrow]

def pipelineTree (items : List Item) : Tree Token := node "gate_pip" (items.map Item.tree)

def listTree (items : List Operand) : Tree Token := node "list" (items.map Operand.tree)

def Target.tree : Target → Tree Token
  | .operand o => o.tree
  | .list items => listTree items
  | .all t => leaf t

def Branch.tree : Branch → Tree Token
  | .item i => node "cond_pip" [i.tree]
  | .group items => node "cond_pip" [pipelineTree items]

def Statement.tree (s : Statement) : Tree Token :=
  let declaration (t : Tree Token) := node "statement" [node "declaration" [t]]
  match s with
  | .qubit name register index =>
    declaration (node "qubit_declaration" [leaf name, ofOption register, leaf index])
  | .plainQubit name index => declaration (node "qubit_declaration" [leaf name, leaf index])
  | .bit name register index =>
    declaration (node "bit_declaration" [leaf name, ofOption register, leaf index])
  | .list name items => declaration (node "list_declaration" [leaf name, listTree items])
  | .instruction name items =>
    declaration (node "instruction_declaration" [leaf name, pipelineTree items])
  | .action target count items =>
    node "statement" [node "action" [target.tree, ofOption count, pipelineTree items]]
  | .conditional target branch flag none =>
    node "statement" [node "conditional_action" [target.tree, branch.tree, leaf flag]]
  | .conditional target branch flag (some otherwise) =>
    node "statement"
      [node "conditional_action" [target.tree, branch.tree, leaf flag, otherwise.tree]]

def programTree (statements : List Statement) : Tree Token :=
  node "start" (statements.map Statement.tree)

end GateScript.Source
