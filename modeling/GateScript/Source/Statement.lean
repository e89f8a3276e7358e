import GateScript.Source.Token

/-! The statements of a program text, as read, with the tokens that carry their content. -/
namespace GateScript.Source

/-- An element of a list or an argument of a gate. `qubit` is the number after the word `q`. -/
inductive Operand where
  | name (token : Token)
  | number (token : Token)
  | qubit (index : Token)
  deriving DecidableEq, Repr

/-- An element of a pipeline: a gate with its arguments, or a pipeline given by name. -/
inductive Item where
  | gate (name : Token) (args : List Operand)
  | named (name : Token) (arrow : Option Token)
  deriving DecidableEq, Repr

/-- What an action acts on. -/
inductive Target where
  | operand (operand : Operand)
  | list (items : List Operand)
  | all (token : Token)
  deriving DecidableEq, Repr

/-- A branch of a conditional action: a single item, or a pipeline in parentheses. -/
inductive Branch where
  | item (item : Item)
  | group (items : List Item)
  deriving DecidableEq, Repr

inductive Statement where
  /-- `name : q index` or `name : q register index` -/
  | qubit (name : Token) (register : Option Token) (index : Token)
  /-- `name : index` -/
  | plainQubit (name index : Token)
  /-- `name : b index` or `name : b register index` -/
  | bit (name : Token) (register : Option Token) (index : Token)
  /-- `name : [items]` -/
  | list (name : Token) (items : List Operand)
  /-- `name : pipeline` -/
  | instruction (name : Token) (items : List Item)
  /-- `target -> pipeline` or `target -> count pipeline` -/
  | action (target : Target) (count : Option Token) (items : List Item)
  /-- `target -> branch if bit` or `target -> branch if bit else branch` -/
  | conditional (target : Target) (branch : Branch) (bit : Token) (otherwise : Option Branch)
  deriving DecidableEq, Repr

end GateScript.Source
