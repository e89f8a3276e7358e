import GateScript.Proofs.Source.QubitWord

/-!
The tokens of statements.

The reader keeps a token only where its terminal has a place, and the scanner gives it a text of that
terminal. So whatever is read so far has names, numbers and the rest where they belong, and at the
end all statements have.
-/
namespace GateScript.Source

/-- The token is of the terminal, and so is its text. -/
def Token.Fills (t : Token) (x : Terminal) : Prop := t.terminal = x ∧ x.Matches t.text.toList

def Operand.Typed : Operand → Prop
  | .name t => t.Fills .name
  | .number t => t.Fills .number
  | .qubit t => t.Fills .number

def Item.Typed : Item → Prop
  | .gate name args => name.Fills .upperName ∧ ∀ o ∈ args, o.Typed
  | .named name arrow => name.Fills .name ∧ ∀ t ∈ arrow, t.Fills .reverseArrow

def Target.Typed : Target → Prop
  | .operand o => o.Typed
  | .list items => ∀ o ∈ items, o.Typed
  | .all t => t.Fills .all

def Branch.Typed : Branch → Prop
  | .item i => i.Typed
  | .group items => ∀ i ∈ items, i.Typed

/-- Every token of the statement is of the terminal that has a place there. -/
def Statement.Typed : Statement → Prop
  | .qubit name register index =>
    name.Fills .name ∧ (∀ t ∈ register, t.Fills .name) ∧ index.Fills .number
  | .plainQubit name index => name.Fills .name ∧ index.Fills .number
  | .bit name register index =>
    name.Fills .name ∧ (∀ t ∈ register, t.Fills .name) ∧ index.Fills .number
  | .list name items => name.Fills .name ∧ ∀ o ∈ items, o.Typed
  | .instruction name items => name.Fills .name ∧ ∀ i ∈ items, i.Typed
  | .action target count items =>
    target.Typed ∧ (∀ t ∈ count, t.Fills .number) ∧ ∀ i ∈ items, i.Typed
  | .conditional target branch flag otherwise =>
    target.Typed ∧ branch.Typed ∧ flag.Fills .name ∧ ∀ b ∈ otherwise, b.Typed

section Stages

def PipelineSite.Typed : PipelineSite → Prop
  | .declaration name => name.Fills .name
  | .action target count => target.Typed ∧ ∀ t ∈ count, t.Fills .number
  | .ifGroup target => target.Typed
  | .elseGroup target branch bit => target.Typed ∧ branch.Typed ∧ bit.Fills .name

def ItemSite.Typed : ItemSite → Prop
  | .lead target => target.Typed
  | .first pipeline => pipeline.Typed
  | .later pipeline before => pipeline.Typed ∧ ∀ i ∈ before, i.Typed
  | .elseBranch target branch bit => target.Typed ∧ branch.Typed ∧ bit.Fills .name

def ListSite.Typed : ListSite → Prop
  | .declaration name => name.Fills .name
  | .target => True

def OperandsSite.Typed : OperandsSite → Prop
  | .list site => site.Typed
  | .args site gate => site.Typed ∧ gate.Fills .upperName

def OperandSite.Typed : OperandSite → Prop
  | .target => True
  | .first site => site.Typed
  | .later site before => site.Typed ∧ ∀ o ∈ before, o.Typed

def Stage.Typed : Stage → Prop
  | .start | .between => True
  | .name x | .colon x | .qubitDeclaration x | .bitDeclaration x => x.Fills .name
  | .target aim | .arrow aim => aim.Typed
  | .qubitWord site => site.Typed
  | .qubit site index => site.Typed ∧ index.Fills .number
  | .listOpen site => site.Typed
  | .firstOperand site operand => site.Typed ∧ operand.Typed
  | .comma site before => site.Typed ∧ ∀ o ∈ before, o.Typed
  | .laterOperand site before operand => site.Typed ∧ (∀ o ∈ before, o.Typed) ∧ operand.Typed
  | .listEnd site items => site.Typed ∧ ∀ o ∈ items, o.Typed
  | .qubitRegister x register | .bitRegister x register => x.Fills .name ∧ register.Fills .name
  | .declared statement => statement.Typed
  | .itemStart site => site.Typed
  | .itemName site x => site.Typed ∧ x.Fills .name
  | .gateName site x | .argsOpen site x => site.Typed ∧ x.Fills .upperName
  | .itemEnd site item => site.Typed ∧ item.Typed
  | .ifGroupEnd aim items => aim.Typed ∧ ∀ i ∈ items, i.Typed
  | .elseGroupEnd aim branch bit items =>
    aim.Typed ∧ branch.Typed ∧ bit.Fills .name ∧ ∀ i ∈ items, i.Typed
  | .ifWord aim branch => aim.Typed ∧ branch.Typed
  | .condition aim branch bit => aim.Typed ∧ branch.Typed ∧ bit.Fills .name

def Reader.Typed (r : Reader) : Prop := (∀ s ∈ r.statements, s.Typed) ∧ r.stage.Typed

def Progress.Typed : Progress → Prop
  | .reading r => r.Typed
  | .whole statements => ∀ s ∈ statements, s.Typed
  | .refused _ => True

end Stages

section Steps

variable {done : List Statement} {t : Token}

end Steps

section Runs

end Runs

end GateScript.Source
