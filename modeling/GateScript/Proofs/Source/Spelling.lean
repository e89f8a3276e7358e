import GateScript.Proofs.Source.Scanning
import GateScript.Program.Node
import GateScript.Source.Statement
import Mathlib.Data.List.Forall2

/-! Which statements spell which nodes, wherever their tokens stand. -/
namespace GateScript.Source

open Program (Argument Part Node TargetItem)

/-- A token by its terminal and its text. -/
def Token.Is (t : Token) (terminal : Terminal) (text : String) : Prop :=
  t.terminal = terminal ∧ t.text = text

inductive Operand.Spells : Operand → Argument → Prop
  | name {t : Token} {s : String} (h : t.Is .name s) : Spells (.name t) (.name s)
  | number {t : Token} {n : Nat} (h : t.Is .number (toString n)) :
    Spells (.number t) (.number (.int n))

inductive Item.Spells : Item → Part → Prop
  | gate {t : Token} {name : String} {operands : List Operand} {args : List Argument}
      (h : t.Is .upperName name) (hargs : List.Forall₂ Operand.Spells operands args) :
    Spells (.gate t operands) (.gate ⟨name, args⟩)
  | named {t : Token} {name : String} (h : t.Is .name name) :
    Spells (.named t none) (.named ⟨name, false⟩)
  | backwards {t arrow : Token} {name : String} (h : t.Is .name name)
      (harrow : arrow.Is .reverseArrow "<-") :
    Spells (.named t (some arrow)) (.named ⟨name, true⟩)

/-- An operand as an element of a list of targets. -/
def targetItem : Argument → TargetItem
  | .name s => .name s
  | .number n => .number n

inductive Target.Spells : Target → Program.Target → Prop
  | all {t : Token} (h : t.Is .all "*") : Spells (.all t) .all
  | name {t : Token} {s : String} (h : t.Is .name s) (hs : isName s) :
    Spells (.operand (.name t)) (.name s)
  | index {t : Token} {n : Nat} (h : t.Is .number (toString n)) :
    Spells (.operand (.number t)) (.index n)
  | list {operands : List Operand} {args : List Argument}
      (h : List.Forall₂ Operand.Spells operands args) :
    Spells (.list operands) (.list (args.map targetItem))

inductive Branch.Spells : Branch → List Part → Prop
  | item {item : Item} {part : Part} (h : item.Spells part) : Spells (.item item) [part]
  | group {items : List Item} {parts : List Part} (h : List.Forall₂ Item.Spells items parts) :
    Spells (.group items) parts

inductive SpellsCount : Option Token → Option Int → Prop
  | none : SpellsCount none none
  | some {t : Token} {n : Nat} (h : t.Is .number (toString n)) : SpellsCount (some t) (some n)

inductive SpellsElse : Option Branch → Option (List Part) → Prop
  | none : SpellsElse none none
  | some {branch : Branch} {parts : List Part} (h : branch.Spells parts) :
    SpellsElse (some branch) (some parts)

/-- A register that is not written is the default one. -/
inductive SpellsRegister (default : String) : Option Token → String → Prop
  | none : SpellsRegister default none default
  | some {t : Token} {r : String} (h : t.Is .name r) : SpellsRegister default (some t) r

/-- A statement is a way to write a node. -/
inductive Statement.Spells : Statement → Node → Prop
  | qubit {name index : Token} {register : Option Token} {x r : String} {n : Nat}
      (hname : name.Is .name x) (hregister : SpellsRegister "q" register r)
      (hindex : index.Is .number (toString n)) :
    Spells (.qubit name register index) (.qubit x ⟨r, n⟩)
  | bit {name index : Token} {register : Option Token} {x r : String} {n : Nat}
      (hname : name.Is .name x) (hregister : SpellsRegister "c" register r)
      (hindex : index.Is .number (toString n)) :
    Spells (.bit name register index) (.bit x ⟨r, n⟩)
  | list {name : Token} {x : String} {operands : List Operand} {items : List String}
      (hname : name.Is .name x) (h : List.Forall₂ Operand.Spells operands (items.map .name)) :
    Spells (.list name operands) (.list x items)
  | instruction {name : Token} {x : String} {items : List Item} {parts : List Part}
      (hname : name.Is .name x) (h : List.Forall₂ Item.Spells items parts) :
    Spells (.instruction name items) (.instruction x parts)
  | action {target : Target} {aim : Program.Target} {count : Option Token} {times : Option Int}
      {items : List Item} {parts : List Part} (htarget : target.Spells aim)
      (hcount : SpellsCount count times) (h : List.Forall₂ Item.Spells items parts) :
    Spells (.action target count items) (.action aim times (.parts parts))
  | conditional {target : Target} {aim : Program.Target} {branch : Branch} {flag : Token}
      {b : String} {otherwise : Option Branch} {ifParts : List Part}
      {elseParts : Option (List Part)} (htarget : target.Spells aim)
      (hbranch : branch.Spells ifParts) (hflag : flag.Is .name b) (helse : SpellsElse otherwise elseParts) :
    Spells (.conditional target branch flag otherwise) (.conditional aim b ifParts elseParts)

end GateScript.Source
