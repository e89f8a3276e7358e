import GateScript.Proofs.Decimal.Scripts
import GateScript.Proofs.Decimal.Whole
import GateScript.Proofs.Program.Joining
import GateScript.Proofs.Source.Roles

/-!
What statements mean, and what can be wrong with one.

A statement has one node, with the words and the numbers that are written in it. Apart from numbers
where only names have a place, two things can be wrong with a statement that was read: an index with
a point, and a target or a count that stands for no integer. Building comes to the nodes of all
statements, or to the first such fault.
-/
namespace GateScript

namespace Source

section Meaning

/-- Is the number written without a point? -/
def Token.isWhole (t : Token) : Bool := !t.text.toList.contains '.'

/-- The natural number that the digits spell. -/
def Token.natural (t : Token) : Nat := Decimal.ofDigits (Decimal.digitsIn t.text.toList)

def Token.number (t : Token) : Number := .spelled t.text.toList

/-- The integer that the number stands for, if it stands for one. -/
def Token.integer (t : Token) : Int := t.number.whole.toOption.getD 0

/-- The token that an operand is made of. -/
def Operand.token : Operand → Token
  | .name t => t
  | .number t => t
  | .qubit t => t

def Operand.argument : Operand → Program.Argument
  | .name t => .name t.text
  | .number t => .number t.number
  | .qubit t => .number t.number

def Item.part : Item → Program.Part
  | .gate name args => .gate ⟨name.text, args.map Operand.argument⟩
  | .named name arrow => .named ⟨name.text, arrow.isSome⟩

def Target.aim : Target → Program.Target
  | .operand (.name t) => .name t.text
  | .operand (.number t) => .index t.integer
  | .operand (.qubit t) => .index t.natural
  | .list items => .list (items.map fun o => targetItem o.argument)
  | .all _ => .all

def Branch.parts : Branch → List Program.Part
  | .item i => [i.part]
  | .group items => items.map Item.part

/-- The node of a statement: of its kind, with what is written in it. -/
def Statement.node : Statement → Program.Node
  | .qubit name register index => .qubit name.text ⟨(register.map Token.text).getD "q", index.natural⟩
  | .plainQubit name index => .qubit name.text ⟨"q", index.natural⟩
  | .bit name register index => .bit name.text ⟨(register.map Token.text).getD "c", index.natural⟩
  | .list name items => .list name.text (items.map fun o => o.token.text)
  | .instruction name items => .instruction name.text (items.map Item.part)
  | .action target count items =>
    .action target.aim (count.map Token.integer) (.parts (items.map Item.part))
  | .conditional target branch flag otherwise =>
    .conditional target.aim flag.text branch.parts (otherwise.map Branch.parts)

end Meaning

section Faults

/-- Where an integer stands: after the word `q`, in the declaration of a unit, or by itself. -/
inductive IndexPlace where
  | reference
  | declaration (kind : Program.UnitKind) (name : Token)
  | bare

/-- A number where an integer is needed. -/
structure Index where
  token : Token
  place : IndexPlace

/-- What is wrong with a number where it stands. Only by itself it may be written with a point. -/
def Index.fault? (i : Index) : Option Program.BuildError :=
  match i.place with
  | .reference =>
    if i.token.isWhole then none else some (.referenceNotInteger i.token.number.text)
  | .declaration kind name =>
    if i.token.isWhole then none
    else some (.indexNotInteger kind (Program.Value.token name.terminal.label name.text).display
      i.token.number.text)
  | .bare =>
    match i.token.number.whole with
    | .ok _ => none
    | .error fault => some (.notWhole fault)

def Operand.indices : Operand → List Index
  | .qubit t => [⟨t, .reference⟩]
  | _ => []

def Item.indices : Item → List Index
  | .gate _ args => args.flatMap Operand.indices
  | .named _ _ => []

def Target.indices : Target → List Index
  | .operand o => o.indices
  | .list items => items.flatMap Operand.indices
  | .all _ => []

def Branch.indices : Branch → List Index
  | .item i => i.indices
  | .group items => items.flatMap Item.indices

/-- The indices of a statement, in the order in which they are written. -/
def Statement.indices : Statement → List Index
  | .qubit name _ index => [⟨index, .declaration .qubit name⟩]
  | .plainQubit name index => [⟨index, .declaration .qubit name⟩]
  | .bit name _ index => [⟨index, .declaration .bit name⟩]
  | .list _ items => items.flatMap Operand.indices
  | .instruction _ items => items.flatMap Item.indices
  | .action target _ items => target.indices ++ items.flatMap Item.indices
  | .conditional target branch _ otherwise =>
    target.indices ++ (branch.indices ++ otherwise.toList.flatMap Branch.indices)

/-- The number that is a target by itself. -/
def Target.bare : Target → List Token
  | .operand (.number t) => [t]
  | _ => []

/-- The numbers that stand by themselves for a target or a count. -/
def Statement.bare : Statement → List Token
  | .action target count _ => target.bare ++ count.toList
  | .conditional target _ _ _ => target.bare
  | _ => []

end Faults

section Places

theorem Operand.place_ne_bare (o : Operand) : ∀ i ∈ o.indices, i.place ≠ .bare := by
  cases o <;> simp [Operand.indices]

theorem Item.place_ne_bare (x : Item) : ∀ i ∈ x.indices, i.place ≠ .bare := by
  cases x with
  | gate name args => exact List.forall_mem_flatMap.mpr fun o _ => o.place_ne_bare
  | named name arrow => simp [Item.indices]

theorem Target.place_ne_bare (target : Target) : ∀ i ∈ target.indices, i.place ≠ .bare := by
  cases target with
  | operand o => exact o.place_ne_bare
  | list items => exact List.forall_mem_flatMap.mpr fun o _ => o.place_ne_bare
  | all t => simp [Target.indices]

theorem Branch.place_ne_bare (branch : Branch) : ∀ i ∈ branch.indices, i.place ≠ .bare := by
  cases branch with
  | item x => exact x.place_ne_bare
  | group items => exact List.forall_mem_flatMap.mpr fun x _ => x.place_ne_bare

/-- The indices of a statement do not stand by themselves. -/
theorem Statement.place_ne_bare (s : Statement) : ∀ i ∈ s.indices, i.place ≠ .bare := by
  cases s with
  | qubit | plainQubit | bit => simp [Statement.indices]
  | list name items => exact List.forall_mem_flatMap.mpr fun o _ => o.place_ne_bare
  | instruction name items => exact List.forall_mem_flatMap.mpr fun x _ => x.place_ne_bare
  | action target count items =>
    exact List.forall_mem_append.mpr
      ⟨target.place_ne_bare, List.forall_mem_flatMap.mpr fun x _ => x.place_ne_bare⟩
  | conditional target branch flag otherwise =>
    refine List.forall_mem_append.mpr ⟨target.place_ne_bare, List.forall_mem_append.mpr
      ⟨branch.place_ne_bare, List.forall_mem_flatMap.mpr fun x _ => x.place_ne_bare⟩⟩

end Places

end Source

namespace Program

open Source (Token Terminal Operand Item Branch Statement Index)

section Settling

/-- The first fault, or the value if there is none. -/
def settle {α : Type} (indices : List Index) (a : α) : Except BuildError α :=
  match indices.findSome? Index.fault? with
  | none => .ok a
  | some e => .error e

theorem settle_append {α β γ : Type} (indices indices' : List Index) (a : α) (b : β)
    (f : α → β → γ) :
    settle (indices ++ indices') (f a b) =
      (settle indices a).bind fun a => (settle indices' b).map (f a) := by
  unfold settle
  rw [List.findSome?_append]
  cases indices.findSome? Index.fault? with
  | none => cases indices'.findSome? Index.fault? <;> rfl
  | some e => rfl

/-- A tree is built into the value, unless an index in it is at fault. -/
def Settles (t : Source.Tree Leaf) (indices : List Index) (v : Value) : Prop :=
  ∀ table, (buildTree none table t).result = settle indices v

/-- The same for trees in a row. -/
inductive SettlesAll : List (Source.Tree Leaf) → List Index → List Value → Prop
  | nil : SettlesAll [] [] []
  | cons {t : Source.Tree Leaf} {ts : List (Source.Tree Leaf)} {indices indices' : List Index}
      {v : Value} {vs : List Value} (h : Settles t indices v) (h' : SettlesAll ts indices' vs) :
    SettlesAll (t :: ts) (indices ++ indices') (v :: vs)

theorem SettlesAll.result {ts : List (Source.Tree Leaf)} {indices : List Index} {vs : List Value}
    (h : SettlesAll ts indices vs) (table : PipelineTable) :
    (buildTrees none table ts).result = settle indices vs := by
  induction h generalizing table with
  | nil => rfl
  | cons h _ ih =>
    rw [result_buildTrees_cons, h table, settle_append _ _ _ _ List.cons]
    simp only [ih]

/-- A node has the faults of its children and then those of its rule, which sees only children
without faults. -/
theorem Settles.node {rule : String} {ts : List (Source.Tree Leaf)} {indices own : List Index}
    {vs : List Value} {v : Value} (h : SettlesAll ts indices vs)
    (hrule : indices.findSome? Index.fault? = none → ∀ table,
      (buildRule none table rule vs).map Prod.fst = settle own v) :
    Settles (.node rule ts) (indices ++ own) v := by
  intro table
  rw [result_buildTree_node, h.result]
  unfold settle at hrule ⊢
  rw [List.findSome?_append]
  cases hfaults : indices.findSome? Index.fault? with
  | none => exact hrule hfaults _
  | some e => rfl

theorem Settles.absent : Settles .absent [] .nothing := fun _ => rfl

end Settling

section Pieces

end Pieces

section Statements

example :
    nodesOfText "1.0 -> X if flag" = .ok [.conditional (.index 1) "flag" [.gate ⟨"X", []⟩] none] ∧
      nodesOfText "0.5 -> H" = .error (.build (.notWhole .fractional)) ∧
      nodesOfText "9223372036854775808.0 -> H" = .error (.build (.notWhole .outOfRange)) := by
  decide +kernel

end Statements

section Agreement

end Agreement

end Program

end GateScript
