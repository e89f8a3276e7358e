import GateScript.Ordered
import GateScript.Program.Inline
import GateScript.Program.Value
import GateScript.Source.Tree

/-!
Building nodes from parse trees, children first.

A rule finds out which of its forms it has before it by the number of its children and by the
optional ones that are absent, so hand-made trees are built in the same way as parsed ones.
-/
namespace GateScript.Program

/-- A leaf of a tree to be built. -/
inductive Leaf where
  | token (terminal text : String)
  | text (text : String)
  | number (value : Number)
  deriving DecidableEq, Repr

/-- The kinds of unit that can be declared. -/
inductive UnitKind where
  | qubit
  | bit
  deriving DecidableEq, Repr

/-- The children that a rule takes: those that it needs, by name, and how many more it may have. -/
structure RuleForm where
  rule : String
  needed : List String
  optional : Nat
  deriving DecidableEq, Repr

/-- Why a tree cannot be built. -/
inductive BuildError where
  /-- The text of a number is no integer. -/
  | notInteger (text : String)
  | tooManyDigits (count limit : Nat)
  /-- The text of a number has a point and is no decimal. -/
  | notDecimal (text : String)
  | referenceNotInteger (shown : String)
  | referenceNegative (index : Int)
  | indexNotInteger (kind : UnitKind) (name shown : String)
  | indexNegative (kind : UnitKind) (name : String) (index : Int)
  | cyclic (reference : CyclicReference)
  /-- A child that is needed is not there. -/
  | missingChild
  /-- A rule has too few or too many children. -/
  | childCount (form : RuleForm) (given : Nat)
  /-- What should be a pipeline has no parts. -/
  | noParts
  /-- A value is of the wrong type. -/
  | invalid
  /-- A number stands for no integer where one is needed. -/
  | notWhole (fault : Decimal.WholeFault)
  deriving DecidableEq, Repr

def UnitKind.title : UnitKind → String
  | .qubit => "Qubit"
  | .bit => "Bit"

def UnitKind.declaration : UnitKind → String
  | .qubit => "qubit declaration "
  | .bit => "bit declaration "

/-- Several names in a sentence. -/
def enumerate : List String → String
  | [] => ""
  | [a] => a
  | [a, b] => a ++ " and " ++ b
  | names => ", ".intercalate names.dropLast ++ ", and " ++ names.getLast?.getD ""

/-- How a wrong number of children is reported. The rule itself counts as one more. -/
def RuleForm.message (form : RuleForm) (given : Nat) : String :=
  "AstBuilder." ++ form.rule ++ "() " ++
    (if given < form.needed.length then
      let missing := form.needed.drop given
      "missing " ++ toString missing.length ++ " required positional argument" ++
        (if missing.length = 1 then ": " else "s: ") ++ enumerate (missing.map Text.quoted)
    else
      let least := form.needed.length + 1
      "takes " ++
        (if form.optional = 0 then toString least
          else "from " ++ toString least ++ " to " ++ toString (least + form.optional)) ++
        " positional arguments but " ++ toString (given + 1) ++ " were given")

/-- The text of an error, if it has one. -/
def BuildError.message : BuildError → Option String
  | .notInteger s =>
    some ("invalid literal for int() with base 10: " ++
      String.ofList ((Text.quoted s).toList.take 200))
  | .tooManyDigits count limit =>
    some ("Exceeds the limit (" ++ toString limit ++
      " digits) for integer string conversion: value has " ++ toString count ++
      " digits; use sys.set_int_max_str_digits() to increase the limit")
  | .notDecimal s => some ("could not convert string to float: " ++ Text.quoted s)
  | .referenceNotInteger shown =>
    some ("Qubit index in 'q N' syntax must be a non-negative integer, got " ++ shown ++
      ". Use bare numbers for gate angles, e.g. RZ(0.5).")
  | .referenceNegative index =>
    some ("Qubit index in 'q N' syntax must be non-negative, got " ++ toString index ++ ".")
  | .indexNotInteger kind name shown =>
    some (kind.title ++ " index in " ++ kind.declaration ++ name ++
      " must be a non-negative integer, got " ++ shown ++ ".")
  | .indexNegative kind name index =>
    some (kind.title ++ " index in " ++ kind.declaration ++ name ++
      " must be non-negative, got " ++ toString index ++ ".")
  | .cyclic reference => some reference.message
  | .missingChild => some "list index out of range"
  | .childCount form given => some (form.message given)
  | .noParts => none
  | .invalid => none
  | .notWhole _ => none

/-- The number that a text stands for. -/
def buildNumber (limit : Option Nat) (text : String) : Except BuildError Value :=
  match Number.read limit text with
  | .ok n => .ok (.number n)
  | .error .decimal => .error (.notDecimal text)
  | .error (.integer .malformed) => .error (.notInteger text)
  | .error (.integer (.tooManyDigits count limit)) => .error (.tooManyDigits count limit)

/-- A token of a number becomes the number. -/
def Leaf.build (limit : Option Nat) : Leaf → Except BuildError Value
  | .token "NUMBER" s => buildNumber limit s
  | .token terminal s => .ok (.token terminal s)
  | .text s => .ok (.text s)
  | .number n => .ok (.number n)

/-- The index after the word `q`. -/
def buildReference : Value → Except BuildError Value
  | .number (.int n) => if n < 0 then .error (.referenceNegative n) else .ok (.number (.int n))
  | v => .error (.referenceNotInteger v.display)

/-- The index of a declared unit. -/
def buildIndex (kind : UnitKind) (name : Value) : Value → Except BuildError Nat
  | .number (.int n) =>
    if n < 0 then .error (.indexNegative kind name.display n) else .ok n.toNat
  | v => .error (.indexNotInteger kind name.display v.display)

/-- The unit that a declaration makes. -/
def UnitKind.node (kind : UnitKind) (name : String) (register : Option String) (index : Nat) : Node :=
  match kind with
  | .qubit => .qubit name ⟨register.getD "q", index⟩
  | .bit => .bit name ⟨register.getD "c", index⟩

def UnitKind.form : UnitKind → RuleForm
  | .qubit => ⟨"qubit_declaration", ["name", "reg_or_number"], 1⟩
  | .bit => ⟨"bit_declaration", ["name", "reg_or_number"], 1⟩

/-- A declaration of a unit: the name, the register if it is given, and the index. -/
def buildUnit (kind : UnitKind) : List Value → Except BuildError Value
  | [name, index] | [name, index, .nothing] | [name, .nothing, index] =>
    (buildIndex kind name index).map fun n => .node (kind.node name.plain none n)
  | [name, register, index] =>
    (buildIndex kind name index).map fun n =>
      .node (kind.node name.plain (some register.plain) n)
  | children => .error (.childCount kind.form children.length)

/-- An argument of a gate is a name or a number. -/
def Argument.ofValue? : Value → Option Argument
  | .number n => some (.number n)
  | v => v.string?.map .name

def buildGate : List Value → Except BuildError Value
  | [] => .error .missingChild
  | [name] | name :: .nothing :: _ => .ok (.gate ⟨name.plain, []⟩)
  | name :: .list args :: _ =>
    match args.mapM Argument.ofValue? with
    | some args => .ok (.gate ⟨name.plain, args⟩)
    | none => .error .invalid
  | _ => .error .invalid

def LoosePart.ofValue? : Value → Option LoosePart
  | .gate g => some (.part (.gate g))
  | .named r => some (.part (.named r))
  | v => v.string?.map .name

def LoosePart.part? : LoosePart → Option Part
  | .part p => some p
  | .name _ => none

/-- A pipeline. Bare names in it are written out, and none may be left. -/
def buildPipeline (table : PipelineTable) (items : List Value) : Except BuildError Value :=
  match inlineParts table (items.filterMap LoosePart.ofValue?) with
  | .error e => .error (.cyclic e)
  | .ok parts =>
    if items.all fun v => (LoosePart.ofValue? v).isSome then
      match parts.mapM LoosePart.part? with
      | some parts => .ok (.pipeline parts)
      | none => .error .invalid
    else .error .invalid

def buildNamed : List Value → Except BuildError Value
  | [name] | [name, .nothing] =>
    match name.string? with
    | some s => .ok (.named ⟨s, false⟩)
    | none => .error .invalid
  | [name, _] =>
    match name.string? with
    | some s => .ok (.named ⟨s, true⟩)
    | none => .error .invalid
  | children => .error (.childCount ⟨"gate_pipe_by_name", ["name"], 1⟩ children.length)

def TargetItem.ofValue? : Value → Option TargetItem
  | .number n => some (.number n)
  | .nothing => some .nothing
  | .list _ => some .list
  | v => v.string?.map .name

/-- A target is a name, a number that stands for an integer, or a list. -/
def Target.ofValue : Value → Except BuildError Target
  | .number n => (n.whole.map .index).mapError .notWhole
  | .list items =>
    match items.mapM TargetItem.ofValue? with
    | some items => .ok (.list items)
    | none => .error .invalid
  | v =>
    match v.string? with
    | some s => .ok (if s = "*" then .all else .name s)
    | none => .error .invalid

/-- A count is a number that stands for an integer, or the text of one. -/
def countOfValue : Value → Except BuildError (Option Int)
  | .nothing => .ok none
  | .number n => (n.whole.map some).mapError .notWhole
  | v =>
    match v.string?.bind fun s => Decimal.readInt? s.toList with
    | some n => .ok (some n)
    | none => .error .invalid

def buildAction : List Value → Except BuildError Value
  | [target, count, .pipeline parts] =>
    (Target.ofValue target).bind fun target =>
      (countOfValue count).map fun count => .node (.action target count (.parts parts))
  | [_, _, _] => .error .noParts
  | children =>
    .error (.childCount ⟨"action", ["target", "count", "instruction"], 0⟩ children.length)

/-- A branch of a conditional action. A single gate or reference is a pipeline of its own. -/
def buildBranch : List Value → Except BuildError Value
  | [] => .error .missingChild
  | .gate g :: _ => .ok (.pipeline [.gate g])
  | .named r :: _ => .ok (.pipeline [.named r])
  | v :: _ => .ok v

def branchOfValue? : Value → Option (Option (List Part))
  | .nothing => some none
  | .pipeline parts => some (some parts)
  | _ => none

def buildConditional : List Value → Except BuildError Value
  | target :: branch :: bit :: rest =>
    (Target.ofValue target).bind fun target =>
      match branch, branchOfValue? (rest.headD .nothing) with
      | .pipeline parts, some otherwise =>
        .ok (.node (.conditional target bit.plain parts otherwise))
      | _, _ => .error .invalid
  | _ => .error .missingChild

def buildList : List Value → Except BuildError Value
  | [name, .list items] =>
    match name.string?, items.mapM Value.string? with
    | some name, some items => .ok (.node (.list name items))
    | _, _ => .error .invalid
  | [_, _] => .error .invalid
  | children => .error (.childCount ⟨"list_declaration", ["name", "lst"], 0⟩ children.length)

def firstChild : List Value → Except BuildError Value
  | [] => .error .missingChild
  | v :: _ => .ok v

/-- What a rule makes of its children. A declared pipeline is also entered into the table. -/
def buildRule (limit : Option Nat) (table : PipelineTable) (rule : String) (children : List Value) :
    Except BuildError (Value × PipelineTable) :=
  match rule with
  | "instruction_declaration" =>
    match children with
    | [name, .pipeline parts] =>
      match name.string? with
      | some name =>
        .ok (.node (.instruction name parts), table ++ [(name, parts.map .part)])
      | none => .error .invalid
    | [_, _] => .error .invalid
    | _ =>
      .error (.childCount ⟨"instruction_declaration", ["name", "gate_pip"], 0⟩ children.length)
  | "qubit_ref" =>
    match children with
    | [v] => (buildReference v).map (·, table)
    | _ => .error (.childCount ⟨"qubit_ref", ["number"], 0⟩ children.length)
  | "qubit_declaration" => (buildUnit .qubit children).map (·, table)
  | "bit_declaration" => (buildUnit .bit children).map (·, table)
  | "list_declaration" => (buildList children).map (·, table)
  | "gate_call" => (buildGate children).map (·, table)
  | "gate_pip" => (buildPipeline table children).map (·, table)
  | "gate_pipe_by_name" => (buildNamed children).map (·, table)
  | "action" => (buildAction children).map (·, table)
  | "cond_pip" => (buildBranch children).map (·, table)
  | "conditional_action" => (buildConditional children).map (·, table)
  | "list" => .ok (.list children, table)
  | "args" => .ok (.list children, table)
  | "start" => .ok (.list children, table)
  | "declaration" => (firstChild children).map (·, table)
  | "statement" => (firstChild children).map (·, table)
  | "NUMBER" => (buildNumber limit (Value.list children).display).map (·, table)
  | _ => .ok (.tree rule children, table)

/-- A value or an error, and the pipelines declared by then. -/
structure Built (α : Type) where
  result : Except BuildError α
  table : PipelineTable

mutual

/-- Builds a tree, knowing the pipelines declared before and how many digits an integer may have. -/
def buildTree (limit : Option Nat) (table : PipelineTable) : Source.Tree Leaf → Built Value
  | .absent => ⟨.ok .nothing, table⟩
  | .leaf l => ⟨l.build limit, table⟩
  | .node rule children =>
    match buildTrees limit table children with
    | ⟨.error e, table⟩ => ⟨.error e, table⟩
    | ⟨.ok values, table⟩ =>
      match buildRule limit table rule values with
      | .error e => ⟨.error e, table⟩
      | .ok (value, table) => ⟨.ok value, table⟩

def buildTrees (limit : Option Nat) (table : PipelineTable) : List (Source.Tree Leaf) → Built (List Value)
  | [] => ⟨.ok [], table⟩
  | t :: ts =>
    match buildTree limit table t with
    | ⟨.error e, table⟩ => ⟨.error e, table⟩
    | ⟨.ok value, table⟩ =>
      match buildTrees limit table ts with
      | ⟨.error e, table⟩ => ⟨.error e, table⟩
      | ⟨.ok values, table⟩ => ⟨.ok (value :: values), table⟩

end

/-- Builds trees one after the other. An error in one does not stop the next. -/
def buildEach (limit : Option Nat) (table : PipelineTable) : List (Source.Tree Leaf) →
    List (Except BuildError Value) × PipelineTable
  | [] => ([], table)
  | t :: ts =>
    let built := buildTree limit table t
    let rest := buildEach limit built.table ts
    (built.result :: rest.1, rest.2)

/-- The declared names, each once, in order. -/
def PipelineTable.names (table : PipelineTable) : List String :=
  table.foldl (fun names entry =>
    if names.contains entry.1 then names
    else insertOrdered (fun a b => decide (a < b)) entry.1 names) []

def Value.node? : Value → Option Node
  | .node n => some n
  | _ => none

/-- The nodes of a program that has been read. -/
def nodesOf (limit : Option Nat) (statements : List Source.Statement) : Except BuildError (List Node) :=
  let leaf (t : Source.Token) : Leaf := .token t.terminal.label t.text
  match (buildTree limit [] ((Source.programTree statements).map leaf)).result with
  | .error e => .error e
  | .ok (.list values) => .ok (values.filterMap Value.node?)
  | .ok _ => .ok []

end GateScript.Program
