import GateScript.Proofs.Source.Grammar
import GateScript.Source.Reader

/-!
What a reader has read, in terms of the grammar.

A stage stands for a stack of pieces: the parts of rules that are whole and not yet put together,
the last one first. A token adds a piece, and puts together those before it that it ends.
-/
namespace GateScript.Source

open GateScript.Source.Expr

/-- A part of a rule that has been read, with the trees that it gave. -/
structure Piece where
  expr : Expr
  trees : List (Tree Token)

/-- The rule that an item is read by. -/
def Item.rule : Item → Rule
  | .gate _ _ => .gate
  | .named _ _ => .named

namespace Piece

/-- A token that stands in the tree. -/
def leaf (terminal : Terminal) (t : Token) : Piece := ⟨.terminal terminal, [.leaf t]⟩

/-- A token that leaves no trace. -/
def word (terminal : Terminal) : Piece := ⟨.terminal terminal, []⟩

/-- A token that may be left out. -/
def option (terminal : Terminal) (t : Option Token) : Piece :=
  ⟨.optional (.terminal terminal), [.ofOption t]⟩

/-- The word `q` and a number. -/
def qubit (index : Token) : Piece := ⟨.rule .qubitRef, [(Operand.qubit index).tree]⟩

def operand (o : Operand) : Piece := ⟨.operand, [o.tree]⟩

def operands (os : List Operand) : Piece := ⟨.operands, os.map Operand.tree⟩

def list (os : List Operand) : Piece := ⟨.rule .list, [listTree os]⟩

def target (aim : Target) : Piece := ⟨.target, [aim.tree]⟩

def item (i : Item) : Piece := ⟨.rule i.rule, [i.tree]⟩

def items (is : List Item) : Piece := ⟨.items, is.map Item.tree⟩

def pipeline (is : List Item) : Piece := ⟨.rule .pipeline, [pipelineTree is]⟩

def branch (b : Branch) : Piece := ⟨.rule .branch, [b.tree]⟩

def statement (s : Statement) : Piece := ⟨.rule .statement, [s.tree]⟩

def program (done : List Statement) : Piece := ⟨.program, done.map Statement.tree⟩

/-- All that stands before a statement. -/
def opening (done : List Statement) : Piece := ⟨.opening, done.map Statement.tree⟩

end Piece

section Stages

variable (done : List Statement)

/-- A target and the arrow. -/
def aimedPieces (aim : Target) : List Piece := [.word .arrow, .target aim, .opening done]

/-- A target, a branch and its condition. -/
def conditionedPieces (aim : Target) (branch : Branch) (bit : Token) : List Piece :=
  .leaf .name bit :: .word .ifWord :: .branch branch :: aimedPieces done aim

/-- A name and the colon. -/
def declaredPieces (name : Token) : List Piece := [.word .colon, .leaf .name name, .opening done]

def PipelineSite.pieces : PipelineSite → List Piece
  | .declaration name => declaredPieces done name
  | .action aim count => .option .number count :: aimedPieces done aim
  | .ifGroup aim => .word .openParen :: aimedPieces done aim
  | .elseGroup aim branch bit =>
    .word .openParen :: .word .elseWord :: conditionedPieces done aim branch bit

def ItemSite.pieces : ItemSite → List Piece
  | .lead aim => aimedPieces done aim
  | .first pipeline => pipeline.pieces done
  | .later pipeline before => .word .bar :: .items before :: pipeline.pieces done
  | .elseBranch aim branch bit => .word .elseWord :: conditionedPieces done aim branch bit

def ListSite.pieces : ListSite → List Piece
  | .declaration name => declaredPieces done name
  | .target => [.opening done]

def OperandsSite.pieces : OperandsSite → List Piece
  | .list site => .word .openBracket :: site.pieces done
  | .args site gate => .word .openParen :: .leaf .upperName gate :: site.pieces done

def OperandSite.pieces : OperandSite → List Piece
  | .target => [.opening done]
  | .first operands => operands.pieces done
  | .later operands before => .word .comma :: .operands before :: operands.pieces done

def Stage.pieces : Stage → List Piece
  | .start => [.opening done]
  | .between => [.program done]
  | .name x => [.leaf .name x, .opening done]
  | .target aim => [.target aim, .opening done]
  | .qubitWord site => .word .q :: site.pieces done
  | .qubit site index => .qubit index :: site.pieces done
  | .listOpen site => .word .openBracket :: site.pieces done
  | .firstOperand site operand => .operand operand :: site.pieces done
  | .comma site before => .word .comma :: .operands before :: site.pieces done
  | .laterOperand site before operand =>
    .operand operand :: .word .comma :: .operands before :: site.pieces done
  | .listEnd site items => .list items :: site.pieces done
  | .colon x => declaredPieces done x
  | .qubitDeclaration x => .word .q :: declaredPieces done x
  | .qubitRegister x register => .option .name (some register) :: .word .q :: declaredPieces done x
  | .bitDeclaration x => .word .b :: declaredPieces done x
  | .bitRegister x register => .option .name (some register) :: .word .b :: declaredPieces done x
  | .declared statement => [.statement statement, .opening done]
  | .arrow aim => aimedPieces done aim
  | .itemStart site => site.pieces done
  | .itemName site x => .leaf .name x :: site.pieces done
  | .gateName site x => .leaf .upperName x :: site.pieces done
  | .argsOpen site gate => .word .openParen :: .leaf .upperName gate :: site.pieces done
  | .itemEnd site item => .item item :: site.pieces done
  | .ifGroupEnd aim items => .branch (.group items) :: aimedPieces done aim
  | .elseGroupEnd aim branch bit items =>
    .branch (.group items) :: .word .elseWord :: conditionedPieces done aim branch bit
  | .ifWord aim branch => .word .ifWord :: .branch branch :: aimedPieces done aim
  | .condition aim branch bit => conditionedPieces done aim branch bit

end Stages

/-- The tokens that were read as pieces. -/
inductive Spans : List Piece → List Token → Prop
  | nil : Spans [] []
  | push {p : Piece} {ps : List Piece} {ts ts' : List Token} (h : Spans ps ts)
      (hp : Derives p.expr ts' p.trees) : Spans (p :: ps) (ts ++ ts')

namespace Spans

variable {p q : Piece} {ps qs : List Piece} {ts : List Token} {t : Token}

theorem single (h : Derives p.expr ts p.trees) : Spans [p] ts := Spans.nil.push h

theorem of_single (h : Spans [p] ts) : Derives p.expr ts p.trees := by
  cases h with
  | push h hp =>
    cases h
    exact hp

/-- Pieces that take up no tokens. -/
theorem push_empty (h : Spans ps ts) (hp : Derives p.expr [] p.trees) : Spans (p :: ps) ts := by
  have hpush := h.push hp
  rwa [List.append_nil] at hpush

theorem push_leaf {x : Terminal} (h : Spans ps ts) (ht : t.terminal = x) (hx : x.isKept = true) :
    Spans (.leaf x t :: ps) (ts ++ [t]) := h.push (.leaf hx ht)

theorem push_word {x : Terminal} (h : Spans ps ts) (ht : t.terminal = x)
    (hx : x.isKept = false) : Spans (.word x :: ps) (ts ++ [t]) := h.push (.word hx ht)

theorem push_option {x : Terminal} (h : Spans ps ts) (ht : t.terminal = x)
    (hx : x.isKept = true) : Spans (.option x (some t) :: ps) (ts ++ [t]) :=
  h.push (.present (.leaf hx ht))

theorem push_none (h : Spans ps ts) (x : Terminal) : Spans (.option x none :: ps) ts :=
  h.push_empty .absent

/-- Puts a piece that takes up no tokens below the one on top. -/
theorem insert (h : Spans (p :: ps) ts) (hq : Derives q.expr [] q.trees) :
    Spans (p :: q :: ps) ts := by
  cases h with
  | push h hp => exact (h.push_empty hq).push hp

theorem split (h : Spans (qs ++ ps) ts) :
    ∃ ts₁ ts₂, ts = ts₁ ++ ts₂ ∧ Spans ps ts₁ ∧ Spans qs ts₂ := by
  induction qs generalizing ts with
  | nil => exact ⟨ts, [], (List.append_nil ts).symm, h, .nil⟩
  | cons q qs ih =>
    cases h with
    | push h hq =>
      obtain ⟨ts₁, ts₂, rfl, hps, hqs⟩ := ih h
      exact ⟨ts₁, _, List.append_assoc _ _ _, hps, hqs.push hq⟩

/-- Pieces that follow one another are a sequence. -/
theorem seq (h : Spans ps.reverse ts) :
    Derives (.seq (ps.map Piece.expr)) ts (ps.flatMap Piece.trees) := by
  induction ps generalizing ts with
  | nil =>
    cases h
    exact .nil
  | cons p ps ih =>
    rw [List.reverse_cons] at h
    obtain ⟨ts₁, ts₂, rfl, hp, hps⟩ := h.split
    exact hp.of_single.cons (ih hps)

/-- Puts together the pieces on top, which are given in the order in which they were read. -/
theorem reduce (taken : List Piece) (h : Spans (taken.reverse ++ ps) ts)
    (hp : ∀ ts, Derives (.seq (taken.map Piece.expr)) ts (taken.flatMap Piece.trees) →
      Derives p.expr ts p.trees) : Spans (p :: ps) ts := by
  obtain ⟨ts₁, ts₂, rfl, hps, htaken⟩ := h.split
  exact hps.push (hp ts₂ htaken.seq)

/-- Takes the piece on top as something else. -/
theorem convert (h : Spans (q :: ps) ts)
    (hp : ∀ ts, Derives q.expr ts q.trees → Derives p.expr ts p.trees) : Spans (p :: ps) ts := by
  cases h with
  | push h hq => exact h.push (hp _ hq)

/-- Adds one more part to a run of parts with separators. -/
theorem concat {first later : Expr} {separator : Terminal} {trees : List (Tree Token)}
    (h : Spans (p :: .word separator :: ⟨separated first separator later, trees⟩ :: ps) ts)
    (hp : ∀ ts, Derives p.expr ts p.trees → Derives later ts p.trees) :
    Spans (⟨separated first separator later, trees ++ p.trees⟩ :: ps) ts := by
  change Spans ([p, .word separator] ++ _) ts at h
  obtain ⟨ts₁, ts₂, rfl, hps, htaken⟩ := h.split
  cases hps with
  | push hps hrun =>
    cases htaken with
    | push hword hlast =>
      rw [List.append_assoc]
      exact hps.push (hrun.separated_concat (hword.of_single.pair (hp _ hlast)))

end Spans

section Constructs

variable {ps : List Piece} {ts : List Token} {t : Token}

theorem derives_operand_qubit {trees : List (Tree Token)}
    (h : Derives (.rule .qubitRef) ts trees) : Derives operand ts trees :=
  .choice (.tail _ (.tail _ (.head _))) h

theorem Spans.operand_name (h : Spans ps ts) (ht : t.terminal = .name) :
    Spans (.operand (.name t) :: ps) (ts ++ [t]) :=
  h.push (.choice (.head _) (.leaf rfl ht))

theorem Spans.operand_number (h : Spans ps ts) (ht : t.terminal = .number) :
    Spans (.operand (.number t) :: ps) (ts ++ [t]) :=
  h.push (.choice (.tail _ (.head _)) (.leaf rfl ht))

theorem Spans.qubit (h : Spans (.word .q :: ps) ts) (ht : t.terminal = .number) :
    Spans (.qubit t :: ps) (ts ++ [t]) :=
  (h.push_leaf ht rfl).reduce [.word .q, .leaf .number t] fun _ h => .rule h

theorem Spans.first_operand {o : Operand} (h : Spans (.operand o :: ps) ts) :
    Spans (.operands [o] :: ps) ts := h.convert fun _ h => h.separated_one

theorem Spans.later_operand {before : List Operand} {o : Operand}
    (h : Spans (.operand o :: .word .comma :: .operands before :: ps) ts) :
    Spans (.operands (before ++ [o]) :: ps) ts := by
  have hconcat := h.concat fun _ h => h
  rw [Piece.operands, List.map_append]
  exact hconcat

theorem Spans.list {operands : List Operand}
    (h : Spans (.operands operands :: .word .openBracket :: ps) ts)
    (ht : t.terminal = .closeBracket) : Spans (.list operands :: ps) (ts ++ [t]) := by
  refine (h.push_word ht rfl).reduce
    [.word .openBracket, .operands operands, .word .closeBracket] fun _ h => .rule ?_
  simpa [Piece.word, Piece.operands, Rule.body] using h

/-- The tree of the arguments of a gate. -/
def argsTree : List Operand → Tree Token
  | [] => .absent
  | operands => .node "args" (operands.map Operand.tree)

theorem tree_gate (gate : Token) (operands : List Operand) :
    (Item.gate gate operands).tree = .node "gate_call" [.leaf gate, argsTree operands] := by
  cases operands <;> rfl

theorem Spans.gate {gate : Token} {operands : List Operand}
    (h : Spans (⟨.optional (.rule .args), [argsTree operands]⟩ :: .word .openParen ::
      .leaf .upperName gate :: ps) ts) (ht : t.terminal = .closeParen) :
    Spans (.item (.gate gate operands) :: ps) (ts ++ [t]) := by
  have hgroup : Spans (⟨.optional (.seq [terminal .openParen, optional (.rule .args),
      terminal .closeParen]), [argsTree operands]⟩ :: .leaf .upperName gate :: ps) (ts ++ [t]) :=
    (h.push_word ht rfl).reduce [.word .openParen, ⟨.optional (.rule .args), [argsTree operands]⟩,
      .word .closeParen] fun _ h => .present h
  refine hgroup.reduce [.leaf .upperName gate, ⟨_, [argsTree operands]⟩] fun _ h => ?_
  rw [Piece.item, tree_gate]
  exact .rule h

/-- A gate with parentheses and nothing in them. -/
theorem Spans.gate_empty {gate : Token}
    (h : Spans (.word .openParen :: .leaf .upperName gate :: ps) ts)
    (ht : t.terminal = .closeParen) : Spans (.item (.gate gate []) :: ps) (ts ++ [t]) :=
  Spans.gate (h.push_empty (p := ⟨.optional (.rule .args), [argsTree []]⟩) .absent) ht

theorem Spans.gate_args {gate : Token} {operands : List Operand} (hne : operands ≠ [])
    (h : Spans (.operands operands :: .word .openParen :: .leaf .upperName gate :: ps) ts)
    (ht : t.terminal = .closeParen) : Spans (.item (.gate gate operands) :: ps) (ts ++ [t]) := by
  have htree : argsTree operands = .node "args" (operands.map Operand.tree) := by
    cases operands with
    | nil => exact absurd rfl hne
    | cons o operands => rfl
  have hargs : Spans (⟨.optional (.rule .args), [argsTree operands]⟩ :: .word .openParen ::
      .leaf .upperName gate :: ps) ts := by
    rw [htree]
    exact h.convert fun _ h => .present (.rule h)
  exact hargs.gate ht

theorem Spans.gate_bare {gate : Token} (h : Spans (.leaf .upperName gate :: ps) ts) :
    Spans (.item (.gate gate []) :: ps) ts := by
  have habsent := h.push_empty (p := ⟨.optional (.seq [terminal .openParen, optional (.rule .args),
    terminal .closeParen]), [.absent]⟩) .absent
  exact habsent.reduce [.leaf .upperName gate, ⟨_, [.absent]⟩] fun _ h => .rule h

theorem Spans.named {name : Token} {arrow : Option Token}
    (h : Spans (.option .reverseArrow arrow :: .leaf .name name :: ps) ts) :
    Spans (.item (.named name arrow) :: ps) ts :=
  h.reduce [.leaf .name name, .option .reverseArrow arrow] fun _ h => .rule h

theorem derives_item {item : Item} {alternatives : List Expr}
    (hgate : Expr.rule .gate ∈ alternatives) (hnamed : Expr.rule .named ∈ alternatives)
    (h : Derives (.rule item.rule) ts [item.tree]) :
    Derives (.choice alternatives) ts [item.tree] := by
  cases item with
  | gate name args => exact .choice hgate h
  | named name arrow => exact .choice hnamed h

theorem Spans.first_item {item : Item} (h : Spans (.item item :: ps) ts) :
    Spans (.items [item] :: ps) ts :=
  h.convert fun _ h => (derives_item (.tail _ (.head _)) (.head _) h).separated_one

theorem Spans.later_item {before : List Item} {item : Item}
    (h : Spans (.item item :: .word .bar :: .items before :: ps) ts) :
    Spans (.items (before ++ [item]) :: ps) ts := by
  have hconcat := h.concat fun _ h => derives_item (.head _) (.tail _ (.head _)) h
  rw [Piece.items, List.map_append]
  exact hconcat

theorem Spans.pipeline {items : List Item} (h : Spans (.items items :: ps) ts) :
    Spans (.pipeline items :: ps) ts := h.convert fun _ h => .rule h

theorem Spans.branch_item {item : Item} (h : Spans (.item item :: ps) ts) :
    Spans (.branch (.item item) :: ps) ts :=
  h.convert fun _ h => .rule (derives_item (.head _) (.tail _ (.head _)) h)

theorem Spans.branch_group {items : List Item}
    (h : Spans (.pipeline items :: .word .openParen :: ps) ts) (ht : t.terminal = .closeParen) :
    Spans (.branch (.group items) :: ps) (ts ++ [t]) :=
  (h.push_word ht rfl).reduce [.word .openParen, .pipeline items, .word .closeParen]
    fun _ h => .rule (.choice (.tail _ (.tail _ (.head _))) h)

end Constructs

section Statements

variable {done : List Statement} {ts : List Token}

theorem derives_declaration {r : Rule} {tree : Tree Token}
    (hr : Expr.rule r ∈ [Expr.rule .qubitDeclaration, .rule .bitDeclaration, .rule .listDeclaration,
      .rule .instructionDeclaration]) (h : Derives (.rule r) ts [tree]) :
    Derives (.rule .statement) ts [.node "statement" [.node "declaration" [tree]]] :=
  .rule (.choice (.head _) (.rule (.choice hr h)))

theorem Spans.qubit_declaration {name index : Token} {register : Option Token}
    (h : Spans (.leaf .number index :: .option .name register :: .word .q ::
      declaredPieces done name) ts) :
    Spans [.statement (.qubit name register index), .opening done] ts :=
  h.reduce [.leaf .name name, .word .colon, .word .q, .option .name register, .leaf .number index]
    fun _ h => derives_declaration (.head _) (.rule (.choice (.head _) h))

theorem Spans.plainQubit {name index : Token}
    (h : Spans (.leaf .number index :: declaredPieces done name) ts) :
    Spans [.statement (.plainQubit name index), .opening done] ts :=
  h.reduce [.leaf .name name, .word .colon, .leaf .number index]
    fun _ h => derives_declaration (.head _) (.rule (.choice (.tail _ (.head _)) h))

theorem Spans.bit_declaration {name index : Token} {register : Option Token}
    (h : Spans (.leaf .number index :: .option .name register :: .word .b ::
      declaredPieces done name) ts) :
    Spans [.statement (.bit name register index), .opening done] ts :=
  h.reduce [.leaf .name name, .word .colon, .word .b, .option .name register, .leaf .number index]
    fun _ h => derives_declaration (.tail _ (.head _)) (.rule h)

theorem Spans.list_declaration {name : Token} {items : List Operand}
    (h : Spans (.list items :: declaredPieces done name) ts) :
    Spans [.statement (.list name items), .opening done] ts :=
  h.reduce [.leaf .name name, .word .colon, .list items]
    fun _ h => derives_declaration (.tail _ (.tail _ (.head _))) (.rule h)

theorem Spans.instruction_declaration {name : Token} {items : List Item}
    (h : Spans (.pipeline items :: declaredPieces done name) ts) :
    Spans [.statement (.instruction name items), .opening done] ts :=
  h.reduce [.leaf .name name, .word .colon, .pipeline items]
    fun _ h => derives_declaration (.tail _ (.tail _ (.tail _ (.head _)))) (.rule h)

theorem Spans.action {aim : Target} {count : Option Token} {items : List Item}
    (h : Spans (.pipeline items :: .option .number count :: aimedPieces done aim) ts) :
    Spans [.statement (.action aim count items), .opening done] ts :=
  h.reduce [.target aim, .word .arrow, .option .number count, .pipeline items]
    fun _ h => .rule (.choice (.tail _ (.head _)) (.rule h))

theorem Spans.conditional {aim : Target} {branch : Branch} {bit : Token}
    (h : Spans (conditionedPieces done aim branch bit) ts) :
    Spans [.statement (.conditional aim branch bit none), .opening done] ts :=
  h.reduce [.target aim, .word .arrow, .branch branch, .word .ifWord, .leaf .name bit]
    fun _ h => .rule (.choice (.tail _ (.tail _ (.head _))) (.rule (.choice (.head _) h)))

theorem Spans.conditional_else {aim : Target} {branch other : Branch} {bit : Token}
    (h : Spans (.branch other :: .word .elseWord :: conditionedPieces done aim branch bit) ts) :
    Spans [.statement (.conditional aim branch bit (some other)), .opening done] ts :=
  h.reduce [.target aim, .word .arrow, .branch branch, .word .ifWord, .leaf .name bit,
    .word .elseWord, .branch other]
    fun _ h => .rule (.choice (.tail _ (.tail _ (.head _))) (.rule (.choice (.tail _ (.head _)) h)))

theorem Spans.program {s : Statement} (h : Spans [.statement s, .opening done] ts) :
    Derives program ts ((done ++ [s]).map Statement.tree) := by
  cases h with
  | push h hs =>
    rw [List.map_append]
    exact h.of_single.opening_statement hs

end Statements

end GateScript.Source
