import GateScript.Proofs.Program.Numerals
import GateScript.Source.Tree

/-!
The grammar of the language, as data, and the trees that it gives to lists of tokens.

Punctuation, newlines and the words `q`, `b`, `if` and `else` leave no trace in a tree, and an
optional part that is left out leaves an absent one.
-/
namespace GateScript.Source

inductive Rule where
  | start
  | statement
  | declaration
  | qubitDeclaration
  | bitDeclaration
  | listDeclaration
  | instructionDeclaration
  | qubitRef
  | pipeline
  | named
  | gate
  | args
  | action
  | conditionalAction
  | branch
  | list
  deriving DecidableEq, Repr

/-- The name of a rule in a tree. -/
def Rule.label : Rule → String
  | .start => "start"
  | .statement => "statement"
  | .declaration => "declaration"
  | .qubitDeclaration => "qubit_declaration"
  | .bitDeclaration => "bit_declaration"
  | .listDeclaration => "list_declaration"
  | .instructionDeclaration => "instruction_declaration"
  | .qubitRef => "qubit_ref"
  | .pipeline => "gate_pip"
  | .named => "gate_pipe_by_name"
  | .gate => "gate_call"
  | .args => "args"
  | .action => "action"
  | .conditionalAction => "conditional_action"
  | .branch => "cond_pip"
  | .list => "list"

/-- The right side of a rule. -/
inductive Expr where
  | terminal (terminal : Terminal)
  | rule (rule : Rule)
  | seq (parts : List Expr)
  | choice (alternatives : List Expr)
  | optional (part : Expr)
  | many (part : Expr)

namespace Expr

/-- A first part, and more of them with a separator before each. -/
def separated (first : Expr) (separator : Terminal) (later : Expr) : Expr :=
  seq [first, many (seq [terminal separator, later])]

def operand : Expr := choice [terminal .name, terminal .number, rule .qubitRef]

def operands : Expr := separated operand .comma operand

def items : Expr :=
  separated (choice [rule .named, rule .gate]) .bar (choice [rule .gate, rule .named])

def target : Expr :=
  choice [terminal .name, terminal .number, rule .qubitRef, rule .list, terminal .all]

def newlines : Expr := many (terminal .newline)

/-- A statement and the newlines around it. -/
def block : Expr := seq [newlines, rule .statement, newlines]

def program : Expr := seq [block, many block]

end Expr

open GateScript.Source.Expr

def Rule.body : Rule → Expr
  | .start => program
  | .statement => choice [rule .declaration, rule .action, rule .conditionalAction]
  | .declaration =>
    choice [rule .qubitDeclaration, rule .bitDeclaration, rule .listDeclaration,
      rule .instructionDeclaration]
  | .qubitDeclaration =>
    choice
      [seq [terminal .name, terminal .colon, terminal .q, optional (terminal .name),
          terminal .number],
        seq [terminal .name, terminal .colon, terminal .number]]
  | .bitDeclaration =>
    seq [terminal .name, terminal .colon, terminal .b, optional (terminal .name), terminal .number]
  | .listDeclaration => seq [terminal .name, terminal .colon, rule .list]
  | .instructionDeclaration => seq [terminal .name, terminal .colon, rule .pipeline]
  | .qubitRef => seq [terminal .q, terminal .number]
  | .pipeline => items
  | .named => seq [terminal .name, optional (terminal .reverseArrow)]
  | .gate =>
    seq [terminal .upperName,
      optional (seq [terminal .openParen, optional (rule .args), terminal .closeParen])]
  | .args => operands
  | .action => seq [target, terminal .arrow, optional (terminal .number), rule .pipeline]
  | .conditionalAction =>
    choice
      [seq [target, terminal .arrow, rule .branch, terminal .ifWord, terminal .name],
        seq [target, terminal .arrow, rule .branch, terminal .ifWord, terminal .name,
          terminal .elseWord, rule .branch]]
  | .branch =>
    choice [rule .gate, rule .named,
      seq [terminal .openParen, rule .pipeline, terminal .closeParen]]
  | .list => seq [terminal .openBracket, operands, terminal .closeBracket]

/-- The terminals that stand in a tree. -/
def Terminal.isKept : Terminal → Bool
  | .name | .upperName | .number | .reverseArrow | .all => true
  | _ => false

/-- A list of tokens fits an expression and gives these trees. -/
inductive Derives : Expr → List Token → List (Tree Token) → Prop
  | kept {t : Token} (h : t.terminal.isKept = true) : Derives (.terminal t.terminal) [t] [.leaf t]
  | dropped {t : Token} (h : t.terminal.isKept = false) : Derives (.terminal t.terminal) [t] []
  | rule {r : Rule} {ts : List Token} {trees : List (Tree Token)} (h : Derives r.body ts trees) :
    Derives (.rule r) ts [.node r.label trees]
  | nil : Derives (.seq []) [] []
  | cons {e : Expr} {es : List Expr} {ts ts' : List Token} {trees trees' : List (Tree Token)}
      (h : Derives e ts trees) (h' : Derives (.seq es) ts' trees') :
    Derives (.seq (e :: es)) (ts ++ ts') (trees ++ trees')
  | choice {e : Expr} {es : List Expr} {ts : List Token} {trees : List (Tree Token)} (he : e ∈ es)
      (h : Derives e ts trees) : Derives (.choice es) ts trees
  | present {e : Expr} {ts : List Token} {trees : List (Tree Token)} (h : Derives e ts trees) :
    Derives (.optional e) ts trees
  | absent {e : Expr} : Derives (.optional e) [] [.absent]
  | none {e : Expr} : Derives (.many e) [] []
  | more {e : Expr} {ts ts' : List Token} {trees trees' : List (Tree Token)}
      (h : Derives (.many e) ts trees) (h' : Derives e ts' trees') :
    Derives (.many e) (ts ++ ts') (trees ++ trees')

section Derivations

variable {e first later : Expr} {ts ts' : List Token} {trees trees' : List (Tree Token)}

/-- The leaves of the trees are the tokens that are kept, in their order. -/
theorem Derives.leaves_eq (h : Derives e ts trees) :
    trees.flatMap Tree.leaves = ts.filter (·.terminal.isKept) := by
  induction h with
  | kept h => simp [Tree.leaves, h]
  | dropped h => simp [h]
  | rule _ ih =>
    rw [List.flatMap_singleton, Tree.leaves, Tree.leavesAll_eq, ih]
  | nil => rfl
  | cons _ _ ih ih' => rw [List.flatMap_append, List.filter_append, ih, ih']
  | choice _ _ ih => exact ih
  | present _ ih => exact ih
  | absent => rfl
  | none => rfl
  | more _ _ ih ih' => rw [List.flatMap_append, List.filter_append, ih, ih']

theorem Derives.leaf {x : Terminal} {t : Token} (hx : x.isKept = true) (ht : t.terminal = x) :
    Derives (.terminal x) [t] [.leaf t] := by
  subst ht
  exact .kept hx

theorem Derives.word {x : Terminal} {t : Token} (hx : x.isKept = false) (ht : t.terminal = x) :
    Derives (.terminal x) [t] [] := by
  subst ht
  exact .dropped hx

/-- A sequence of one part. -/
theorem Derives.single (h : Derives e ts trees) : Derives (.seq [e]) ts trees := by
  have hseq := h.cons .nil
  rwa [List.append_nil, List.append_nil] at hseq

theorem Derives.pair {e' : Expr} (h : Derives e ts trees) (h' : Derives e' ts' trees') :
    Derives (.seq [e, e']) (ts ++ ts') (trees ++ trees') := h.cons h'.single

theorem Derives.split {es : List Expr} (h : Derives (.seq (e :: es)) ts trees) :
    ∃ ts₁ ts₂ trees₁ trees₂, ts = ts₁ ++ ts₂ ∧ trees = trees₁ ++ trees₂ ∧
      Derives e ts₁ trees₁ ∧ Derives (.seq es) ts₂ trees₂ := by
  cases h with
  | cons h h' => exact ⟨_, _, _, _, rfl, rfl, h, h'⟩

theorem Derives.of_single (h : Derives (.seq [e]) ts trees) : Derives e ts trees := by
  obtain ⟨ts, ts', trees, trees', rfl, rfl, h, hnil⟩ := h.split
  cases hnil
  rwa [List.append_nil, List.append_nil]

theorem Derives.separated_one {separator : Terminal} (h : Derives first ts trees) :
    Derives (separated first separator later) ts trees := by
  have hseq := h.pair (.none : Derives (.many (.seq [terminal separator, later])) [] [])
  rwa [List.append_nil, List.append_nil] at hseq

/-- One more part at the end. -/
theorem Derives.separated_concat {separator : Terminal}
    (h : Derives (separated first separator later) ts trees)
    (h' : Derives (.seq [terminal separator, later]) ts' trees') :
    Derives (separated first separator later) (ts ++ ts') (trees ++ trees') := by
  obtain ⟨ts₁, ts₂, trees₁, trees₂, rfl, rfl, hfirst, hmany⟩ := h.split
  rw [List.append_assoc, List.append_assoc]
  exact hfirst.pair (hmany.of_single.more h')

end Derivations

section Programs

variable {ts ts' : List Token} {t : Token} {trees : List (Tree Token)}

/-- What can stand before a statement: newlines, or a whole program. -/
def Expr.opening : Expr := choice [newlines, program]

theorem Derives.newlines_concat (h : Derives newlines ts trees) (ht : t.terminal = .newline) :
    Derives newlines (ts ++ [t]) trees := by
  have hmore := h.more (Derives.word rfl ht)
  rwa [List.append_nil] at hmore

theorem Derives.block_concat (h : Derives block ts trees) (ht : t.terminal = .newline) :
    Derives block (ts ++ [t]) trees := by
  obtain ⟨ts₁, ts₂, trees₁, trees₂, rfl, rfl, hbefore, h⟩ := h.split
  obtain ⟨ts₂, ts₃, trees₂, trees₃, rfl, rfl, hstatement, hafter⟩ := h.split
  rw [List.append_assoc, List.append_assoc]
  exact hbefore.cons (hstatement.pair (hafter.of_single.newlines_concat ht))

/-- Newlines at the end go to the last statement. -/
theorem Derives.program_concat (h : Derives program ts trees) (ht : t.terminal = .newline) :
    Derives program (ts ++ [t]) trees := by
  obtain ⟨ts₁, ts₂, trees₁, trees₂, rfl, rfl, hfirst, hrest⟩ := h.split
  cases hrest.of_single with
  | none =>
    have hblock := (hfirst.block_concat ht).pair (Derives.none (e := block))
    rwa [List.append_nil] at hblock ⊢
  | more hmany hlast =>
    rw [List.append_assoc, List.append_assoc]
    exact hfirst.pair (hmany.more (hlast.block_concat ht))

theorem derives_opening_iff :
    Derives opening ts trees ↔ Derives newlines ts trees ∨ Derives program ts trees := by
  constructor
  · intro h
    cases h with
    | choice he h =>
      rcases List.mem_pair.mp he with rfl | rfl
      · exact .inl h
      · exact .inr h
  · rintro (h | h)
    · exact .choice List.mem_cons_self h
    · exact .choice (.tail _ (.head _)) h

theorem Derives.opening_newline (h : Derives opening ts trees) (ht : t.terminal = .newline) :
    Derives opening (ts ++ [t]) trees := by
  rw [derives_opening_iff] at h ⊢
  exact h.imp (·.newlines_concat ht) (·.program_concat ht)

/-- One more statement makes a program of what stood before it. -/
theorem Derives.opening_statement {tree : Tree Token} (h : Derives opening ts trees)
    (hstatement : Derives (.rule .statement) ts' [tree]) :
    Derives program (ts ++ ts') (trees ++ [tree]) := by
  have hafter : Derives (.seq [.rule .statement, newlines]) ts' [tree] := by
    have hpair := hstatement.pair (Derives.none (e := terminal .newline))
    rwa [List.append_nil] at hpair
  rcases derives_opening_iff.mp h with hnewlines | hprogram
  · have hblock : Derives block (ts ++ ts') (trees ++ [tree]) := hnewlines.cons hafter
    have hpair := hblock.pair (Derives.none (e := block))
    rwa [List.append_nil, List.append_nil] at hpair
  · obtain ⟨ts₁, ts₂, trees₁, trees₂, rfl, rfl, hfirst, hrest⟩ := hprogram.split
    have hblock : Derives block ts' [tree] := Derives.none.cons hafter
    rw [List.append_assoc, List.append_assoc]
    exact hfirst.pair (hrest.of_single.more hblock)

end Programs

end GateScript.Source
