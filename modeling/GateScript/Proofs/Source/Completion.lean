import GateScript.Proofs.Source.Reading

/-!
What is missing to a whole program.

At every stage of a statement there are tokens that end it. They depend on what the piece being read
belongs to: a pipeline in parentheses has to be closed and needs its condition, a list in front of an
arrow needs the arrow and something to do.
-/
namespace GateScript.Source

section Endings

/-- The tokens that end a pipeline and its statement. -/
def PipelineSite.ending : PipelineSite → List String
  | .declaration _ | .action _ _ => []
  | .ifGroup _ => [")", "if", "x"]
  | .elseGroup _ _ _ => [")"]

/-- The tokens after an item. -/
def ItemSite.ending : ItemSite → List String
  | .lead _ | .elseBranch _ _ _ => []
  | .first pipeline | .later pipeline _ => pipeline.ending

/-- The tokens after a list in brackets. -/
def ListSite.ending : ListSite → List String
  | .declaration _ => []
  | .target => ["->", "H"]

/-- The tokens after an operand of a run. -/
def OperandsSite.ending : OperandsSite → List String
  | .list site => "]" :: site.ending
  | .args site _ => ")" :: site.ending

/-- The tokens after an operand. -/
def OperandSite.ending : OperandSite → List String
  | .target => ["->", "H"]
  | .first operands | .later operands _ => operands.ending

/-- The tokens that make a whole program of what was read. -/
def Stage.completion : Stage → List String
  | .start => ["0", "->", "H"]
  | .between | .declared _ | .elseGroupEnd _ _ _ _ | .condition _ _ _ => []
  | .name _ | .target _ => ["->", "H"]
  | .qubitWord site => "0" :: site.ending
  | .qubit site _ => site.ending
  | .listOpen site => "0" :: (OperandsSite.list site).ending
  | .firstOperand site _ | .laterOperand site _ _ => site.ending
  | .comma site _ => "0" :: site.ending
  | .listEnd site _ => site.ending
  | .colon _ | .qubitDeclaration _ | .qubitRegister _ _ | .bitDeclaration _ | .bitRegister _ _ =>
    ["0"]
  | .arrow _ => ["H"]
  | .itemStart site => "H" :: site.ending
  | .itemName site _ | .gateName site _ | .itemEnd site _ => site.ending
  | .argsOpen site _ => ")" :: site.ending
  | .ifGroupEnd _ _ => ["if", "x"]
  | .ifWord _ _ => ["x"]

end Endings

section Tokens

variable {r : Reader} {ss : List String}

/-- Reading on with these tokens makes a whole program. -/
def Completes (r : Reader) (ss : List String) : Prop := Accepts r (spell ss []) fun _ => True

theorem completes_nil {statements : List Statement} (h : Ends r statements) : Completes r [] :=
  accepts_end h.endOfText trivial

theorem completes_literal (t : Terminal) {s : String} (hs : t.literal? = some s)
    (hfollow : r.stage.follow.contains t)
    (h : ∀ start stop, ∃ r', r.feed ⟨t, s, start, stop⟩ = .reading r' ∧ Completes r' ss) :
    Completes r (s :: ss) := accepts_literal t hs .nil hfollow h

theorem completes_number (hfollow : r.stage.follow.contains .number)
    (h : ∀ start stop, ∃ r', r.feed ⟨.number, "0", start, stop⟩ = .reading r' ∧ Completes r' ss) :
    Completes r ("0" :: ss) := accepts_lexeme .nil (reads_number 0 hfollow) h

end Tokens

section Stages

variable {done : List Statement} {stage : Stage}

theorem completes_condition (target : Target) (branch : Branch) :
    Completes ⟨done, .ifWord target branch⟩ ["x"] := by
  have hreads : Reads (Stage.ifWord target branch).follow "x" .name :=
    reads_word (by decide) (reserve_name (.inr rfl) (.inr rfl)) rfl rfl rfl
  refine accepts_lexeme (r := ⟨done, .ifWord target branch⟩) .nil hreads fun start stop => ?_
  exact ⟨_, rfl, completes_nil (ends_condition target branch _)⟩

theorem completes_ifGroup (target : Target) (items : List Item) :
    Completes ⟨done, .ifGroupEnd target items⟩ ["if", "x"] := by
  apply completes_literal .ifWord rfl rfl
  intro start stop
  exact ⟨_, rfl, completes_condition target (.group items)⟩

theorem completes_items {site : PipelineSite} {items : List Item}
    (h : AfterItems site stage items) : Completes ⟨done, stage⟩ site.ending := by
  have hclose := h.follow (t := .closeParen) (by decide)
  cases site with
  | declaration name => exact completes_nil (ends_instruction h)
  | action target count => exact completes_nil (ends_action h)
  | ifGroup target =>
    apply completes_literal .closeParen rfl hclose
    intro start stop
    exact ⟨_, h.feed_closeParen (by simp) rfl, completes_ifGroup target items⟩
  | elseGroup target branch bit =>
    apply completes_literal .closeParen rfl hclose
    intro start stop
    exact ⟨_, h.feed_closeParen (by simp) rfl,
      completes_nil (ends_elseGroup target branch bit items)⟩

theorem completes_item {site : ItemSite} {item : Item} (h : AfterItem site stage item) :
    Completes ⟨done, stage⟩ site.ending := by
  cases site with
  | lead target => exact completes_items (.lead h)
  | first pipeline => exact completes_items (.first h)
  | later pipeline before => exact completes_items (.later h)
  | elseBranch target branch bit => exact completes_nil (ends_elseItem h)

theorem completes_gate {site : ItemSite} (h : StartsItem stage site) :
    Completes ⟨done, stage⟩ ("H" :: site.ending) := by
  apply accepts_lexeme .nil (reads_gateName (by decide) h.upperName)
  intro start stop
  have hfeed : Reader.feed ⟨done, stage⟩ ⟨.upperName, "H", start, stop⟩ =
      .reading ⟨done, .gateName site ⟨.upperName, "H", start, stop⟩⟩ :=
    feed_extend h.upperName (h.extend _ (.inr rfl))
  exact ⟨_, hfeed, completes_item (.gate _)⟩

/-- A target that stands before the arrow. -/
theorem completes_target (target : Target) (hfollow : stage.follow.contains .arrow)
    (hfeed : ∀ t : Token, t.terminal = .arrow →
      Reader.feed ⟨done, stage⟩ t = .reading ⟨done, .arrow target⟩) :
    Completes ⟨done, stage⟩ ["->", "H"] := by
  apply completes_literal .arrow rfl hfollow
  intro start stop
  exact ⟨_, hfeed _ rfl, completes_gate (startsItem_arrow target)⟩

theorem completes_aim (target : Target) : Completes ⟨done, .target target⟩ ["->", "H"] := by
  apply completes_target target rfl
  intro t ht
  exact feed_extend (by rw [ht]; rfl) (if_pos ht)

theorem completes_list (site : ListSite) (items : List Operand) :
    Completes ⟨done, .listEnd site items⟩ site.ending := by
  cases site with
  | declaration name => exact completes_nil (ends_list name items)
  | target =>
    apply completes_target (.list items) rfl
    intro t ht
    simp [Reader.feed, Stage.follow, afterList, Stage.extend, Stage.close, ht]

/-- A run of operands that is closed by the next token. -/
theorem completes_operands {site : OperandsSite} (operands : List Operand)
    (hfollow : stage.follow.contains site.closing)
    (hfeed : ∀ t : Token, t.terminal = site.closing →
      Reader.feed ⟨done, stage⟩ t = .reading ⟨done, site.closed operands⟩) :
    Completes ⟨done, stage⟩ site.ending := by
  cases site with
  | list site =>
    apply completes_literal .closeBracket rfl hfollow
    intro start stop
    exact ⟨_, hfeed _ rfl, completes_list site operands⟩
  | args site gate =>
    apply completes_literal .closeParen rfl hfollow
    intro start stop
    exact ⟨_, hfeed _ rfl, completes_item (.whole _)⟩

theorem completes_operand {site : OperandsSite} {operands : List Operand}
    (h : AfterOperand site stage operands) : Completes ⟨done, stage⟩ site.ending :=
  completes_operands operands h.closing_follow fun _ ht => h.feed_closing ht

theorem completes_qubit (site : OperandSite) (index : Token) :
    Completes ⟨done, .qubit site index⟩ site.ending := by
  cases site with
  | target =>
    apply completes_target (.operand (.qubit index)) rfl
    intro t ht
    simp [Reader.feed, Stage.follow, Stage.extend, Stage.close, ht]
  | first site =>
    apply completes_operands [.qubit index]
    · cases site <;> rfl
    · intro t ht
      cases site <;> simp [Reader.feed, Stage.follow, Stage.extend, Stage.close, endOperand, ht,
        OperandsSite.closing, OperandsSite.closed]
  | later site before =>
    apply completes_operands (before ++ [.qubit index])
    · cases site <;> rfl
    · intro t ht
      cases site <;> simp [Reader.feed, Stage.follow, Stage.extend, Stage.close, endOperand, ht,
        OperandsSite.closing, OperandsSite.closed]

/-- A number is an operand wherever one can begin. -/
theorem completes_startsOperand {site : OperandsSite} {written : Operand → Stage}
    (h : StartsOperand stage written)
    (hwritten : ∀ operand, ∃ operands, AfterOperand site (written operand) operands) :
    Completes ⟨done, stage⟩ ("0" :: site.ending) := by
  apply completes_number h.number
  intro start stop
  obtain ⟨operands, hafter⟩ := hwritten (.number ⟨.number, "0", start, stop⟩)
  exact ⟨_, feed_extend h.number (h.extendNumber _ rfl), completes_operand hafter⟩

theorem completes_declaration (statement : Token → Statement)
    (hfollow : stage.follow.contains .number)
    (hextend : ∀ t : Token, t.terminal = .number →
      stage.extend t = some (.declared (statement t))) :
    Completes ⟨done, stage⟩ ["0"] := by
  apply completes_number hfollow
  intro start stop
  exact ⟨_, feed_extend hfollow (hextend _ rfl), completes_nil (ends_declared _)⟩

theorem completes_between : Completes ⟨done, .between⟩ [] := by
  have hwhole : ∀ t : Token, t.terminal = .endOfText →
      Reader.feed ⟨done, .between⟩ t = .whole done := by
    intro t ht
    simp [Reader.feed, Stage.follow, afterStatement, Stage.extend, Stage.close, ht]
  exact accepts_end hwhole trivial

/-- Whatever was read can be made a whole program. -/
theorem completes_completion (done : List Statement) (stage : Stage) :
    Completes ⟨done, stage⟩ stage.completion := by
  cases stage with
  | start =>
    apply completes_number rfl
    intro start stop
    exact ⟨_, rfl, completes_aim _⟩
  | between => exact completes_between
  | name x =>
    apply completes_target (.operand (.name x)) rfl
    intro t ht
    simp [Reader.feed, Stage.follow, Stage.extend, ht]
  | target target => exact completes_aim target
  | qubitWord site =>
    apply completes_number rfl
    intro start stop
    exact ⟨_, rfl, completes_qubit site _⟩
  | qubit site index => exact completes_qubit site index
  | listOpen site => exact completes_startsOperand (startsOperand_list site) fun o => ⟨_, .first o⟩
  | firstOperand site operand => exact completes_operand (.first operand)
  | comma site before =>
    exact completes_startsOperand (startsOperand_comma site before) fun o => ⟨_, .later before o⟩
  | laterOperand site before operand => exact completes_operand (.later before operand)
  | listEnd site items => exact completes_list site items
  | colon x =>
    apply completes_declaration (.plainQubit x) rfl
    intro t ht
    simp [Stage.extend, startDeclaration, ht]
  | qubitDeclaration x =>
    apply completes_declaration (.qubit x none) rfl
    intro t ht
    simp [Stage.extend, startIndex, ht]
  | bitDeclaration x =>
    apply completes_declaration (.bit x none) rfl
    intro t ht
    simp [Stage.extend, startIndex, ht]
  | qubitRegister x register =>
    exact completes_declaration (.qubit x (some register)) rfl fun t ht => if_pos ht
  | bitRegister x register =>
    exact completes_declaration (.bit x (some register)) rfl fun t ht => if_pos ht
  | declared statement => exact completes_nil (ends_declared statement)
  | arrow target => exact completes_gate (startsItem_arrow target)
  | itemStart site => exact completes_gate (startsItem_itemStart site)
  | itemName site x => exact completes_item (.name x)
  | gateName site x => exact completes_item (.gate x)
  | argsOpen site gate =>
    apply completes_literal .closeParen rfl rfl
    intro start stop
    exact ⟨_, rfl, completes_item (.whole _)⟩
  | itemEnd site item => exact completes_item (.whole item)
  | ifGroupEnd target items => exact completes_ifGroup target items
  | elseGroupEnd target branch bit items =>
    exact completes_nil (ends_elseGroup target branch bit items)
  | ifWord target branch => exact completes_condition target branch
  | condition target branch bit => exact completes_nil (ends_condition target branch bit)

end Stages

end GateScript.Source
