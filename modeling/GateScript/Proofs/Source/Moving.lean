import GateScript.Source.Parse

/-!
Tokens that stand elsewhere.

The reader looks at the terminal of a token only, and keeps the token as it is. So it makes the same
of tokens that stand further down, and the same after other statements.
-/
namespace GateScript.Source

section Maps

variable (f : Token → Token)

def Operand.map : Operand → Operand
  | .name t => .name (f t)
  | .number t => .number (f t)
  | .qubit index => .qubit (f index)

def Item.map : Item → Item
  | .gate name args => .gate (f name) (args.map (Operand.map f))
  | .named name arrow => .named (f name) (arrow.map f)

def Target.map : Target → Target
  | .operand o => .operand (o.map f)
  | .list items => .list (items.map (Operand.map f))
  | .all t => .all (f t)

def Branch.map : Branch → Branch
  | .item i => .item (i.map f)
  | .group items => .group (items.map (Item.map f))

def Statement.map : Statement → Statement
  | .qubit name register index => .qubit (f name) (register.map f) (f index)
  | .plainQubit name index => .plainQubit (f name) (f index)
  | .bit name register index => .bit (f name) (register.map f) (f index)
  | .list name items => .list (f name) (items.map (Operand.map f))
  | .instruction name items => .instruction (f name) (items.map (Item.map f))
  | .action target count items => .action (target.map f) (count.map f) (items.map (Item.map f))
  | .conditional target branch flag otherwise =>
    .conditional (target.map f) (branch.map f) (f flag) (otherwise.map (Branch.map f))

def PipelineSite.map : PipelineSite → PipelineSite
  | .declaration name => .declaration (f name)
  | .action target count => .action (target.map f) (count.map f)
  | .ifGroup target => .ifGroup (target.map f)
  | .elseGroup target branch bit => .elseGroup (target.map f) (branch.map f) (f bit)

def ItemSite.map : ItemSite → ItemSite
  | .lead target => .lead (target.map f)
  | .first pipeline => .first (pipeline.map f)
  | .later pipeline before => .later (pipeline.map f) (before.map (Item.map f))
  | .elseBranch target branch bit => .elseBranch (target.map f) (branch.map f) (f bit)

def ListSite.map : ListSite → ListSite
  | .declaration name => .declaration (f name)
  | .target => .target

def OperandsSite.map : OperandsSite → OperandsSite
  | .list site => .list (site.map f)
  | .args site gate => .args (site.map f) (f gate)

def OperandSite.map : OperandSite → OperandSite
  | .target => .target
  | .first operands => .first (operands.map f)
  | .later operands before => .later (operands.map f) (before.map (Operand.map f))

def Stage.map : Stage → Stage
  | .start => .start
  | .between => .between
  | .name x => .name (f x)
  | .target aim => .target (aim.map f)
  | .qubitWord site => .qubitWord (site.map f)
  | .qubit site index => .qubit (site.map f) (f index)
  | .listOpen site => .listOpen (site.map f)
  | .firstOperand site operand => .firstOperand (site.map f) (operand.map f)
  | .comma site before => .comma (site.map f) (before.map (Operand.map f))
  | .laterOperand site before operand =>
    .laterOperand (site.map f) (before.map (Operand.map f)) (operand.map f)
  | .listEnd site items => .listEnd (site.map f) (items.map (Operand.map f))
  | .colon x => .colon (f x)
  | .qubitDeclaration x => .qubitDeclaration (f x)
  | .qubitRegister x register => .qubitRegister (f x) (f register)
  | .bitDeclaration x => .bitDeclaration (f x)
  | .bitRegister x register => .bitRegister (f x) (f register)
  | .declared statement => .declared (statement.map f)
  | .arrow aim => .arrow (aim.map f)
  | .itemStart site => .itemStart (site.map f)
  | .itemName site x => .itemName (site.map f) (f x)
  | .gateName site x => .gateName (site.map f) (f x)
  | .argsOpen site gate => .argsOpen (site.map f) (f gate)
  | .itemEnd site item => .itemEnd (site.map f) (item.map f)
  | .ifGroupEnd aim items => .ifGroupEnd (aim.map f) (items.map (Item.map f))
  | .elseGroupEnd aim branch bit items =>
    .elseGroupEnd (aim.map f) (branch.map f) (f bit) (items.map (Item.map f))
  | .ifWord aim branch => .ifWord (aim.map f) (branch.map f)
  | .condition aim branch bit => .condition (aim.map f) (branch.map f) (f bit)

/-- Statements with other tokens, after those of `before`. -/
def movedAfter (before done : List Statement) : List Statement :=
  before ++ done.map (Statement.map f)

def Reader.moved (before : List Statement) (r : Reader) : Reader :=
  ⟨movedAfter f before r.statements, r.stage.map f⟩

def Progress.moved (before : List Statement) : Progress → Progress
  | .reading r => .reading (r.moved f before)
  | .whole statements => .whole (movedAfter f before statements)
  | .refused expected => .refused expected

theorem movedAfter_concat (before done : List Statement) (s : Statement) :
    movedAfter f before (done ++ [s]) = movedAfter f before done ++ [s.map f] := by
  rw [movedAfter, List.map_append, ← List.append_assoc]
  rfl

@[simp] theorem OperandsSite.closing_map (site : OperandsSite) :
    (site.map f).closing = site.closing := by
  cases site <;> rfl

@[simp] theorem Stage.follow_map (s : Stage) : (s.map f).follow = s.follow := by
  cases s with
  | firstOperand site operand => cases site <;> rfl
  | itemStart site => cases site <;> rfl
  | _ => rfl

end Maps

section Steps

variable {f : Token → Token} (hf : ∀ t, (f t).terminal = t.terminal) (before done : List Statement)

include hf

theorem startStatement_moved (stage : Stage) (t : Token) :
    startStatement (movedAfter f before done) (stage.map f) (f t) =
      (startStatement done stage t).moved f before := by
  unfold startStatement
  rw [hf, Stage.follow_map]
  cases t.terminal <;> rfl

theorem endStatement_moved (s : Statement) (t : Token) :
    endStatement (movedAfter f before done) (s.map f) (f t) =
      (endStatement done s t).moved f before := by
  unfold endStatement
  rw [hf, ← movedAfter_concat]
  split
  · rfl
  · exact startStatement_moved hf before (done ++ [s]) .between t

theorem endPipeline_moved (site : PipelineSite) (items : List Item) (t : Token) :
    endPipeline (movedAfter f before done) (site.map f) (items.map (Item.map f)) (f t) =
      (endPipeline done site items t).moved f before := by
  cases site with
  | declaration name => exact endStatement_moved hf before done (.instruction name items) t
  | action target count => exact endStatement_moved hf before done (.action target count items) t
  | ifGroup target =>
    simp only [endPipeline, PipelineSite.map, hf]
    split <;> rfl
  | elseGroup target branch bit =>
    simp only [endPipeline, PipelineSite.map, hf]
    split <;> rfl

theorem items_moved (site : PipelineSite) (items : List Item) (t : Token) :
    (if t.terminal = .bar then
        Progress.reading ⟨movedAfter f before done,
          .itemStart (.later (site.map f) (items.map (Item.map f)))⟩
      else if t.terminal = .ifWord then .refused afterPipeline
      else endPipeline (movedAfter f before done) (site.map f) (items.map (Item.map f)) (f t)) =
      (if t.terminal = .bar then Progress.reading ⟨done, .itemStart (.later site items)⟩
        else if t.terminal = .ifWord then .refused afterPipeline
        else endPipeline done site items t).moved f before := by
  split
  · rfl
  split
  · rfl
  · exact endPipeline_moved hf before done site items t

theorem endItem_moved (site : ItemSite) (item : Item) (t : Token) :
    endItem (movedAfter f before done) (site.map f) (item.map f) (f t) =
      (endItem done site item t).moved f before := by
  cases site with
  | lead target =>
    simp only [endItem, ItemSite.map, hf]
    split
    · rfl
    split
    · rfl
    split
    · rfl
    · exact endStatement_moved hf before done (.action target none [item]) t
  | first pipeline =>
    simp only [endItem, ItemSite.map, hf]
    exact items_moved hf before done pipeline [item] t
  | later pipeline items =>
    simp only [endItem, ItemSite.map, hf]
    have hitems := items_moved hf before done pipeline (items ++ [item]) t
    rwa [List.map_append] at hitems
  | elseBranch target branch bit =>
    exact endStatement_moved hf before done
      (.conditional target branch bit (some (.item item))) t

theorem endOperand_moved (site : OperandsSite) (operands : List Operand) (t : Token) :
    endOperand (movedAfter f before done) (site.map f) (operands.map (Operand.map f)) (f t) =
      (endOperand done site operands t).moved f before := by
  unfold endOperand OperandsSite.follow
  rw [hf, OperandsSite.closing_map]
  split
  · rfl
  split
  · cases site <;> rfl
  · rfl

omit before done

theorem startOperand_map (site : OperandSite) (written written' : Operand → Stage)
    (hwritten : ∀ o, written' (o.map f) = (written o).map f) (t : Token) :
    startOperand (site.map f) written' (f t) =
      (startOperand site written t).map (Stage.map f) := by
  unfold startOperand
  rw [hf]
  cases t.terminal with
  | name => exact congrArg some (hwritten (.name t))
  | number => exact congrArg some (hwritten (.number t))
  | _ => rfl

theorem startItem_map (site : ItemSite) (t : Token) :
    startItem (site.map f) (f t) = (startItem site t).map (Stage.map f) := by
  unfold startItem
  rw [hf]
  cases t.terminal <;> rfl

theorem startDeclaration_map (name t : Token) :
    startDeclaration (f name) (f t) = (startDeclaration name t).map (Stage.map f) := by
  have hitem := startItem_map hf (.first (.declaration name)) t
  unfold startDeclaration
  rw [hf]
  cases t.terminal <;> first | rfl | exact hitem

theorem startAction_map (target : Target) (t : Token) :
    startAction (target.map f) (f t) = (startAction target t).map (Stage.map f) := by
  have hitem := startItem_map hf (.lead target) t
  unfold startAction
  rw [hf]
  cases t.terminal <;> first | rfl | exact hitem

theorem startIndex_map (register register' : Token → Stage) (declared declared' : Token → Statement)
    (hregister : ∀ t, register' (f t) = (register t).map f)
    (hdeclared : ∀ t, declared' (f t) = (declared t).map f) (t : Token) :
    startIndex register' declared' (f t) =
      (startIndex register declared t).map (Stage.map f) := by
  unfold startIndex
  rw [hf]
  cases t.terminal with
  | name => exact congrArg some (hregister t)
  | number => exact congrArg (fun s => some (Stage.declared s)) (hdeclared t)
  | _ => rfl

theorem extend_map (s : Stage) (t : Token) :
    (s.map f).extend (f t) = (s.extend t).map (Stage.map f) := by
  cases s with
  | name x =>
    simp only [Stage.extend, Stage.map, hf]
    cases t.terminal <;> rfl
  | listOpen site => exact startOperand_map hf (.first (.list site)) _ _ (fun _ => rfl) t
  | comma site before => exact startOperand_map hf (.later site before) _ _ (fun _ => rfl) t
  | colon x => exact startDeclaration_map hf x t
  | qubitDeclaration x => exact startIndex_map hf _ _ _ _ (fun _ => rfl) (fun _ => rfl) t
  | bitDeclaration x => exact startIndex_map hf _ _ _ _ (fun _ => rfl) (fun _ => rfl) t
  | arrow aim => exact startAction_map hf aim t
  | itemStart site =>
    cases site with
    | elseBranch aim branch bit =>
      have hitem := startItem_map hf (.elseBranch aim branch bit) t
      simp only [Stage.extend, Stage.map, ItemSite.map, hf]
      split
      · rfl
      · exact hitem
    | _ => exact startItem_map hf _ t
  | argsOpen site gate =>
    have hargs := startOperand_map hf (.first (.args site gate)) (.firstOperand (.args site gate))
      _ (fun _ => rfl) t
    simp only [Stage.extend, Stage.map, hf]
    split
    · rfl
    · exact hargs
  | target _ | qubitWord _ | qubitRegister _ _ | bitRegister _ _ | itemName _ _ | gateName _ _
  | ifWord _ _ | condition _ _ _ =>
    simp only [Stage.extend, Stage.map, hf]
    split <;> rfl
  | _ => rfl

theorem close_moved (before done : List Statement) (s : Stage) (t : Token) :
    (s.map f).close (movedAfter f before done) (f t) = (s.close done t).moved f before := by
  cases s with
  | start => exact startStatement_moved hf before done .start t
  | between =>
    simp only [Stage.close, Stage.map, hf]
    split
    · rfl
    · exact startStatement_moved hf before done .between t
  | qubit site index =>
    cases site with
    | target =>
      simp only [Stage.close, Stage.map, OperandSite.map, hf]
      split <;> rfl
    | first site => exact endOperand_moved hf before done site [.qubit index] t
    | later site operands =>
      have hoperands := endOperand_moved hf before done site (operands ++ [.qubit index]) t
      simp only [Stage.close, Stage.map, OperandSite.map, hf]
      split
      · rfl
      · rwa [List.map_append] at hoperands
  | firstOperand site operand => exact endOperand_moved hf before done site [operand] t
  | laterOperand site operands operand =>
    have hoperands := endOperand_moved hf before done site (operands ++ [operand]) t
    rwa [List.map_append] at hoperands
  | listEnd site items =>
    cases site with
    | declaration x => exact endStatement_moved hf before done (.list x items) t
    | target =>
      simp only [Stage.close, Stage.map, ListSite.map, hf]
      split <;> rfl
  | declared statement => exact endStatement_moved hf before done statement t
  | itemName site x => exact endItem_moved hf before done site (.named x none) t
  | gateName site x => exact endItem_moved hf before done site (.gate x []) t
  | itemEnd site item => exact endItem_moved hf before done site item t
  | ifGroupEnd aim items =>
    simp only [Stage.close, Stage.map, hf]
    split <;> rfl
  | elseGroupEnd aim branch bit items =>
    exact endStatement_moved hf before done
      (.conditional aim branch bit (some (.group items))) t
  | condition aim branch bit =>
    exact endStatement_moved hf before done (.conditional aim branch bit none) t
  | _ => exact congrArg Progress.refused (Stage.follow_map f _)

/-- A token that stands elsewhere leads to the same, with what was read standing elsewhere. -/
theorem feed_moved (before : List Statement) (r : Reader) (t : Token) :
    (r.moved f before).feed (f t) = (r.feed t).moved f before := by
  unfold Reader.feed Reader.moved
  rw [hf, Stage.follow_map, extend_map hf]
  split
  · cases r.stage.extend t with
    | some stage => rfl
    | none => exact close_moved hf before r.statements r.stage t
  · rfl

end Steps

end GateScript.Source
