import GateScript.Source.Reader
import Mathlib.Data.Option.Basic
import Mathlib.Data.List.Forall2

/-!
Two readings side by side.

The reader looks at the terminals of tokens, and keeps operands as they are. Given which tokens and
which operands of two readings go together, whatever is made of them goes together as well, and
the readers take the same tokens at every point.
-/
namespace GateScript.Source

/-- The stages that go on with an operand. -/
def Stage.startsOperand : Stage → Bool
  | .listOpen _ | .comma _ _ | .argsOpen _ _ => true
  | _ => false

/-- Which tokens and which operands of two readings go together. -/
structure Pairing where
  token : Token → Token → Prop
  operand : Operand → Operand → Prop
  terminal : ∀ {t t' : Token}, token t t' → t'.terminal = t.terminal

namespace Pairing

section Relations

variable (P : Pairing)

/-- Tokens that go together, also as operands, save that nothing is said about numbers. -/
structure Tokens (t t' : Token) : Prop where
  token : P.token t t'
  name : P.operand (.name t) (.name t')
  qubit : P.operand (.qubit t) (.qubit t')

/-- Tokens that go together as numbers, if they are numbers. -/
def Numbers (t t' : Token) : Prop := t.terminal = .number → P.operand (.number t) (.number t')

inductive Items : Item → Item → Prop
  | gate {name name' : Token} {args args' : List Operand} (hname : P.token name name')
      (hargs : List.Forall₂ P.operand args args') : Items (.gate name args) (.gate name' args')
  | named {name name' : Token} {arrow arrow' : Option Token} (hname : P.token name name')
      (harrow : Option.Rel P.token arrow arrow') : Items (.named name arrow) (.named name' arrow')

inductive Targets : Target → Target → Prop
  | operand {o o' : Operand} (h : P.operand o o') : Targets (.operand o) (.operand o')
  | list {items items' : List Operand} (h : List.Forall₂ P.operand items items') :
      Targets (.list items) (.list items')
  | all {t t' : Token} (h : P.token t t') : Targets (.all t) (.all t')

inductive Branches : Branch → Branch → Prop
  | item {i i' : Item} (h : P.Items i i') : Branches (.item i) (.item i')
  | group {items items' : List Item} (h : List.Forall₂ P.Items items items') :
      Branches (.group items) (.group items')

inductive Statements : Statement → Statement → Prop
  | qubit {name name' : Token} {register register' : Option Token} {index index' : Token}
      (hname : P.token name name') (hregister : Option.Rel P.token register register')
      (hindex : P.token index index') :
      Statements (.qubit name register index) (.qubit name' register' index')
  | plainQubit {name name' index index' : Token} (hname : P.token name name')
      (hindex : P.token index index') :
      Statements (.plainQubit name index) (.plainQubit name' index')
  | bit {name name' : Token} {register register' : Option Token} {index index' : Token}
      (hname : P.token name name') (hregister : Option.Rel P.token register register')
      (hindex : P.token index index') :
      Statements (.bit name register index) (.bit name' register' index')
  | list {name name' : Token} {items items' : List Operand} (hname : P.token name name')
      (hitems : List.Forall₂ P.operand items items') :
      Statements (.list name items) (.list name' items')
  | instruction {name name' : Token} {items items' : List Item} (hname : P.token name name')
      (hitems : List.Forall₂ P.Items items items') :
      Statements (.instruction name items) (.instruction name' items')
  | action {target target' : Target} {count count' : Option Token} {items items' : List Item}
      (htarget : P.Targets target target') (hcount : Option.Rel P.token count count')
      (hitems : List.Forall₂ P.Items items items') :
      Statements (.action target count items) (.action target' count' items')
  | conditional {target target' : Target} {branch branch' : Branch} {flag flag' : Token}
      {otherwise otherwise' : Option Branch} (htarget : P.Targets target target')
      (hbranch : P.Branches branch branch') (hflag : P.token flag flag')
      (hotherwise : Option.Rel P.Branches otherwise otherwise') :
      Statements (.conditional target branch flag otherwise)
        (.conditional target' branch' flag' otherwise')

inductive PipelineSites : PipelineSite → PipelineSite → Prop
  | declaration {name name' : Token} (hname : P.token name name') :
      PipelineSites (.declaration name) (.declaration name')
  | action {target target' : Target} {count count' : Option Token}
      (htarget : P.Targets target target') (hcount : Option.Rel P.token count count') :
      PipelineSites (.action target count) (.action target' count')
  | ifGroup {target target' : Target} (htarget : P.Targets target target') :
      PipelineSites (.ifGroup target) (.ifGroup target')
  | elseGroup {target target' : Target} {branch branch' : Branch} {flag flag' : Token}
      (htarget : P.Targets target target') (hbranch : P.Branches branch branch')
      (hflag : P.token flag flag') :
      PipelineSites (.elseGroup target branch flag) (.elseGroup target' branch' flag')

inductive ItemSites : ItemSite → ItemSite → Prop
  | lead {target target' : Target} (htarget : P.Targets target target') :
      ItemSites (.lead target) (.lead target')
  | first {pipeline pipeline' : PipelineSite} (h : P.PipelineSites pipeline pipeline') :
      ItemSites (.first pipeline) (.first pipeline')
  | later {pipeline pipeline' : PipelineSite} {before before' : List Item}
      (h : P.PipelineSites pipeline pipeline') (hbefore : List.Forall₂ P.Items before before') :
      ItemSites (.later pipeline before) (.later pipeline' before')
  | elseBranch {target target' : Target} {branch branch' : Branch} {flag flag' : Token}
      (htarget : P.Targets target target') (hbranch : P.Branches branch branch')
      (hflag : P.token flag flag') :
      ItemSites (.elseBranch target branch flag) (.elseBranch target' branch' flag')

inductive ListSites : ListSite → ListSite → Prop
  | declaration {name name' : Token} (hname : P.token name name') :
      ListSites (.declaration name) (.declaration name')
  | target : ListSites .target .target

inductive OperandsSites : OperandsSite → OperandsSite → Prop
  | list {site site' : ListSite} (h : P.ListSites site site') :
      OperandsSites (.list site) (.list site')
  | args {site site' : ItemSite} {gate gate' : Token} (h : P.ItemSites site site')
      (hgate : P.token gate gate') : OperandsSites (.args site gate) (.args site' gate')

inductive OperandSites : OperandSite → OperandSite → Prop
  | target : OperandSites .target .target
  | first {site site' : OperandsSite} (h : P.OperandsSites site site') :
      OperandSites (.first site) (.first site')
  | later {site site' : OperandsSite} {before before' : List Operand}
      (h : P.OperandsSites site site') (hbefore : List.Forall₂ P.operand before before') :
      OperandSites (.later site before) (.later site' before')

inductive Stages : Stage → Stage → Prop
  | start : Stages .start .start
  | between : Stages .between .between
  | name {x x' : Token} (hx : P.token x x') (hoperand : P.operand (.name x) (.name x')) :
      Stages (.name x) (.name x')
  | target {aim aim' : Target} (h : P.Targets aim aim') : Stages (.target aim) (.target aim')
  | qubitWord {site site' : OperandSite} (h : P.OperandSites site site') :
      Stages (.qubitWord site) (.qubitWord site')
  | qubit {site site' : OperandSite} {index index' : Token} (h : P.OperandSites site site')
      (hindex : P.operand (.qubit index) (.qubit index')) :
      Stages (.qubit site index) (.qubit site' index')
  | listOpen {site site' : ListSite} (h : P.ListSites site site') :
      Stages (.listOpen site) (.listOpen site')
  | firstOperand {site site' : OperandsSite} {o o' : Operand} (h : P.OperandsSites site site')
      (ho : P.operand o o') : Stages (.firstOperand site o) (.firstOperand site' o')
  | comma {site site' : OperandsSite} {before before' : List Operand}
      (h : P.OperandsSites site site') (hbefore : List.Forall₂ P.operand before before') :
      Stages (.comma site before) (.comma site' before')
  | laterOperand {site site' : OperandsSite} {before before' : List Operand} {o o' : Operand}
      (h : P.OperandsSites site site') (hbefore : List.Forall₂ P.operand before before')
      (ho : P.operand o o') : Stages (.laterOperand site before o) (.laterOperand site' before' o')
  | listEnd {site site' : ListSite} {items items' : List Operand} (h : P.ListSites site site')
      (hitems : List.Forall₂ P.operand items items') :
      Stages (.listEnd site items) (.listEnd site' items')
  | colon {x x' : Token} (hx : P.token x x') : Stages (.colon x) (.colon x')
  | qubitDeclaration {x x' : Token} (hx : P.token x x') :
      Stages (.qubitDeclaration x) (.qubitDeclaration x')
  | qubitRegister {x x' register register' : Token} (hx : P.token x x')
      (hregister : P.token register register') :
      Stages (.qubitRegister x register) (.qubitRegister x' register')
  | bitDeclaration {x x' : Token} (hx : P.token x x') :
      Stages (.bitDeclaration x) (.bitDeclaration x')
  | bitRegister {x x' register register' : Token} (hx : P.token x x')
      (hregister : P.token register register') :
      Stages (.bitRegister x register) (.bitRegister x' register')
  | declared {s s' : Statement} (h : P.Statements s s') : Stages (.declared s) (.declared s')
  | arrow {aim aim' : Target} (h : P.Targets aim aim') : Stages (.arrow aim) (.arrow aim')
  | itemStart {site site' : ItemSite} (h : P.ItemSites site site') :
      Stages (.itemStart site) (.itemStart site')
  | itemName {site site' : ItemSite} {x x' : Token} (h : P.ItemSites site site')
      (hx : P.token x x') : Stages (.itemName site x) (.itemName site' x')
  | gateName {site site' : ItemSite} {x x' : Token} (h : P.ItemSites site site')
      (hx : P.token x x') : Stages (.gateName site x) (.gateName site' x')
  | argsOpen {site site' : ItemSite} {x x' : Token} (h : P.ItemSites site site')
      (hx : P.token x x') : Stages (.argsOpen site x) (.argsOpen site' x')
  | itemEnd {site site' : ItemSite} {item item' : Item} (h : P.ItemSites site site')
      (hitem : P.Items item item') : Stages (.itemEnd site item) (.itemEnd site' item')
  | ifGroupEnd {aim aim' : Target} {items items' : List Item} (h : P.Targets aim aim')
      (hitems : List.Forall₂ P.Items items items') :
      Stages (.ifGroupEnd aim items) (.ifGroupEnd aim' items')
  | elseGroupEnd {aim aim' : Target} {branch branch' : Branch} {flag flag' : Token}
      {items items' : List Item} (h : P.Targets aim aim') (hbranch : P.Branches branch branch')
      (hflag : P.token flag flag') (hitems : List.Forall₂ P.Items items items') :
      Stages (.elseGroupEnd aim branch flag items) (.elseGroupEnd aim' branch' flag' items')
  | ifWord {aim aim' : Target} {branch branch' : Branch} (h : P.Targets aim aim')
      (hbranch : P.Branches branch branch') : Stages (.ifWord aim branch) (.ifWord aim' branch')
  | condition {aim aim' : Target} {branch branch' : Branch} {flag flag' : Token}
      (h : P.Targets aim aim') (hbranch : P.Branches branch branch') (hflag : P.token flag flag') :
      Stages (.condition aim branch flag) (.condition aim' branch' flag')

structure Readers (r r' : Reader) : Prop where
  statements : List.Forall₂ P.Statements r.statements r'.statements
  stage : P.Stages r.stage r'.stage

inductive Progresses : Progress → Progress → Prop
  | reading {r r' : Reader} (h : P.Readers r r') : Progresses (.reading r) (.reading r')
  | whole {statements statements' : List Statement}
      (h : List.Forall₂ P.Statements statements statements') :
      Progresses (.whole statements) (.whole statements')
  | refused (expected : List Terminal) : Progresses (.refused expected) (.refused expected)

end Relations

variable {P : Pairing} {done done' : List Statement} {t t' : Token}

theorem Tokens.terminal_eq (h : P.Tokens t t') : t'.terminal = t.terminal := P.terminal h.token

theorem OperandsSites.closing_eq {site site' : OperandsSite} (h : P.OperandsSites site site') :
    site'.closing = site.closing := by
  cases h <;> rfl

theorem Stages.follow_eq {s s' : Stage} (h : P.Stages s s') : s'.follow = s.follow := by
  cases h with
  | firstOperand h ho => exact congrArg ([Terminal.comma, ·]) h.closing_eq
  | itemStart h => cases h <;> rfl
  | _ => rfl

theorem Progresses.of_reading {r : Reader} {progress : Progress}
    (h : P.Progresses (.reading r) progress) : ∃ r', progress = .reading r' ∧ P.Readers r r' := by
  cases h with
  | reading h => exact ⟨_, rfl, h⟩

theorem Progresses.of_whole {statements : List Statement} {progress : Progress}
    (h : P.Progresses (.whole statements) progress) :
    ∃ statements', progress = .whole statements' ∧
      List.Forall₂ P.Statements statements statements' := by
  cases h with
  | whole h => exact ⟨_, rfl, h⟩

theorem forall₂_concat {α β : Type} {R : α → β → Prop} {as : List α} {bs : List β} {a : α} {b : β}
    (h : List.Forall₂ R as bs) (hab : R a b) : List.Forall₂ R (as ++ [a]) (bs ++ [b]) :=
  List.rel_append h (.cons hab .nil)

section Closing

variable (hdone : List.Forall₂ P.Statements done done') (ht : P.Tokens t t')
  (hnumber : P.Numbers t t')

include hdone ht hnumber

theorem startStatement_paired {stage stage' : Stage} (hstage : P.Stages stage stage') :
    P.Progresses (startStatement done stage t) (startStatement done' stage' t') := by
  unfold startStatement
  rw [ht.terminal_eq, hstage.follow_eq]
  cases hterminal : t.terminal with
  | all => exact .reading ⟨hdone, .target (.all ht.token)⟩
  | openBracket => exact .reading ⟨hdone, .listOpen .target⟩
  | name => exact .reading ⟨hdone, .name ht.token ht.name⟩
  | number => exact .reading ⟨hdone, .target (.operand (hnumber hterminal))⟩
  | q => exact .reading ⟨hdone, .qubitWord .target⟩
  | newline => exact .reading ⟨hdone, hstage⟩
  | _ => exact .refused _

theorem endStatement_paired {s s' : Statement} (hs : P.Statements s s') :
    P.Progresses (endStatement done s t) (endStatement done' s' t') := by
  have hall := forall₂_concat hdone hs
  unfold endStatement
  rw [ht.terminal_eq]
  split
  · exact .whole hall
  · exact startStatement_paired hall ht hnumber .between

theorem endPipeline_paired {site site' : PipelineSite} {items items' : List Item}
    (hsite : P.PipelineSites site site') (hitems : List.Forall₂ P.Items items items') :
    P.Progresses (endPipeline done site items t) (endPipeline done' site' items' t') := by
  cases hsite with
  | declaration hname => exact endStatement_paired hdone ht hnumber (.instruction hname hitems)
  | action htarget hcount =>
    exact endStatement_paired hdone ht hnumber (.action htarget hcount hitems)
  | ifGroup htarget =>
    simp only [endPipeline, ht.terminal_eq]
    split
    · exact .reading ⟨hdone, .ifGroupEnd htarget hitems⟩
    · exact .refused _
  | elseGroup htarget hbranch hflag =>
    simp only [endPipeline, ht.terminal_eq]
    split
    · exact .reading ⟨hdone, .elseGroupEnd htarget hbranch hflag hitems⟩
    · exact .refused _

theorem items_paired {site site' : PipelineSite} {items items' : List Item}
    (hsite : P.PipelineSites site site') (hitems : List.Forall₂ P.Items items items') :
    P.Progresses
      (if t.terminal = .bar then .reading ⟨done, .itemStart (.later site items)⟩
        else if t.terminal = .ifWord then .refused afterPipeline
        else endPipeline done site items t)
      (if t.terminal = .bar then .reading ⟨done', .itemStart (.later site' items')⟩
        else if t.terminal = .ifWord then .refused afterPipeline
        else endPipeline done' site' items' t') := by
  split
  · exact .reading ⟨hdone, .itemStart (.later hsite hitems)⟩
  split
  · exact .refused _
  · exact endPipeline_paired hdone ht hnumber hsite hitems

theorem endItem_paired {site site' : ItemSite} {item item' : Item}
    (hsite : P.ItemSites site site') (hitem : P.Items item item') :
    P.Progresses (endItem done site item t) (endItem done' site' item' t') := by
  have hone : List.Forall₂ P.Items [item] [item'] := .cons hitem .nil
  cases hsite with
  | lead htarget =>
    simp only [endItem, ht.terminal_eq]
    split
    · exact .reading ⟨hdone, .itemStart (.later (.action htarget .none) hone)⟩
    split
    · exact .reading ⟨hdone, .ifWord htarget (.item hitem)⟩
    split
    · exact .refused _
    · exact endStatement_paired hdone ht hnumber (.action htarget .none hone)
  | first h =>
    simp only [endItem, ht.terminal_eq]
    exact items_paired hdone ht hnumber h hone
  | later h hbefore =>
    simp only [endItem, ht.terminal_eq]
    exact items_paired hdone ht hnumber h (forall₂_concat hbefore hitem)
  | elseBranch htarget hbranch hflag =>
    apply endStatement_paired hdone ht hnumber
    exact .conditional htarget hbranch hflag (.some (.item hitem))

omit hnumber in
theorem endOperand_paired {site site' : OperandsSite} {operands operands' : List Operand}
    (hsite : P.OperandsSites site site')
    (hoperands : List.Forall₂ P.operand operands operands') :
    P.Progresses (endOperand done site operands t) (endOperand done' site' operands' t') := by
  unfold endOperand OperandsSite.follow
  rw [ht.terminal_eq, hsite.closing_eq]
  split
  · exact .reading ⟨hdone, .comma hsite hoperands⟩
  split
  · cases hsite with
    | list h => exact .reading ⟨hdone, .listEnd h hoperands⟩
    | args h hgate => exact .reading ⟨hdone, .itemEnd h (.gate hgate hoperands)⟩
  · exact .refused _

theorem close_paired {s s' : Stage} (h : P.Stages s s') :
    P.Progresses (s.close done t) (s'.close done' t') := by
  have hfollow := h.follow_eq
  cases h with
  | start => exact startStatement_paired hdone ht hnumber .start
  | between =>
    simp only [Stage.close, ht.terminal_eq]
    split
    · exact .whole hdone
    · exact startStatement_paired hdone ht hnumber .between
  | qubit h hindex =>
    cases h with
    | target =>
      simp only [Stage.close, ht.terminal_eq]
      split
      · exact .reading ⟨hdone, .arrow (.operand hindex)⟩
      · exact .refused _
    | first h => exact endOperand_paired hdone ht h (.cons hindex .nil)
    | later h hbefore =>
      simp only [Stage.close, ht.terminal_eq]
      split
      · exact .refused _
      · exact endOperand_paired hdone ht h (forall₂_concat hbefore hindex)
  | firstOperand h ho => exact endOperand_paired hdone ht h (.cons ho .nil)
  | laterOperand h hbefore ho => exact endOperand_paired hdone ht h (forall₂_concat hbefore ho)
  | listEnd h hitems =>
    cases h with
    | declaration hname => exact endStatement_paired hdone ht hnumber (.list hname hitems)
    | target =>
      simp only [Stage.close, ht.terminal_eq]
      split
      · exact .reading ⟨hdone, .arrow (.list hitems)⟩
      · exact .refused _
  | declared h => exact endStatement_paired hdone ht hnumber h
  | itemName h hx => exact endItem_paired hdone ht hnumber h (.named hx .none)
  | gateName h hx => exact endItem_paired hdone ht hnumber h (.gate hx .nil)
  | itemEnd h hitem => exact endItem_paired hdone ht hnumber h hitem
  | ifGroupEnd h hitems =>
    simp only [Stage.close, ht.terminal_eq]
    split
    · exact .reading ⟨hdone, .ifWord h (.group hitems)⟩
    · exact .refused _
  | elseGroupEnd h hbranch hflag hitems =>
    apply endStatement_paired hdone ht hnumber
    exact .conditional h hbranch hflag (.some (.group hitems))
  | condition h hbranch hflag =>
    exact endStatement_paired hdone ht hnumber (.conditional h hbranch hflag .none)
  | _ =>
    simp only [Stage.close, hfollow]
    exact .refused _

end Closing

section Extending

variable (ht : P.Tokens t t')

include ht

theorem startOperand_paired (hnumber : P.Numbers t t') {site site' : OperandSite}
    {written written' : Operand → Stage} (hsite : P.OperandSites site site')
    (hwritten : ∀ {o o' : Operand}, P.operand o o' → P.Stages (written o) (written' o')) :
    Option.Rel P.Stages (startOperand site written t) (startOperand site' written' t') := by
  unfold startOperand
  rw [ht.terminal_eq]
  cases hterminal : t.terminal with
  | name => exact .some (hwritten ht.name)
  | number => exact .some (hwritten (hnumber hterminal))
  | q => exact .some (.qubitWord hsite)
  | _ => exact .none

theorem startItem_paired {site site' : ItemSite} (hsite : P.ItemSites site site') :
    Option.Rel P.Stages (startItem site t) (startItem site' t') := by
  unfold startItem
  rw [ht.terminal_eq]
  cases t.terminal with
  | name => exact .some (.itemName hsite ht.token)
  | upperName => exact .some (.gateName hsite ht.token)
  | _ => exact .none

theorem startDeclaration_paired {x x' : Token} (hx : P.token x x') :
    Option.Rel P.Stages (startDeclaration x t) (startDeclaration x' t') := by
  have hitem := startItem_paired ht (.first (.declaration hx))
  unfold startDeclaration
  rw [ht.terminal_eq]
  cases t.terminal with
  | q => exact .some (.qubitDeclaration hx)
  | b => exact .some (.bitDeclaration hx)
  | number => exact .some (.declared (.plainQubit hx ht.token))
  | openBracket => exact .some (.listOpen (.declaration hx))
  | _ => exact hitem

theorem startAction_paired {target target' : Target} (htarget : P.Targets target target') :
    Option.Rel P.Stages (startAction target t) (startAction target' t') := by
  have hitem := startItem_paired ht (.lead htarget)
  unfold startAction
  rw [ht.terminal_eq]
  cases t.terminal with
  | openParen => exact .some (.itemStart (.first (.ifGroup htarget)))
  | number => exact .some (.itemStart (.first (.action htarget (.some ht.token))))
  | _ => exact hitem

theorem startIndex_paired {register register' : Token → Stage}
    {declared declared' : Token → Statement}
    (hregister : P.Stages (register t) (register' t'))
    (hdeclared : P.Statements (declared t) (declared' t')) :
    Option.Rel P.Stages (startIndex register declared t) (startIndex register' declared' t') := by
  unfold startIndex
  rw [ht.terminal_eq]
  cases t.terminal with
  | name => exact .some hregister
  | number => exact .some (.declared hdeclared)
  | _ => exact .none

omit ht in
/-- A stage that goes on with one terminal. -/
theorem ite_paired {stage stage' : Stage} (h : P.Stages stage stage') (wanted : Prop)
    [Decidable wanted] :
    Option.Rel P.Stages (if wanted then some stage else none)
      (if wanted then some stage' else none) := by
  split
  · exact .some h
  · exact .none

theorem extend_paired {s s' : Stage} (h : P.Stages s s')
    (hnumber : s.startsOperand → P.Numbers t t') :
    Option.Rel P.Stages (s.extend t) (s'.extend t') := by
  have hterminal := ht.terminal_eq
  cases h with
  | name hx hoperand =>
    simp only [Stage.extend, hterminal]
    cases t.terminal with
    | colon => exact .some (.colon hx)
    | arrow => exact .some (.arrow (.operand hoperand))
    | _ => exact .none
  | target h => simpa only [Stage.extend, hterminal] using ite_paired (.arrow h) _
  | qubitWord h => simpa only [Stage.extend, hterminal] using ite_paired (.qubit h ht.qubit) _
  | listOpen h =>
    exact startOperand_paired ht (hnumber rfl) (.first (.list h)) (.firstOperand (.list h))
  | comma h hbefore =>
    exact startOperand_paired ht (hnumber rfl) (.later h hbefore) (.laterOperand h hbefore)
  | colon hx => exact startDeclaration_paired ht hx
  | qubitDeclaration hx =>
    exact startIndex_paired ht (.qubitRegister hx ht.token) (.qubit hx .none ht.token)
  | qubitRegister hx hregister =>
    simpa only [Stage.extend, hterminal] using
      ite_paired (.declared (.qubit hx (.some hregister) ht.token)) _
  | bitDeclaration hx =>
    exact startIndex_paired ht (.bitRegister hx ht.token) (.bit hx .none ht.token)
  | bitRegister hx hregister =>
    simpa only [Stage.extend, hterminal] using
      ite_paired (.declared (.bit hx (.some hregister) ht.token)) _
  | arrow h => exact startAction_paired ht h
  | itemStart h =>
    have hitem := startItem_paired ht h
    cases h with
    | elseBranch h hbranch hflag =>
      simp only [Stage.extend, hterminal]
      split
      · exact .some (.itemStart (.first (.elseGroup h hbranch hflag)))
      · exact hitem
    | _ => exact hitem
  | itemName h hx =>
    simpa only [Stage.extend, hterminal] using
      ite_paired (.itemEnd h (.named hx (.some ht.token))) _
  | gateName h hx => simpa only [Stage.extend, hterminal] using ite_paired (.argsOpen h hx) _
  | argsOpen h hx =>
    have hargs :=
      startOperand_paired ht (hnumber rfl) (.first (.args h hx)) (.firstOperand (.args h hx))
    simp only [Stage.extend, hterminal]
    split
    · exact .some (.itemEnd h (.gate hx .nil))
    · exact hargs
  | ifWord h hbranch =>
    simpa only [Stage.extend, hterminal] using ite_paired (.condition h hbranch ht.token) _
  | condition h hbranch hflag =>
    simpa only [Stage.extend, hterminal] using
      ite_paired (.itemStart (.elseBranch h hbranch hflag)) _
  | _ => exact .none

/-- Tokens that go together lead to the same. -/
theorem feed_paired (hnumber : P.Numbers t t') {r r' : Reader} (h : P.Readers r r') :
    P.Progresses (r.feed t) (r'.feed t') := by
  have hextend := extend_paired ht h.stage fun _ => hnumber
  unfold Reader.feed
  rw [ht.terminal_eq, h.stage.follow_eq]
  split
  · generalize r.stage.extend t = next at hextend
    generalize r'.stage.extend t' = next' at hextend
    cases hextend with
    | some hnext => exact .reading ⟨h.statements, hnext⟩
    | none => exact close_paired h.statements ht hnumber h.stage
  · exact .refused _

omit ht in
/-- A reading that goes together with itself still does after a token. -/
theorem Readers.feed {r r' : Reader} (h : P.Readers r r) (ht : P.Tokens t t)
    (hnumber : P.Numbers t t) (hfeed : r.feed t = .reading r') : P.Readers r' r' := by
  have hpaired := feed_paired ht hnumber h
  rw [hfeed] at hpaired
  cases hpaired with
  | reading h => exact h

end Extending

end Pairing

end GateScript.Source
