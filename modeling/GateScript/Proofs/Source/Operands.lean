import GateScript.Proofs.Source.Accepting
import GateScript.Proofs.Source.Pairing

/-!
Where a number is an operand.

A number is an operand, the index of a declared unit, a count, or the index after the word `q`.
Only in place of an operand does the reader take the word as well, and then the number after it
leads on as the number alone would.
-/
namespace GateScript.Source

section Operands

def Item.operands : Item → List Operand
  | .gate _ args => args
  | .named _ _ => []

def Target.operands : Target → List Operand
  | .operand o => [o]
  | .list items => items
  | .all _ => []

def Branch.operands : Branch → List Operand
  | .item i => i.operands
  | .group items => items.flatMap Item.operands

/-- Targets, elements of lists and arguments of gates. -/
def Statement.operands : Statement → List Operand
  | .list _ items => items
  | .instruction _ items => items.flatMap Item.operands
  | .action target _ items => target.operands ++ items.flatMap Item.operands
  | .conditional target branch _ otherwise =>
    target.operands ++ (branch.operands ++ (otherwise.map Branch.operands).getD [])
  | _ => []

namespace Pairing

variable {P : Pairing}

theorem Items.operands {i i' : Item} (h : P.Items i i') :
    List.Forall₂ P.operand i.operands i'.operands := by
  cases h with
  | gate hname hargs => exact hargs
  | named hname harrow => exact .nil

theorem forall₂_items {items items' : List Item} (h : List.Forall₂ P.Items items items') :
    List.Forall₂ P.operand (items.flatMap Item.operands) (items'.flatMap Item.operands) :=
  List.rel_flatMap h fun _ _ => Items.operands

theorem Targets.operands {target target' : Target} (h : P.Targets target target') :
    List.Forall₂ P.operand target.operands target'.operands := by
  cases h with
  | operand h => exact .cons h .nil
  | list h => exact h
  | all h => exact .nil

theorem Branches.operands {branch branch' : Branch} (h : P.Branches branch branch') :
    List.Forall₂ P.operand branch.operands branch'.operands := by
  cases h with
  | item h => exact h.operands
  | group h => exact forall₂_items h

theorem Statements.operands {s s' : Statement} (h : P.Statements s s') :
    List.Forall₂ P.operand s.operands s'.operands := by
  cases h with
  | list hname hitems => exact hitems
  | instruction hname hitems => exact forall₂_items hitems
  | action htarget hcount hitems => exact List.rel_append htarget.operands (forall₂_items hitems)
  | conditional htarget hbranch hflag hotherwise =>
    refine List.rel_append htarget.operands (List.rel_append hbranch.operands ?_)
    cases hotherwise with
    | none => exact .nil
    | some h => exact h.operands
  | _ => exact .nil

/-- A reading that has made no operand of this number. -/
def without (t : Token) : Pairing where
  token u u' := u' = u
  operand o o' := o ≠ .number t ∧ o' = o
  terminal := fun h => h ▸ rfl

theorem without_tokens (t u : Token) : (without t).Tokens u u where
  token := rfl
  name := ⟨by simp, rfl⟩
  qubit := ⟨by simp, rfl⟩

theorem without_numbers {t u : Token} (h : u.start ≠ t.start) : (without t).Numbers u u := by
  refine fun _ => ⟨?_, rfl⟩
  rintro ⟨⟩
  exact h rfl

theorem not_mem_operands {t : Token} {statements statements' : List Statement}
    (h : List.Forall₂ (without t).Statements statements statements') :
    Operand.number t ∉ statements.flatMap Statement.operands := by
  have hoperands : List.Forall₂ (without t).operand (statements.flatMap Statement.operands)
      (statements'.flatMap Statement.operands) := List.rel_flatMap h fun _ _ => Statements.operands
  intro hmem
  exact ((List.forall₂_and_left _ _).mp hoperands).1 _ hmem rfl

end Pairing

end Operands

section Numbers

variable {done : List Statement}

/-- The stage after an operand that is a name or a number. -/
def OperandSite.written : OperandSite → Operand → Stage
  | .target, o => .target (.operand o)
  | .first site, o => .firstOperand site o
  | .later site before, o => .laterOperand site before o

/-- A step of the reader that takes a number as an operand if at all, and the word `q` in its
place. -/
def TakesNumbers (step : Token → Progress) : Prop :=
  ∀ (t : Token) (r : Reader), t.terminal = .number → step t = .reading r →
    ∃ site : OperandSite, r.stage = site.written (.number t) ∧
      ∀ word : Token, word.terminal = .q → step word = .reading ⟨r.statements, .qubitWord site⟩

theorem TakesNumbers.refused (expected : List Terminal) :
    TakesNumbers fun _ => .refused expected := by
  intro t r _ h
  cases h

/-- A step that looks for another terminal first. -/
theorem TakesNumbers.ite {terminal : Terminal} (hterminal : terminal ≠ .number ∧ terminal ≠ .q)
    {found : Progress} {other : Token → Progress} (h : TakesNumbers other) :
    TakesNumbers fun t => if t.terminal = terminal then found else other t := by
  intro t r ht hstep
  have hnumber : t.terminal ≠ terminal := ht ▸ hterminal.1.symm
  dsimp only at hstep
  rw [if_neg hnumber] at hstep
  obtain ⟨site, hstage, hword⟩ := h t r ht hstep
  refine ⟨site, hstage, fun word hq => ?_⟩
  have hne : word.terminal ≠ terminal := hq ▸ hterminal.2.symm
  dsimp only
  rw [if_neg hne]
  exact hword word hq

theorem startStatement_takes (stage : Stage) : TakesNumbers (startStatement done stage) := by
  intro t r ht h
  rw [startStatement, ht] at h
  cases h
  refine ⟨.target, rfl, fun word hq => ?_⟩
  rw [startStatement, hq]

theorem endStatement_takes (s : Statement) : TakesNumbers (endStatement done s) :=
  .ite (by decide) (startStatement_takes _)

theorem endPipeline_takes (site : PipelineSite) (items : List Item) :
    TakesNumbers (endPipeline done site items) := by
  cases site with
  | declaration name => exact endStatement_takes _
  | action target count => exact endStatement_takes _
  | ifGroup target => exact .ite (by decide) (.refused _)
  | elseGroup target branch flag => exact .ite (by decide) (.refused _)

theorem endItem_takes (site : ItemSite) (item : Item) : TakesNumbers (endItem done site item) := by
  cases site with
  | lead target =>
    exact .ite (by decide) (.ite (by decide) (.ite (by decide) (endStatement_takes _)))
  | first pipeline => exact .ite (by decide) (.ite (by decide) (endPipeline_takes pipeline _))
  | later pipeline before =>
    exact .ite (by decide) (.ite (by decide) (endPipeline_takes pipeline _))
  | elseBranch target branch flag => exact endStatement_takes _

theorem endOperand_takes (site : OperandsSite) (operands : List Operand) :
    TakesNumbers (endOperand done site operands) := by
  have hclosing : site.closing ≠ .number ∧ site.closing ≠ .q := by
    cases site <;> simp [OperandsSite.closing]
  exact .ite (by decide) (.ite hclosing (.refused _))

theorem close_takes (s : Stage) : TakesNumbers (s.close done) := by
  cases s with
  | start => exact startStatement_takes .start
  | between => exact .ite (by decide) (startStatement_takes .between)
  | qubit site index =>
    cases site with
    | target => exact .ite (by decide) (.refused _)
    | first site => exact endOperand_takes site _
    | later site before => exact .ite (by decide) (endOperand_takes site _)
  | firstOperand site operand => exact endOperand_takes site _
  | laterOperand site before operand => exact endOperand_takes site _
  | listEnd site items =>
    cases site with
    | declaration x => exact endStatement_takes _
    | target => exact .ite (by decide) (.refused _)
  | declared statement => exact endStatement_takes _
  | itemName site x => exact endItem_takes site _
  | gateName site x => exact endItem_takes site _
  | itemEnd site item => exact endItem_takes site item
  | ifGroupEnd aim items => exact .ite (by decide) (.refused _)
  | elseGroupEnd aim branch flag items => exact endStatement_takes _
  | condition aim branch flag => exact endStatement_takes _
  | _ => exact .refused _

theorem feed_close {r : Reader} {t : Token} (hfollow : r.stage.follow.contains t.terminal)
    (h : r.stage.extend t = none) : r.feed t = r.stage.close r.statements t := by
  rw [Reader.feed, if_pos hfollow, h]

theorem follow_of_feed {r r' : Reader} {t : Token} (h : r.feed t = .reading r') :
    r.stage.follow.contains t.terminal := by
  by_contra hfollow
  rw [Reader.feed, if_neg hfollow] at h
  cases h

/-- A reader that can take the word `q` in place of an operand. -/
structure TakesWord (r : Reader) (done : List Statement) (site : OperandSite) : Prop where
  name : r.stage.follow.contains .name
  q : r.stage.follow.contains .q
  feed : ∀ word : Token, word.terminal = .q → r.feed word = .reading ⟨done, .qubitWord site⟩

theorem takesWord_of_startsOperand (done : List Statement) {s : Stage} (hs : s.startsOperand)
    {t : Token} (ht : t.terminal = .number) :
    ∃ site : OperandSite, s.extend t = some (site.written (.number t)) ∧
      TakesWord ⟨done, s⟩ done site := by
  have hplace (site : OperandSite) (hname : s.follow.contains .name) (hq : s.follow.contains .q)
      (hextend : ∀ u : Token, u.terminal ≠ .closeParen →
        s.extend u = startOperand site site.written u) :
      ∃ site : OperandSite, s.extend t = some (site.written (.number t)) ∧
        TakesWord ⟨done, s⟩ done site := by
    refine ⟨site, ?_, hname, hq, fun word hword => ?_⟩
    · rw [hextend t (by simp [ht]), startOperand, ht]
    · apply feed_extend (hword ▸ hq)
      rw [hextend word (by simp [hword]), startOperand, hword]
  cases s with
  | listOpen site => exact hplace (.first (.list site)) rfl rfl fun _ _ => rfl
  | comma site before => exact hplace (.later site before) rfl rfl fun _ _ => rfl
  | argsOpen site gate => exact hplace (.first (.args site gate)) rfl rfl fun _ hu => if_neg hu
  | _ => cases hs

/-- A stage that takes notice of a number and does not go on with it does the same with the word
`q`. -/
theorem extend_word {s : Stage} {t : Token} (ht : t.terminal = .number)
    (hfollow : s.follow.contains .number) (h : s.extend t = none) :
    s.follow.contains .name ∧ s.follow.contains .q ∧
      ∀ word : Token, word.terminal = .q → s.extend word = none := by
  cases s with
  | start | between | listEnd _ _ | declared _ | itemName _ _ | gateName _ _ | itemEnd _ _
  | ifGroupEnd _ _ | elseGroupEnd _ _ _ _ | condition _ _ _ =>
    refine ⟨rfl, rfl, fun word hword => ?_⟩
    simp [Stage.extend, hword]
  | itemStart site => cases site <;> cases hfollow
  | firstOperand site operand => cases site <;> cases hfollow
  | name _ | target _ | qubit _ _ | laterOperand _ _ _ | ifWord _ _ => cases hfollow
  | _ => simp [Stage.extend, startOperand, startDeclaration, startIndex, startAction, ht] at h

/-- A reader that takes a number makes an operand of it, and can take the word `q` in its place; or
it keeps the number as something else. -/
theorem feed_number {r r' : Reader} {t : Token} (ht : t.terminal = .number)
    (h : r.feed t = .reading r') :
    (∃ site : OperandSite, r'.stage = site.written (.number t) ∧ TakesWord r r'.statements site) ∨
      ∀ P : Pairing, P.Readers r r → P.Tokens t t → P.Readers r' r' := by
  have hfollow := follow_of_feed h
  cases hextend : r.stage.extend t with
  | none =>
    obtain ⟨hname, hq, hword⟩ := extend_word ht (ht ▸ hfollow) hextend
    rw [feed_close hfollow hextend] at h
    obtain ⟨site, hstage, htake⟩ := close_takes r.stage t r' ht h
    refine .inl ⟨site, hstage, hname, hq, fun word hw => ?_⟩
    rw [feed_close (hw ▸ hq) (hword word hw)]
    exact htake word hw
  | some stage =>
    rw [feed_extend hfollow hextend] at h
    cases h
    by_cases hs : r.stage.startsOperand
    · obtain ⟨site, hsite, hword⟩ := takesWord_of_startsOperand r.statements hs ht
      rw [hextend] at hsite
      exact .inl ⟨site, Option.some.inj hsite, hword⟩
    · refine .inr fun P hr htokens => ⟨hr.statements, ?_⟩
      have hpaired := Pairing.extend_paired htokens hr.stage fun h => absurd h hs
      rw [hextend] at hpaired
      cases hpaired with
      | some h => exact h

end Numbers

section After

variable {P : Pairing} {done done' : List Statement} {t t' u u' : Token} {r : Reader}

/-- What may come after an operand may come after the word `q` and a number. The arrow comes after
a target only. -/
theorem follow_written {site : OperandSite} {o : Operand} {terminal : Terminal}
    (h : (site.written o).follow.contains terminal) (place : OperandSite) (index : Token) :
    (Stage.qubit place index).follow.contains terminal ∧ (terminal = .arrow ↔ site = .target) := by
  cases site with
  | target =>
    have hterminal : terminal = .arrow := by simpa [OperandSite.written, Stage.follow] using h
    simp [Stage.follow, hterminal]
  | first run =>
    have hterminal : terminal = .comma ∨ terminal = run.closing := by
      simpa [OperandSite.written, Stage.follow, OperandsSite.follow] using h
    rcases hterminal with rfl | rfl
    · simp [Stage.follow]
    · cases run <;> simp [Stage.follow, OperandsSite.closing]
  | later run before =>
    have hterminal : terminal = .comma ∨ terminal = .closeParen ∨ terminal = .closeBracket := by
      simpa [OperandSite.written, Stage.follow] using h
    rcases hterminal with rfl | rfl | rfl <;> simp [Stage.follow]

/-- After the word `q` and a number the reader goes on as after the number alone. -/
theorem feed_written {site site' : OperandSite} (hdone : List.Forall₂ P.Statements done done')
    (hsite : P.OperandSites site site') (hoperand : P.operand (.number t) (.qubit t'))
    (hu : P.Tokens u u') (h : Reader.feed ⟨done, site.written (.number t)⟩ u = .reading r) :
    ∃ r', Reader.feed ⟨done', .qubit site' t'⟩ u' = .reading r' ∧ P.Readers r r' := by
  have hfollow := follow_of_feed h
  have hterminal := hu.terminal_eq
  -- in a run of operands both readers end the operand at the same token
  have hrun {site site' : OperandsSite} {operands operands' : List Operand}
      (hsite : P.OperandsSites site site')
      (hoperands : List.Forall₂ P.operand operands operands')
      (hend : endOperand done site operands u = .reading r) :
      ∃ r', endOperand done' site' operands' u' = .reading r' ∧ P.Readers r r' := by
    have hpaired := Pairing.endOperand_paired hdone hu hsite hoperands
    rw [hend] at hpaired
    exact hpaired.of_reading
  obtain ⟨hfollow', harrow⟩ := follow_written hfollow site' t'
  rw [← hterminal] at hfollow' harrow
  cases hsite with
  | target =>
    have harrow := harrow.mpr rfl
    rw [feed_extend hfollow (if_pos (hterminal ▸ harrow))] at h
    cases h
    refine ⟨⟨done', .arrow (.operand (.qubit t'))⟩, ?_, hdone, .arrow (.operand hoperand)⟩
    rw [feed_close hfollow' rfl]
    exact if_pos harrow
  | first hsite =>
    rw [feed_close hfollow rfl] at h
    rw [feed_close hfollow' rfl]
    exact hrun hsite (.cons hoperand .nil) h
  | later hsite hbefore =>
    have hne : u'.terminal ≠ .arrow := by simpa using harrow
    rw [feed_close hfollow rfl] at h
    rw [feed_close hfollow' rfl]
    dsimp only [Stage.close]
    rw [if_neg hne]
    exact hrun hsite (Pairing.forall₂_concat hbefore hoperand) h

end After

end GateScript.Source
