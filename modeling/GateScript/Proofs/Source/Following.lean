import GateScript.Proofs.Source.Pieces

/-!
What one token does to a reader, in terms of the grammar. Each function of the reader keeps the
pieces in step with the tokens, and a whole program comes out only at the end of the text.
-/
namespace GateScript.Source

section Steps

variable {done : List Statement} {ts : List Token} {t : Token}

/-- What a token leads to agrees with the tokens before it. At the end of the text these are a
whole program. -/
def Progress.Follows (ts : List Token) (t : Token) : Progress → Prop
  | .reading r => Spans (r.stage.pieces r.statements) (ts ++ [t])
  | .whole statements =>
    t.terminal = .endOfText ∧ Derives (.rule .start) ts [programTree statements]
  | .refused _ => True

theorem startStatement_follows {stage : Stage} (hstage : stage = .start ∨ stage = .between)
    (h : Spans (stage.pieces done) ts) : (startStatement done stage t).Follows ts t := by
  have hopening : Spans [.opening done] ts := by
    rcases hstage with rfl | rfl
    · exact h
    · exact h.convert fun _ h => derives_opening_iff.mpr (.inr h)
  unfold startStatement
  split
  · rename_i ht
    exact hopening.push (.choice (.tail _ (.tail _ (.tail _ (.tail _ (.head _))))) (.leaf rfl ht))
  · rename_i ht
    exact hopening.push_word ht rfl
  · rename_i ht
    exact hopening.push_leaf ht rfl
  · rename_i ht
    exact hopening.push (.choice (.tail _ (.head _)) (.leaf rfl ht))
  · rename_i ht
    exact hopening.push_word ht rfl
  · rename_i ht
    rcases hstage with rfl | rfl
    · exact .single (h.of_single.opening_newline ht)
    · exact .single (h.of_single.program_concat ht)
  · trivial

theorem endStatement_follows {s : Statement} (h : Spans [.statement s, .opening done] ts) :
    (endStatement done s t).Follows ts t := by
  unfold endStatement
  split
  · rename_i ht
    exact ⟨ht, .rule h.program⟩
  · exact startStatement_follows (.inr rfl) (.single h.program)

theorem endPipeline_follows {site : PipelineSite} {items : List Item}
    (h : Spans (.pipeline items :: site.pieces done) ts) :
    (endPipeline done site items t).Follows ts t := by
  cases site with
  | declaration name => exact endStatement_follows h.instruction_declaration
  | action aim count => exact endStatement_follows h.action
  | ifGroup aim =>
    unfold endPipeline
    dsimp only
    split
    · rename_i ht
      exact h.branch_group ht
    · trivial
  | elseGroup aim branch bit =>
    unfold endPipeline
    dsimp only
    split
    · rename_i ht
      exact h.branch_group ht
    · trivial

/-- An item before a bar or at the end of a pipeline. -/
theorem items_follow {site : PipelineSite} {items : List Item}
    (h : Spans (.items items :: site.pieces done) ts) :
    (if t.terminal = .bar then Progress.reading ⟨done, .itemStart (.later site items)⟩
      else if t.terminal = .ifWord then .refused afterPipeline
      else endPipeline done site items t).Follows ts t := by
  split
  · rename_i ht
    exact h.push_word ht rfl
  split
  · trivial
  · exact endPipeline_follows h.pipeline

theorem endItem_follows {site : ItemSite} {item : Item}
    (h : Spans (.item item :: site.pieces done) ts) : (endItem done site item t).Follows ts t := by
  cases site with
  | lead aim =>
    -- without a count and an `if` the item begins the pipeline of an action
    have hitems : Spans (.items [item] :: (PipelineSite.action aim none).pieces done) ts :=
      h.first_item.insert .absent
    unfold endItem
    dsimp only
    split
    · rename_i ht
      exact hitems.push_word ht rfl
    split
    · rename_i ht
      exact h.branch_item.push_word ht rfl
    split
    · trivial
    · exact endStatement_follows hitems.pipeline.action
  | first pipeline => exact items_follow h.first_item
  | later pipeline before => exact items_follow h.later_item
  | elseBranch aim branch bit => exact endStatement_follows h.branch_item.conditional_else

theorem endOperand_follows {site : OperandsSite} {operands : List Operand} (hne : operands ≠ [])
    (h : Spans (.operands operands :: site.pieces done) ts) :
    (endOperand done site operands t).Follows ts t := by
  unfold endOperand
  split
  · rename_i ht
    exact h.push_word ht rfl
  split
  · rename_i ht
    cases site with
    | list site => exact h.list ht
    | args site gate => exact h.gate_args hne ht
  · trivial

section Extending

variable {stage : Stage}

theorem startOperand_spans (site : OperandSite) {written : Operand → Stage}
    (hwritten : ∀ o, (written o).pieces done = .operand o :: site.pieces done)
    (h : Spans (site.pieces done) ts) (hstage : startOperand site written t = some stage) :
    Spans (stage.pieces done) (ts ++ [t]) := by
  unfold startOperand at hstage
  split at hstage
  · rename_i ht
    cases hstage
    rw [hwritten]
    exact h.operand_name ht
  · rename_i ht
    cases hstage
    rw [hwritten]
    exact h.operand_number ht
  · rename_i ht
    cases hstage
    exact h.push_word ht rfl
  · cases hstage

theorem startItem_spans (site : ItemSite) (h : Spans (site.pieces done) ts)
    (hstage : startItem site t = some stage) : Spans (stage.pieces done) (ts ++ [t]) := by
  unfold startItem at hstage
  split at hstage
  · rename_i ht
    cases hstage
    exact h.push_leaf ht rfl
  · rename_i ht
    cases hstage
    exact h.push_leaf ht rfl
  · cases hstage

theorem startDeclaration_spans {name : Token} (h : Spans (declaredPieces done name) ts)
    (hstage : startDeclaration name t = some stage) : Spans (stage.pieces done) (ts ++ [t]) := by
  unfold startDeclaration at hstage
  split at hstage
  · rename_i ht
    cases hstage
    exact h.push_word ht rfl
  · rename_i ht
    cases hstage
    exact h.push_word ht rfl
  · rename_i ht
    cases hstage
    exact (h.push_leaf ht rfl).plainQubit
  · rename_i ht
    cases hstage
    exact h.push_word ht rfl
  · exact startItem_spans (.first (.declaration name)) h hstage

theorem startIndex_spans {register : Token → Stage} {declared : Token → Statement}
    {word : Terminal} {name : Token} (h : Spans (.word word :: declaredPieces done name) ts)
    (hregister : ∀ t, (register t).pieces done =
      .option .name (some t) :: .word word :: declaredPieces done name)
    (hdeclared : ∀ {ts}, Spans (.leaf .number t :: .option .name none :: .word word ::
      declaredPieces done name) ts → Spans [.statement (declared t), .opening done] ts)
    (hstage : startIndex register declared t = some stage) :
    Spans (stage.pieces done) (ts ++ [t]) := by
  unfold startIndex at hstage
  split at hstage
  · rename_i ht
    cases hstage
    rw [hregister]
    exact h.push_option ht rfl
  · rename_i ht
    cases hstage
    exact hdeclared ((h.push_none .name).push_leaf ht rfl)
  · cases hstage

theorem startAction_spans {aim : Target} (h : Spans (aimedPieces done aim) ts)
    (hstage : startAction aim t = some stage) : Spans (stage.pieces done) (ts ++ [t]) := by
  unfold startAction at hstage
  split at hstage
  · rename_i ht
    cases hstage
    exact h.push_word ht rfl
  · rename_i ht
    cases hstage
    exact h.push_option ht rfl
  · exact startItem_spans (.lead aim) h hstage

/-- A token that goes on with a piece goes on with what was read. -/
theorem extend_spans {s : Stage} (h : Spans (s.pieces done) ts) (hstage : s.extend t = some stage) :
    Spans (stage.pieces done) (ts ++ [t]) := by
  cases s with
  | name x =>
    simp only [Stage.extend] at hstage
    split at hstage
    · rename_i ht
      cases hstage
      exact h.push_word ht rfl
    · rename_i ht
      cases hstage
      have haim : Spans [.target (.operand (.name x)), .opening done] ts :=
        h.convert fun _ h => .choice (.head _) h
      exact haim.push_word ht rfl
    · cases hstage
  | target aim =>
    obtain ⟨ht, ⟨⟩⟩ := Option.ite_none_right_eq_some.mp hstage
    exact h.push_word ht rfl
  | qubitWord site =>
    obtain ⟨ht, ⟨⟩⟩ := Option.ite_none_right_eq_some.mp hstage
    exact h.qubit ht
  | listOpen site => exact startOperand_spans (.first (.list site)) (fun _ => rfl) h hstage
  | comma site before => exact startOperand_spans (.later site before) (fun _ => rfl) h hstage
  | colon x => exact startDeclaration_spans h hstage
  | qubitDeclaration x =>
    exact startIndex_spans h (fun _ => rfl) (fun h => h.qubit_declaration) hstage
  | qubitRegister x register =>
    obtain ⟨ht, ⟨⟩⟩ := Option.ite_none_right_eq_some.mp hstage
    exact (h.push_leaf ht rfl).qubit_declaration
  | bitDeclaration x =>
    exact startIndex_spans h (fun _ => rfl) (fun h => h.bit_declaration) hstage
  | bitRegister x register =>
    obtain ⟨ht, ⟨⟩⟩ := Option.ite_none_right_eq_some.mp hstage
    exact (h.push_leaf ht rfl).bit_declaration
  | arrow aim => exact startAction_spans h hstage
  | itemStart site =>
    change Spans (site.pieces done) ts at h
    cases site with
    | elseBranch aim branch bit =>
      simp only [Stage.extend] at hstage
      split at hstage
      · rename_i ht
        cases hstage
        exact h.push_word ht rfl
      · exact startItem_spans _ h hstage
    | _ => exact startItem_spans _ h hstage
  | itemName site x =>
    obtain ⟨ht, ⟨⟩⟩ := Option.ite_none_right_eq_some.mp hstage
    exact (h.push_option ht rfl).named
  | gateName site x =>
    obtain ⟨ht, ⟨⟩⟩ := Option.ite_none_right_eq_some.mp hstage
    exact h.push_word ht rfl
  | argsOpen site gate =>
    simp only [Stage.extend] at hstage
    split at hstage
    · rename_i ht
      cases hstage
      exact h.gate_empty ht
    · exact startOperand_spans (.first (.args site gate)) (fun _ => rfl) h hstage
  | ifWord aim branch =>
    obtain ⟨ht, ⟨⟩⟩ := Option.ite_none_right_eq_some.mp hstage
    exact h.push_leaf ht rfl
  | condition aim branch bit =>
    obtain ⟨ht, ⟨⟩⟩ := Option.ite_none_right_eq_some.mp hstage
    exact h.push_word ht rfl
  | _ => cases hstage

end Extending

/-- A token that ends a piece agrees with what was read. -/
theorem close_follows {s : Stage} (h : Spans (s.pieces done) ts) :
    (s.close done t).Follows ts t := by
  cases s with
  | start => exact startStatement_follows (.inl rfl) h
  | between =>
    simp only [Stage.close]
    split
    · rename_i ht
      exact ⟨ht, .rule h.of_single⟩
    · exact startStatement_follows (.inr rfl) h
  | qubit site index =>
    cases site with
    | target =>
      simp only [Stage.close]
      split
      · rename_i ht
        have haim : Spans [.target (.operand (.qubit index)), .opening done] ts :=
          h.convert fun _ h => .choice (.tail _ (.tail _ (.head _))) h
        exact haim.push_word ht rfl
      · trivial
    | first site =>
      have hoperand : Spans (.operand (.qubit index) :: site.pieces done) ts :=
        h.convert fun _ h => derives_operand_qubit h
      exact endOperand_follows (List.cons_ne_nil _ _) hoperand.first_operand
    | later site before =>
      have hoperand : Spans (.operand (.qubit index) :: .word .comma :: .operands before ::
          site.pieces done) ts := h.convert fun _ h => derives_operand_qubit h
      simp only [Stage.close]
      split
      · trivial
      · exact endOperand_follows (by simp) hoperand.later_operand
  | firstOperand site operand => exact endOperand_follows (List.cons_ne_nil _ _) h.first_operand
  | laterOperand site before operand => exact endOperand_follows (by simp) h.later_operand
  | listEnd site items =>
    cases site with
    | declaration x => exact endStatement_follows h.list_declaration
    | target =>
      simp only [Stage.close]
      split
      · rename_i ht
        have haim : Spans [.target (.list items), .opening done] ts :=
          h.convert fun _ h => .choice (.tail _ (.tail _ (.tail _ (.head _)))) h
        exact haim.push_word ht rfl
      · trivial
  | declared statement => exact endStatement_follows h
  | itemName site x => exact endItem_follows (h.push_none .reverseArrow).named
  | gateName site x => exact endItem_follows h.gate_bare
  | itemEnd site item => exact endItem_follows h
  | ifGroupEnd aim items =>
    simp only [Stage.close]
    split
    · rename_i ht
      exact h.push_word ht rfl
    · trivial
  | elseGroupEnd aim branch bit items => exact endStatement_follows h.conditional_else
  | condition aim branch bit => exact endStatement_follows h.conditional
  | _ => trivial

/-- A token agrees with what was read before it. -/
theorem feed_follows {r : Reader} (h : Spans (r.stage.pieces r.statements) ts) :
    (r.feed t).Follows ts t := by
  unfold Reader.feed
  split
  · split
    · rename_i stage hstage
      exact extend_spans h hstage
    · exact close_follows h
  · trivial

end Steps

end GateScript.Source
