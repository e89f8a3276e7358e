import GateScript.Proofs.Source.Accepting

/-! Reading back statements, and whole programs line by line. -/
namespace GateScript.Source

open Program (Argument Part Node TargetItem)

section Statements

variable {done : List Statement} {P : List Statement → Prop} {rest : List Char} {ss : List String}

/-- A stage before a statement. -/
def Stage.Begins (stage : Stage) : Prop := stage = .start ∨ stage = .between

theorem Stage.Begins.follow {stage : Stage} (h : stage.Begins) {t : Terminal}
    (ht : t ∈ Stage.start.follow) : stage.follow.contains t := by
  have hstart : ∀ t ∈ Stage.start.follow, Stage.start.follow.contains t ∧
      afterStatement.contains t := by decide
  rcases h with rfl | rfl
  · exact (hstart t ht).1
  · exact (hstart t ht).2

theorem Stage.Begins.feed {stage : Stage} (h : stage.Begins) {terminal : Terminal} {text : String}
    {start stop : Position} (ht : terminal ∈ Stage.start.follow) :
    Reader.feed ⟨done, stage⟩ ⟨terminal, text, start, stop⟩ =
      startStatement done stage ⟨terminal, text, start, stop⟩ := by
  have hend : terminal ≠ .endOfText := by
    rintro rfl
    revert ht
    decide
  rw [Reader.feed, if_pos (h.follow ht)]
  rcases h with rfl | rfl <;> simp [Stage.extend, Stage.close, hend]

/-- Reads a name where a statement begins. -/
theorem accepts_first_name (hrest : Boundary rest) {stage : Stage} (hstage : stage.Begins)
    {s : String} (hs : Program.IsOperandName s)
    (h : ∀ t : Token, t.Is .name s → Accepts ⟨done, .name t⟩ (spell ss rest) P) :
    Accepts ⟨done, stage⟩ (line (s :: ss) rest) P := by
  have hreads : Reads stage.follow s .name := by
    have hname := reads_name hs.1 (hstage.follow (t := .name) (by decide))
      (by rcases hstage with rfl | rfl <;> rfl) (by rcases hstage with rfl | rfl <;> rfl)
    rwa [reserve_name (.inl hs.2) (.inr (by rcases hstage with rfl | rfl <;> rfl))] at hname
  refine accepts_first hrest hreads fun start stop => ⟨_, hstage.feed ?_, h _ ⟨rfl, rfl⟩⟩
  decide

theorem exists_operands {items : List TargetItem} (h : ∀ item ∈ items, item.Writable) :
    ∃ args : List Argument, items = args.map targetItem ∧ (∀ arg ∈ args, arg.Writable) ∧
      items.map TargetItem.lexeme = args.map Argument.lexeme := by
  induction items with
  | nil => exact ⟨[], rfl, by simp, rfl⟩
  | cons item items ih =>
    obtain ⟨hitem, hitems⟩ := List.forall_mem_cons.mp h
    obtain ⟨args, rfl, hargs, hlexemes⟩ := ih hitems
    cases item with
    | name s =>
      refine ⟨.name s :: args, rfl, List.forall_mem_cons.mpr ⟨hitem, hargs⟩, ?_⟩
      rw [List.map_cons, hlexemes]
      rfl
    | number n =>
      cases n with
      | int n =>
        refine ⟨.number (.int n) :: args, rfl, List.forall_mem_cons.mpr ⟨hitem, hargs⟩, ?_⟩
        rw [List.map_cons, hlexemes]
        rfl
      | real x => exact hitem.elim
    | _ => exact hitem.elim

/-- Reads a target and the arrow after it. -/
theorem accepts_target (hrest : Boundary rest) {stage : Stage} (hstage : stage.Begins)
    {aim : Program.Target} (haim : aim.Writable)
    (h : ∀ target : Target, target.Spells aim → Accepts ⟨done, .arrow target⟩ (spell ss rest) P) :
    Accepts ⟨done, stage⟩ (line (aim.lexemes ++ "->" :: ss) rest) P := by
  cases aim with
  | all =>
    have hreads : Reads stage.follow "*" .all := reads_literal rfl (hstage.follow (by decide))
    refine accepts_first hrest hreads fun start stop => ?_
    refine ⟨_, hstage.feed (by decide), ?_⟩
    refine accepts_literal .arrow rfl hrest rfl fun _ _ => ⟨_, rfl, h _ (.all ⟨rfl, rfl⟩)⟩
  | name s =>
    refine accepts_first_name hrest hstage haim fun t ht => ?_
    refine accepts_literal .arrow rfl hrest rfl fun _ _ => ⟨_, rfl, h _ (.name ht haim.1)⟩
  | index n =>
    obtain ⟨k, rfl⟩ := Int.eq_ofNat_of_zero_le haim
    refine accepts_first hrest (reads_number k (hstage.follow (by decide))) fun start stop => ?_
    refine ⟨_, hstage.feed (by decide), ?_⟩
    refine accepts_literal .arrow rfl hrest rfl fun _ _ => ⟨_, rfl, h _ (.index ⟨rfl, rfl⟩)⟩
  | list items =>
    obtain ⟨hne, hitems⟩ := haim
    obtain ⟨args, rfl, hargs, hlexemes⟩ := exists_operands hitems
    have hspell : (Program.Target.list (args.map targetItem)).lexemes ++ "->" :: ss = "[" ::
        (Program.commaSeparated (args.map Argument.lexeme) ++ "]" :: "->" :: ss) := by
      simp [Program.Target.lexemes, Program.listLexemes, ← hlexemes]
    rw [hspell]
    have hreads : Reads stage.follow "[" .openBracket :=
      reads_literal rfl (hstage.follow (by decide))
    refine accepts_first hrest hreads fun _ _ => ?_
    refine ⟨_, hstage.feed (by decide), ?_⟩
    refine accepts_operands hrest (by simpa using hne) hargs (startsOperand_list .target) ?_
    intro operands hoperands
    refine accepts_literal .arrow rfl hrest rfl fun _ _ => ⟨_, rfl, h _ (.list hoperands)⟩

/-- A reader that takes the end of a line, or of the text, for the end of a statement. -/
structure Ends (r : Reader) (statements : List Statement) : Prop where
  follow : r.stage.follow.contains .newline
  newline : ∀ t : Token, t.terminal = .newline → r.feed t = .reading ⟨statements, .between⟩
  endOfText : ∀ t : Token, t.terminal = .endOfText → r.feed t = .whole statements

theorem ends_of_feed {r : Reader} {s : Statement} (hfollow : r.stage.follow.contains .newline)
    (hfeed : ∀ t : Token, t.terminal = .newline ∨ t.terminal = .endOfText →
      r.feed t = endStatement done s t) : Ends r (done ++ [s]) := by
  refine ⟨hfollow, fun t ht => ?_, fun t ht => ?_⟩
  · rw [hfeed t (.inl ht)]
    simp [endStatement, startStatement, ht]
  · rw [hfeed t (.inr ht)]
    simp [endStatement, ht]

theorem ends_declared (s : Statement) : Ends ⟨done, .declared s⟩ (done ++ [s]) := by
  refine ends_of_feed rfl fun t ht => ?_
  rcases ht with ht | ht <;>
    simp [Reader.feed, Stage.follow, afterStatement, Stage.extend, Stage.close, ht]

theorem ends_list (name : Token) (operands : List Operand) :
    Ends ⟨done, .listEnd (.declaration name) operands⟩ (done ++ [.list name operands]) := by
  refine ends_of_feed rfl fun t ht => ?_
  rcases ht with ht | ht <;>
    simp [Reader.feed, Stage.follow, afterList, Stage.extend, Stage.close, ht]

theorem ends_instruction {name : Token} {stage : Stage} {items : List Item}
    (h : AfterItems (.declaration name) stage items) :
    Ends ⟨done, stage⟩ (done ++ [.instruction name items]) :=
  ends_of_feed (h.follow (by decide)) fun _ ht => h.feed_end ht

theorem ends_action {target : Target} {count : Option Token} {stage : Stage} {items : List Item}
    (h : AfterItems (.action target count) stage items) :
    Ends ⟨done, stage⟩ (done ++ [.action target count items]) :=
  ends_of_feed (h.follow (by decide)) fun _ ht => h.feed_end ht

theorem ends_condition (target : Target) (branch : Branch) (flag : Token) :
    Ends ⟨done, .condition target branch flag⟩
      (done ++ [.conditional target branch flag none]) := by
  refine ends_of_feed rfl fun t ht => ?_
  rcases ht with ht | ht <;> simp [Reader.feed, Stage.follow, Stage.extend, Stage.close, ht]

theorem ends_elseItem {target : Target} {branch : Branch} {flag : Token} {stage : Stage}
    {item : Item} (h : AfterItem (.elseBranch target branch flag) stage item) :
    Ends ⟨done, stage⟩ (done ++ [.conditional target branch flag (some (.item item))]) :=
  ends_of_feed (h.follow (by decide)) fun t ht =>
    h.feed (by rcases ht with ht | ht <;> (rw [ht]; decide))

theorem ends_elseGroup (target : Target) (branch : Branch) (flag : Token) (items : List Item) :
    Ends ⟨done, .elseGroupEnd target branch flag items⟩
      (done ++ [.conditional target branch flag (some (.group items))]) := by
  refine ends_of_feed rfl fun t ht => ?_
  rcases ht with ht | ht <;> simp [Reader.feed, Stage.follow, Stage.extend, Stage.close, ht]

/-- Reads the name of a declaration and the colon after it. -/
theorem accepts_declared (hrest : Boundary rest) {stage : Stage} (hstage : stage.Begins)
    {x : String} (hx : Program.IsOperandName x)
    (h : ∀ name : Token, name.Is .name x → Accepts ⟨done, .colon name⟩ (spell ss rest) P) :
    Accepts ⟨done, stage⟩ (line (x :: ":" :: ss) rest) P := by
  refine accepts_first_name hrest hstage hx fun name hname => ?_
  exact accepts_literal .colon rfl hrest rfl fun _ _ => ⟨_, rfl, h name hname⟩

/-- Reads one of the words `q` and `b` where it has a meaning of its own. -/
theorem reads_word {allowed : List Terminal} {s : String} {t : Terminal} (hs : isName s)
    (hreserve : reserve allowed .name s.toList = t) (hname : allowed.contains .name)
    (hif : allowed.contains .ifWord = false) (helse : allowed.contains .elseWord = false) :
    Reads allowed s t := hreserve ▸ reads_name hs hname hif helse

/-- Reads a register, if it is not the default one, and an index. -/
theorem accepts_unit (declared : Option Token → Token → Statement) (hrest : Boundary rest)
    {stage : Stage} {registered : Token → Stage} (hfollow : stage.follow = [.name, .number])
    (hextend : stage.extend = startIndex registered (declared none))
    (hnumber : ∀ t, (registered t).follow = [.number])
    (hregistered : ∀ register t : Token, t.terminal = .number →
      (registered register).extend t = some (.declared (declared (some register) t)))
    {default r : String} (hr : isName r) {n : Nat}
    (h : ∀ register index, SpellsRegister default register r → index.Is .number (toString n) →
      Accepts ⟨done, .declared (declared register index)⟩ (spell ss rest) P) :
    Accepts ⟨done, stage⟩ (spell (Program.unitLexemes default r n ++ ss) rest) P := by
  unfold Program.unitLexemes
  split
  · rename_i hdefault
    subst hdefault
    refine accepts_lexeme hrest (reads_number n (by rw [hfollow]; rfl)) fun start stop => ?_
    refine ⟨_, feed_extend (by rw [hfollow]; rfl) (by rw [hextend]; rfl), ?_⟩
    exact h none _ .none ⟨rfl, rfl⟩
  · have hreads : Reads stage.follow r .name := by
      rw [hfollow]
      exact reads_word hr (reserve_name (.inr rfl) (.inr rfl)) rfl rfl rfl
    refine accepts_lexeme hrest hreads fun start stop => ?_
    refine ⟨_, feed_extend (by rw [hfollow]; rfl) (by rw [hextend]; rfl), ?_⟩
    refine accepts_lexeme hrest (reads_number n (by rw [hnumber]; rfl)) fun start' stop' => ?_
    refine ⟨_, feed_extend (by rw [hnumber]; rfl) (hregistered _ _ rfl), ?_⟩
    exact h (some _) _ (.some ⟨rfl, rfl⟩) ⟨rfl, rfl⟩

/-- Reads a pipeline in parentheses, after the first of them. -/
theorem accepts_group (closed : List Item → Stage) (hrest : Boundary rest) {site : PipelineSite}
    (hsite : ∀ items, ∀ t : Token, t.terminal = .closeParen →
      endPipeline done site items t = .reading ⟨done, closed items⟩)
    (haction : ∀ target count, site ≠ .action target count) {parts : List Part}
    (hparts : Program.PipelineWritable parts)
    (h : ∀ items, List.Forall₂ Item.Spells items parts →
      Accepts ⟨done, closed items⟩ (spell ss rest) P) :
    Accepts ⟨done, .itemStart (.first site)⟩
      (spell (Program.pipelineLexemes parts ++ ")" :: ss) rest) P := by
  refine accepts_pipeline hrest hparts (startsItem_itemStart _) (fun _ _ h => .first h)
    (fun r _ => reserve_name (.inr rfl) (.inr rfl)) fun stage items hitems hafter => ?_
  refine accepts_literal .closeParen rfl hrest (hafter.follow (by decide)) fun start stop => ?_
  refine ⟨⟨done, closed items⟩, ?_, h items hitems⟩
  rw [hafter.feed_closeParen haction rfl, hsite items _ rfl]

/-- Reads a branch of a conditional action and the word `if`. -/
theorem accepts_ifBranch (hrest : Boundary rest) {target : Target} {parts : List Part}
    (hparts : Program.PipelineWritable parts)
    (h : ∀ branch : Branch, branch.Spells parts →
      Accepts ⟨done, .ifWord target branch⟩ (spell ss rest) P) :
    Accepts ⟨done, .arrow target⟩ (spell (Program.branchLexemes parts ++ "if" :: ss) rest) P := by
  unfold Program.branchLexemes
  split
  · rename_i part
    -- without parentheses the item may still become a pipeline, until the word `if` is read
    have hif : Terminal.ifWord ∈ itemEnds := by decide
    refine accepts_part hrest (startsItem_arrow target) (hparts.2 part List.mem_cons_self)
      (fun r _ => reserve_name (.inr rfl) (.inr rfl)) fun stage item hitem hafter => ?_
    refine accepts_literal .ifWord rfl hrest (hafter.follow hif) fun start stop => ?_
    exact ⟨⟨done, .ifWord target (.item item)⟩, hafter.feed hif, h _ (.item hitem)⟩
  · rw [List.cons_append, List.append_assoc]
    refine accepts_literal .openParen rfl hrest rfl fun _ _ => ⟨_, rfl, ?_⟩
    refine accepts_group (.ifGroupEnd target) hrest (fun items t ht => ?_) (by simp) hparts ?_
    · rw [endPipeline, if_pos ht]
    · intro items hitems
      exact accepts_literal .ifWord rfl hrest rfl fun _ _ => ⟨_, rfl, h _ (.group hitems)⟩

/-- Reads the branch after the word `else`. -/
theorem accepts_elseBranch (hrest : Boundary rest) {target : Target} {branch : Branch}
    {flag : Token} {parts : List Part} (hparts : Program.PipelineWritable parts)
    (h : ∀ stage (otherwise : Branch), otherwise.Spells parts →
      Ends ⟨done, stage⟩ (done ++ [.conditional target branch flag (some otherwise)]) →
      Accepts ⟨done, stage⟩ rest P) :
    Accepts ⟨done, .itemStart (.elseBranch target branch flag)⟩
      (spell (Program.branchLexemes parts) rest) P := by
  unfold Program.branchLexemes
  split
  · rename_i part
    rw [← List.append_nil part.lexemes]
    refine accepts_part hrest (startsItem_itemStart _) (hparts.2 part List.mem_cons_self)
      (fun r _ => reserve_name (.inr rfl) (.inr rfl)) fun stage item hitem hafter => ?_
    exact h stage (.item item) (.item hitem) (ends_elseItem hafter)
  · refine accepts_literal .openParen rfl hrest rfl fun _ _ => ⟨_, rfl, ?_⟩
    refine accepts_group (.elseGroupEnd target branch flag) hrest (fun items t ht => ?_) (by simp)
      hparts ?_
    · rw [endPipeline, if_pos ht]
    · intro items hitems
      exact h _ (.group items) (.group hitems) (ends_elseGroup target branch flag items)

/-- Reads the condition of a conditional action, and the branch after the word `else`. -/
theorem accepts_condition (hrest : Boundary rest) {target : Target} {branch : Branch} {b : String}
    (hb : isName b) {elseParts : Option (List Part)}
    (helse : ∀ parts ∈ elseParts, Program.PipelineWritable parts)
    (h : ∀ stage flag otherwise, flag.Is .name b → SpellsElse otherwise elseParts →
      Ends ⟨done, stage⟩ (done ++ [.conditional target branch flag otherwise]) →
      Accepts ⟨done, stage⟩ rest P) :
    Accepts ⟨done, .ifWord target branch⟩ (spell (b :: Program.elseLexemes elseParts) rest) P := by
  have hreads : Reads [.name] b .name :=
    reads_word hb (reserve_name (.inr rfl) (.inr rfl)) rfl rfl rfl
  refine accepts_lexeme hrest hreads fun start stop => ⟨_, rfl, ?_⟩
  cases elseParts with
  | none => exact h _ _ none ⟨rfl, rfl⟩ .none (ends_condition target branch _)
  | some parts =>
    refine accepts_literal .elseWord rfl hrest rfl fun _ _ => ⟨_, rfl, ?_⟩
    refine accepts_elseBranch hrest (helse parts rfl) fun stage otherwise hotherwise hends => ?_
    exact h stage _ (some otherwise) ⟨rfl, rfl⟩ (.some hotherwise) hends

/-- Reads what an action does to a target. -/
theorem accepts_action (hrest : Boundary rest) {target : Target} {count : Option Int}
    (hcount : ∀ n ∈ count, 0 ≤ n) {parts : List Part} (hparts : Program.PipelineWritable parts)
    (h : ∀ stage times items, SpellsCount times count → List.Forall₂ Item.Spells items parts →
      Ends ⟨done, stage⟩ (done ++ [.action target times items]) → Accepts ⟨done, stage⟩ rest P) :
    Accepts ⟨done, .arrow target⟩
      (spell ((count.map toString).toList ++ Program.pipelineLexemes parts) rest) P := by
  rw [← List.append_nil (Program.pipelineLexemes parts)]
  cases count with
  | none =>
    refine accepts_pipeline hrest hparts (startsItem_arrow target) (fun _ _ h => .lead h)
      (fun r _ => reserve_name (.inr rfl) (.inr rfl)) fun stage items hitems hafter => ?_
    exact h stage none items .none hitems (ends_action hafter)
  | some n =>
    obtain ⟨k, rfl⟩ := Int.eq_ofNat_of_zero_le (hcount n rfl)
    refine accepts_lexeme hrest (reads_number k rfl) fun start stop => ⟨_, rfl, ?_⟩
    refine accepts_pipeline hrest hparts (startsItem_itemStart _) (fun _ _ h => .first h)
      (fun r _ => reserve_name (.inr rfl) (.inr rfl)) fun stage items hitems hafter => ?_
    exact h stage (some _) items (.some ⟨rfl, rfl⟩) hitems (ends_action hafter)

/-- Reads a statement. -/
theorem accepts_node (hrest : Boundary rest) {stage : Stage} (hstage : stage.Begins) {node : Node}
    (hnode : node.Writable)
    (h : ∀ stage' (s : Statement), s.Spells node → Ends ⟨done, stage'⟩ (done ++ [s]) →
      Accepts ⟨done, stage'⟩ rest P) :
    Accepts ⟨done, stage⟩ (line node.lexemes rest) P := by
  cases node with
  | qubit x q =>
    refine accepts_declared hrest hstage hnode.1 fun name hname => ?_
    refine accepts_lexeme hrest (reads_word (t := .q) (by decide) rfl rfl rfl rfl) fun _ _ => ?_
    refine ⟨_, rfl, ?_⟩
    rw [← List.append_nil (Program.unitLexemes _ _ _)]
    refine accepts_unit (.qubit name) hrest rfl rfl (fun _ => rfl) ?_ hnode.2 ?_
    · intro register t ht
      simp [Stage.extend, ht]
    · intro register index hregister hindex
      exact h _ _ (.qubit hname hregister hindex) (ends_declared _)
  | bit x b =>
    refine accepts_declared hrest hstage hnode.1 fun name hname => ?_
    refine accepts_lexeme hrest (reads_word (t := .b) (by decide) rfl rfl rfl rfl) fun _ _ => ?_
    refine ⟨_, rfl, ?_⟩
    rw [← List.append_nil (Program.unitLexemes _ _ _)]
    refine accepts_unit (.bit name) hrest rfl rfl (fun _ => rfl) ?_ hnode.2 ?_
    · intro register t ht
      simp [Stage.extend, ht]
    · intro register index hregister hindex
      exact h _ _ (.bit hname hregister hindex) (ends_declared _)
  | list x items =>
    obtain ⟨hx, hne, hitems⟩ := hnode
    refine accepts_declared hrest hstage hx fun name hname => ?_
    have hlexemes : Program.listLexemes items = "[" ::
        (Program.commaSeparated ((items.map Argument.name).map Argument.lexeme) ++ ["]"]) := by
      rw [List.map_map, Function.comp_def]
      simp [Argument.lexeme, Program.listLexemes]
    rw [hlexemes]
    refine accepts_literal .openBracket rfl hrest rfl fun _ _ => ⟨_, rfl, ?_⟩
    refine accepts_operands hrest (by simpa using hne) (List.forall_mem_map.mpr hitems)
      (startsOperand_list (.declaration name)) fun operands hoperands => ?_
    exact h _ _ (.list hname hoperands) (ends_list name operands)
  | instruction x parts =>
    obtain ⟨hx, hparts, hfirst⟩ := hnode
    refine accepts_declared hrest hstage hx fun name hname => ?_
    rw [← List.append_nil (Program.pipelineLexemes parts)]
    refine accepts_pipeline hrest hparts (startsItem_colon name) (fun _ _ h => .first h)
      (fun r hr => ?_) fun stage items hitems hafter => ?_
    · obtain ⟨hq, hb⟩ := hfirst (.named r) hr
      exact reserve_name (.inl hq) (.inl hb)
    · exact h _ _ (.instruction hname hitems) (ends_instruction hafter)
  | action aim count instruction =>
    cases instruction with
    | name x => exact hnode.elim
    | parts parts =>
      obtain ⟨haim, hcount, hparts⟩ := hnode
      refine accepts_target hrest hstage haim fun target htarget => ?_
      refine accepts_action hrest hcount hparts fun stage times items htimes hitems hends => ?_
      exact h stage _ (.action htarget htimes hitems) hends
  | conditional aim b ifParts elseParts =>
    obtain ⟨haim, hb, hif, helse⟩ := hnode
    refine accepts_target hrest hstage haim fun target htarget => ?_
    refine accepts_ifBranch hrest hif fun branch hbranch => ?_
    refine accepts_condition hrest hb helse fun stage flag otherwise hflag hotherwise hends => ?_
    exact h stage _ (.conditional htarget hbranch hflag hotherwise) hends
  | foreign => exact hnode.elim

end Statements

section Programs

variable {rest : List Char}

/-- The lines after the first one. -/
def linesAfter : List Node → List Char
  | [] => []
  | node :: nodes => '\n' :: line node.lexemes (linesAfter nodes)

theorem boundary_linesAfter (nodes : List Node) : Boundary (linesAfter nodes) := by
  cases nodes with
  | nil => exact .nil
  | cons node nodes => exact .newline _

theorem line_eq (ss : List String) (rest : List Char) :
    line ss rest = [' '].intercalate (ss.map String.toList) ++ rest := by
  have hspell : ∀ s ss, s.toList ++ spell ss rest =
      [' '].intercalate ((s :: ss).map String.toList) ++ rest := by
    intro s ss
    induction ss generalizing s with
    | nil => simp [spell]
    | cons s' ss ih =>
      rw [spell, ih]
      simp [List.intercalate_cons_cons]
  cases ss with
  | nil => rfl
  | cons s ss => exact hspell s ss

theorem linesAfter_eq (node : Node) (nodes : List Node) :
    line node.lexemes (linesAfter nodes) = ['\n'].intercalate
      ((node :: nodes).map fun node => [' '].intercalate (node.lexemes.map String.toList)) := by
  induction nodes generalizing node with
  | nil => simp [linesAfter, line_eq]
  | cons next nodes ih =>
    rw [line_eq, linesAfter, ih]
    simp [List.intercalate_cons_cons]

theorem toList_render (node : Node) (nodes : List Node) :
    (Program.render (node :: nodes)).toList = line node.lexemes (linesAfter nodes) := by
  rw [Program.render, String.toList_intercalate, linesAfter_eq, List.map_map]
  congr 1
  refine List.map_congr_left fun node _ => ?_
  exact String.toList_intercalate

/-- A lexeme that does not end the line where it stands. -/
def BeginsLine (s : String) : Prop := ∃ c ∈ s.toList.head?, c ≠ '\n' ∧ c ≠ '\r'

theorem beginsLine_name {s : String} (hs : isName s) : BeginsLine s := by
  unfold isName at hs
  split at hs
  · simp at hs
  · rename_i c cs hlist
    refine ⟨c, by rw [hlist]; rfl, ?_, ?_⟩ <;> (rintro rfl; simp at hs)

theorem beginsLine_numeral (n : Nat) : BeginsLine (toString n) := by
  obtain ⟨c, cs, hcs⟩ := List.exists_cons_of_ne_nil (Nat.toDigits_ne_nil : Nat.toDigits 10 n ≠ [])
  have hc := Decimal.isDigit_toDigits n c (by rw [hcs]; exact List.mem_cons_self)
  refine ⟨c, by rw [Nat.toString_eq_ofList_toDigits, String.toList_ofList, hcs]; rfl, ?_, ?_⟩ <;>
    (rintro rfl; simp at hc)

theorem target_beginsLine {aim : Program.Target} (h : aim.Writable) :
    ∃ s ss, aim.lexemes = s :: ss ∧ BeginsLine s := by
  cases aim with
  | all => exact ⟨_, _, rfl, '*', rfl, by decide, by decide⟩
  | name s => exact ⟨_, _, rfl, beginsLine_name h.1⟩
  | index n =>
    obtain ⟨k, rfl⟩ := Int.eq_ofNat_of_zero_le h
    exact ⟨_, _, rfl, beginsLine_numeral k⟩
  | list items => exact ⟨_, _, rfl, '[', rfl, by decide, by decide⟩

theorem node_beginsLine {node : Node} (h : node.Writable) :
    ∃ s ss, node.lexemes = s :: ss ∧ BeginsLine s := by
  have htarget : ∀ aim : Program.Target, aim.Writable →
      ∀ ss', ∃ s ss, aim.lexemes ++ ss' = s :: ss ∧ BeginsLine s := by
    intro aim haim ss'
    obtain ⟨s, ss, hlexemes, hs⟩ := target_beginsLine haim
    exact ⟨s, ss ++ ss', by rw [hlexemes]; rfl, hs⟩
  cases node with
  | qubit x q => exact ⟨_, _, rfl, beginsLine_name h.1.1⟩
  | bit x b => exact ⟨_, _, rfl, beginsLine_name h.1.1⟩
  | list x items => exact ⟨_, _, rfl, beginsLine_name h.1.1⟩
  | instruction x parts => exact ⟨_, _, rfl, beginsLine_name h.1.1⟩
  | action aim count instruction =>
    cases instruction with
    | parts parts => exact htarget aim h.1 _
    | name x => exact h.elim
  | conditional aim b ifParts elseParts => exact htarget aim h.1 _
  | foreign => exact h.elim

theorem head_line {s : String} (hs : BeginsLine s) (ss : List String) (rest : List Char) :
    ∀ c ∈ (line (s :: ss) rest).head?, c ≠ '\n' ∧ c ≠ '\r' := by
  obtain ⟨c, hc, hend⟩ := hs
  obtain ⟨cs, hcs⟩ := List.head?_eq_some_iff.mp hc
  rw [line, hcs]
  simpa using hend

/-- Reads the lines after a statement. -/
theorem accepts_lines {nodes : List Node} (hnodes : ∀ node ∈ nodes, node.Writable) {r : Reader}
    {statements : List Statement} (hr : Ends r statements) :
    Accepts r (linesAfter nodes) fun all =>
      ∃ more, all = statements ++ more ∧ List.Forall₂ Statement.Spells more nodes := by
  induction nodes generalizing r statements with
  | nil => exact accepts_end hr.endOfText ⟨[], by simp, .nil⟩
  | cons node nodes ih =>
    obtain ⟨hnode, hnodes⟩ := List.forall_mem_cons.mp hnodes
    -- ends of line are read together, so the next line must not begin with one
    obtain ⟨s, ss, hlexemes, hs⟩ := node_beginsLine hnode
    have hhead := head_line hs ss (linesAfter nodes)
    rw [← hlexemes] at hhead
    refine accepts_scan (scan_newline hr.follow hhead) fun start stop => ?_
    refine ⟨_, hr.newline _ rfl, ?_⟩
    refine accepts_node (boundary_linesAfter nodes) (.inr rfl) hnode fun stage s hs hends => ?_
    intro last start
    obtain ⟨all, hread, more, rfl, hmore⟩ := ih hnodes hends last start
    exact ⟨_, hread, s :: more, by simp, .cons hs hmore⟩

/-- A program that is written is read back, statement by statement. -/
theorem parse_render {nodes : List Node} (hne : nodes ≠ [])
    (hnodes : ∀ node ∈ nodes, node.Writable) :
    ∃ statements, parse (Program.render nodes) = .ok statements ∧
      List.Forall₂ Statement.Spells statements nodes := by
  obtain ⟨node, nodes, rfl⟩ := List.exists_cons_of_ne_nil hne
  obtain ⟨hnode, hnodes⟩ := List.forall_mem_cons.mp hnodes
  have haccepts : Accepts ⟨[], .start⟩ (line node.lexemes (linesAfter nodes)) fun all =>
      List.Forall₂ Statement.Spells all (node :: nodes) := by
    refine accepts_node (boundary_linesAfter nodes) (.inl rfl) hnode fun stage s hs hends => ?_
    intro last start
    obtain ⟨all, hread, more, rfl, hmore⟩ := accepts_lines hnodes hends last start
    exact ⟨_, hread, .cons hs hmore⟩
  rw [parse, toList_render]
  exact haccepts none .origin

end Programs

end GateScript.Source
