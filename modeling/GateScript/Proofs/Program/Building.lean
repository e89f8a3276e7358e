import GateScript.Compile
import GateScript.Proofs.Program.Printing
import GateScript.Proofs.Source.Spelling

/-!
Building what was read. A statement that spells a node is built into the node, as long as the
numerals in it have no more digits than allowed.
-/
namespace GateScript.Program

open Source (Token Terminal Operand Item Branch Statement)

section Trees

/-- A token as a leaf to be built. -/
def leafOf (t : Token) : Leaf := .token t.terminal.label t.text

variable {limit : Option Nat}

/-- A tree is built into a value, whatever is declared. -/
def BuildsTo (limit : Option Nat) (t : Source.Tree Leaf) (v : Value) : Prop :=
  ∀ table, buildTree limit table t = ⟨.ok v, table⟩

theorem buildTrees_of_forall₂ {ts : List (Source.Tree Leaf)} {vs : List Value}
    (h : List.Forall₂ (BuildsTo limit) ts vs) (table : PipelineTable) :
    buildTrees limit table ts = ⟨.ok vs, table⟩ := by
  induction h with
  | nil => rfl
  | cons hbuild _ ih => simp only [buildTrees, hbuild table, ih]

theorem buildTree_node {rule : String} {ts : List (Source.Tree Leaf)} {vs : List Value} {v : Value}
    {table table' : PipelineTable} (h : List.Forall₂ (BuildsTo limit) ts vs)
    (hrule : buildRule limit table rule vs = .ok (v, table')) :
    buildTree limit table (.node rule ts) = ⟨.ok v, table'⟩ := by
  simp only [buildTree, buildTrees_of_forall₂ h, hrule]

theorem BuildsTo.node {rule : String} {ts : List (Source.Tree Leaf)} {vs : List Value} {v : Value}
    (h : List.Forall₂ (BuildsTo limit) ts vs)
    (hrule : ∀ table, buildRule limit table rule vs = .ok (v, table)) :
    BuildsTo limit (.node rule ts) v := fun table => buildTree_node h (hrule table)

theorem result_buildTrees_cons (table : PipelineTable) (t : Source.Tree Leaf)
    (ts : List (Source.Tree Leaf)) :
    (buildTrees limit table (t :: ts)).result =
      (buildTree limit table t).result.bind fun v =>
        (buildTrees limit (buildTree limit table t).table ts).result.map (v :: ·) := by
  rw [buildTrees]
  rcases buildTree limit table t with ⟨e | v, table₁⟩
  · rfl
  · dsimp only [Except.bind]
    rcases buildTrees limit table₁ ts with ⟨e | vs, table₂⟩ <;> rfl

theorem result_buildTree_node (table : PipelineTable) (rule : String)
    (ts : List (Source.Tree Leaf)) :
    (buildTree limit table (.node rule ts)).result =
      (buildTrees limit table ts).result.bind fun vs =>
        (buildRule limit (buildTrees limit table ts).table rule vs).map Prod.fst := by
  rw [buildTree]
  rcases buildTrees limit table ts with ⟨e | vs, table₁⟩
  · rfl
  · dsimp only [Except.bind]
    rcases buildRule limit table₁ rule vs with e | ⟨v, table₂⟩ <;> rfl

theorem BuildsTo.absent : BuildsTo limit .absent .nothing := fun _ => rfl

theorem buildsTo_token (limit : Option Nat) {t : Token} {terminal : Terminal} {s : String}
    (h : t.Is terminal s) (hnumber : terminal ≠ .number) :
    BuildsTo limit (.leaf (leafOf t)) (.token terminal.label s) := by
  intro table
  obtain ⟨terminal, text, start, stop⟩ := t
  obtain ⟨rfl, rfl⟩ := h
  cases terminal with
  | number => exact absurd rfl hnumber
  | _ => rfl

theorem buildsTo_number {t : Token} {n : Nat} (h : t.Is .number (toString n))
    (hn : Decimal.Fits limit n) :
    BuildsTo limit (.leaf (leafOf t)) (.number (.int n)) := by
  intro table
  obtain ⟨hterminal, htext⟩ := h
  simp only [buildTree, leafOf, hterminal, htext, Terminal.label, Leaf.build, buildNumber,
    Number.read_toString hn]

end Trees

section Pieces

variable {limit : Option Nat}

/-- Every numeral has no more digits than allowed. -/
def NumbersFit (limit : Option Nat) (numbers : List Int) : Prop :=
  ∀ n : Nat, (n : Int) ∈ numbers → Decimal.Fits limit n

theorem numbersFit_append {numbers numbers' : List Int} :
    NumbersFit limit (numbers ++ numbers') ↔
      NumbersFit limit numbers ∧ NumbersFit limit numbers' := by
  simp only [NumbersFit, List.mem_append, or_imp, forall_and]

/-- What an argument is built into. -/
def Argument.value : Argument → Value
  | .name s => .token "NAME" s
  | .number n => .number n

def Part.value : Part → Value
  | .gate call => .gate call
  | .named r => .named r

theorem buildsTo_operand {operand : Operand} {arg : Argument} (h : operand.Spells arg)
    (hfit : NumbersFit limit arg.numbers) :
    BuildsTo limit (operand.tree.map leafOf) arg.value := by
  cases h with
  | name h => exact buildsTo_token limit h (by decide)
  | @number t n h => exact buildsTo_number h (hfit n List.mem_cons_self)

theorem buildsTo_mapAll {α β : Type} {spells : α → β → Prop} (tree : α → Source.Tree Token)
    (value : β → Value) (numbers : β → List Int)
    (hbuild : ∀ a b, spells a b → NumbersFit limit (numbers b) →
      BuildsTo limit ((tree a).map leafOf) (value b))
    {as : List α} {bs : List β} (h : List.Forall₂ spells as bs)
    (hfit : NumbersFit limit (bs.flatMap numbers)) :
    List.Forall₂ (BuildsTo limit) (Source.Tree.mapAll leafOf (as.map tree)) (bs.map value) := by
  induction h with
  | nil => exact .nil
  | cons hab _ ih =>
    rw [List.flatMap_cons, numbersFit_append] at hfit
    exact .cons (hbuild _ _ hab hfit.1) (ih hfit.2)

theorem mapM_map_eq_some {α β γ : Type} {f : α → β} {g : β → Option γ} {h : α → γ}
    (hg : ∀ a, g (f a) = some (h a)) (as : List α) : (as.map f).mapM g = some (as.map h) := by
  have hcomp : g ∘ f = fun a => pure (h a) := funext hg
  rw [List.mapM_map, hcomp, List.mapM_pure]
  rfl

theorem mapM_map_eq_self {α β : Type} {f : α → β} {g : β → Option α}
    (hg : ∀ a, g (f a) = some a) (as : List α) : (as.map f).mapM g = some as := by
  rw [mapM_map_eq_some hg, List.map_id']

theorem buildGate_args (terminal name : String) (args : List Argument) :
    buildGate [.token terminal name, .list (args.map Argument.value)] =
      .ok (.gate ⟨name, args⟩) := by
  have hargs : (args.map Argument.value).mapM Argument.ofValue? = some args :=
    mapM_map_eq_self (fun arg => by cases arg <;> rfl) args
  simp only [buildGate, hargs]
  rfl

theorem buildsTo_item {item : Item} {part : Part} (h : item.Spells part)
    (hfit : NumbersFit limit part.numbers) :
    BuildsTo limit (item.tree.map leafOf) part.value := by
  cases h with
  | @gate t name operands args h hargs =>
    have hname := buildsTo_token limit h (by decide)
    have hoperands := buildsTo_mapAll Operand.tree Argument.value Argument.numbers
      (fun _ _ => buildsTo_operand) hargs hfit
    cases hargs with
    | nil => exact .node (.cons hname (.cons .absent .nil)) fun _ => rfl
    | @cons operand arg operands args _ _ =>
      have hlist : BuildsTo limit (.node "args" _) (.list ((arg :: args).map Argument.value)) :=
        .node hoperands fun _ => rfl
      refine .node (.cons hname (.cons hlist .nil)) fun table => ?_
      change (buildGate _).map _ = _
      rw [buildGate_args]
      rfl
  | named h =>
    have hname := buildsTo_token limit h (by decide)
    exact .node (.cons hname (.cons .absent .nil)) fun _ => rfl
  | @backwards t arrow name h harrow =>
    have hname := buildsTo_token limit h (by decide)
    have harrow := buildsTo_token limit harrow (by decide)
    exact .node (.cons hname (.cons harrow .nil)) fun _ => rfl

theorem inlineParts_parts (table : PipelineTable) (parts : List Part) :
    inlineParts table (parts.map .part) = .ok (parts.map .part) := by
  rw [inlineParts]
  induction parts with
  | nil => rfl
  | cons part parts ih => simp only [List.map_cons, inlineAll, inlinePart, ih]; rfl

theorem ofValue?_value (part : Part) : LoosePart.ofValue? part.value = some (.part part) := by
  cases part <;> rfl

/-- Parts that are no bare names are a pipeline as they stand. -/
theorem buildPipeline_parts (table : PipelineTable) (parts : List Part) :
    buildPipeline table (parts.map Part.value) = .ok (.pipeline parts) := by
  have hloose : (parts.map Part.value).filterMap LoosePart.ofValue? = parts.map .part := by
    rw [List.filterMap_map, ← List.filterMap_eq_map]
    exact List.filterMap_congr fun part _ => ofValue?_value part
  have hall : ((parts.map Part.value).all fun v => (LoosePart.ofValue? v).isSome) = true := by
    simp [ofValue?_value]
  have hparts : (parts.map LoosePart.part).mapM LoosePart.part? = some parts :=
    mapM_map_eq_self (by intro part; rfl) parts
  rw [buildPipeline, hloose, inlineParts_parts]
  simp only [hall, hparts]
  rfl

theorem buildsTo_pipeline {items : List Item} {parts : List Part}
    (h : List.Forall₂ Item.Spells items parts)
    (hfit : NumbersFit limit (parts.flatMap Part.numbers)) :
    BuildsTo limit ((Source.pipelineTree items).map leafOf) (.pipeline parts) := by
  have hitems := buildsTo_mapAll Item.tree Part.value Part.numbers (fun _ _ => buildsTo_item) h hfit
  refine .node hitems fun table => ?_
  change (buildPipeline _ _).map _ = _
  rw [buildPipeline_parts]
  rfl

theorem buildsTo_list {operands : List Operand} {args : List Argument}
    (h : List.Forall₂ Operand.Spells operands args)
    (hfit : NumbersFit limit (args.flatMap Argument.numbers)) :
    BuildsTo limit ((Source.listTree operands).map leafOf) (.list (args.map Argument.value)) := by
  have hoperands := buildsTo_mapAll Operand.tree Argument.value Argument.numbers
    (fun _ _ => buildsTo_operand) h hfit
  exact .node hoperands fun _ => rfl

theorem numbers_targetItems (args : List Argument) :
    (args.map Source.targetItem).flatMap TargetItem.numbers = args.flatMap Argument.numbers := by
  rw [List.flatMap_map]
  refine List.flatMap_congr fun arg _ => ?_
  rcases arg with s | n | x <;> rfl

theorem buildsTo_target {target : Source.Target} {aim : Target} (h : target.Spells aim)
    (hfit : NumbersFit limit aim.numbers) :
    ∃ v, BuildsTo limit (target.tree.map leafOf) v ∧ Target.ofValue v = .ok aim := by
  cases h with
  | all h => exact ⟨_, buildsTo_token limit h (by decide), rfl⟩
  | @name t s h hs =>
    have hall : s ≠ "*" := by
      rintro rfl
      exact absurd hs (by decide)
    refine ⟨_, buildsTo_token limit h (by decide), ?_⟩
    simp only [Target.ofValue, Value.string?, if_neg hall]
  | @index t n h => exact ⟨_, buildsTo_number h (hfit n List.mem_cons_self), rfl⟩
  | @list operands args h =>
    have hitems : (args.map Argument.value).mapM TargetItem.ofValue? =
        some (args.map Source.targetItem) :=
      mapM_map_eq_some (fun arg => by cases arg <;> rfl) args
    refine ⟨_, buildsTo_list h (numbers_targetItems args ▸ hfit), ?_⟩
    rw [Target.ofValue, hitems]

theorem buildsTo_branch {branch : Branch} {parts : List Part} (h : branch.Spells parts)
    (hfit : NumbersFit limit (parts.flatMap Part.numbers)) :
    BuildsTo limit (branch.tree.map leafOf) (.pipeline parts) := by
  cases h with
  | @item item part h =>
    have hitem := buildsTo_item h (by simpa using hfit)
    refine .node (.cons hitem .nil) fun table => ?_
    cases part <;> rfl
  | group h => exact .node (.cons (buildsTo_pipeline h hfit) .nil) fun _ => rfl

end Pieces

section Items

variable {limit : Option Nat}

theorem buildGate_ok {vs : List Value} {v : Value} (h : buildGate vs = .ok v) :
    ∃ part : Part, v = part.value := by
  unfold buildGate at h
  split at h
  · simp at h
  any_goals exact ⟨.gate _, (Except.ok.inj h).symm⟩
  · split at h
    · exact ⟨.gate _, (Except.ok.inj h).symm⟩
    · simp at h
  · simp at h

theorem buildNamed_ok {vs : List Value} {v : Value} (h : buildNamed vs = .ok v) :
    ∃ part : Part, v = part.value := by
  unfold buildNamed at h
  split at h
  any_goals
    split at h
    · exact ⟨.named _, (Except.ok.inj h).symm⟩
    · simp at h
  simp at h

/-- An item is built into a part, never into a bare name. -/
theorem buildTree_item_ok {item : Item} {table : PipelineTable} {v : Value}
    (h : (buildTree limit table (item.tree.map leafOf)).result = .ok v) :
    ∃ part : Part, v = part.value := by
  have hrule : ∀ {rule ts}, (buildTree limit table (.node rule ts)).result = .ok v →
      ∃ table' table'' vs, buildRule limit table' rule vs = .ok (v, table'') := by
    intro rule ts h
    rw [buildTree] at h
    split at h
    · simp at h
    · split at h
      · simp at h
      · rename_i vs table' _ _ w table'' hw
        exact ⟨table', table'', vs, by rw [hw, Except.ok.inj h]⟩
  have hmap : ∀ {built : Except BuildError Value} {table table' : PipelineTable},
      built.map (·, table) = .ok (v, table') → built = .ok v := by
    intro built table table' h
    cases built with
    | ok w => exact congrArg _ (Prod.mk.inj (Except.ok.inj h)).1
    | error e => simp [Except.map] at h
  cases item with
  | gate name args =>
    cases args with
    | nil =>
      obtain ⟨_, _, _, h⟩ := hrule h
      exact buildGate_ok (hmap h)
    | cons arg args =>
      obtain ⟨_, _, _, h⟩ := hrule h
      exact buildGate_ok (hmap h)
  | named name arrow =>
    obtain ⟨_, _, _, h⟩ := hrule h
    exact buildNamed_ok (hmap h)

theorem buildTrees_items_ok {items : List Item} {table table' : PipelineTable} {vs : List Value}
    (h : buildTrees limit table (Source.Tree.mapAll leafOf (items.map Item.tree)) =
      ⟨.ok vs, table'⟩) : ∃ parts : List Part, vs = parts.map Part.value := by
  induction items generalizing table vs with
  | nil =>
    cases h
    exact ⟨[], rfl⟩
  | cons item items ih =>
    rw [List.map_cons, Source.Tree.mapAll, buildTrees] at h
    split at h
    · cases h
    · rename_i v table₁ hfirst
      split at h
      · cases h
      · rename_i ws table₂ hrest
        cases h
        obtain ⟨part, rfl⟩ := buildTree_item_ok (by rw [hfirst])
        obtain ⟨parts, rfl⟩ := ih hrest
        exact ⟨part :: parts, rfl⟩

end Items

section Statements

variable {limit : Option Nat}

/-- A statement stands for what is in it. -/
theorem buildTree_single {t : Source.Tree Leaf} {v : Value} {table table' : PipelineTable}
    (h : buildTree limit table t = ⟨.ok v, table'⟩) :
    buildTree limit table (.node "statement" [t]) = ⟨.ok v, table'⟩ := by
  simp only [buildTree, buildTrees, h]
  rfl

theorem buildTree_declaration {t : Source.Tree Leaf} {v : Value} {table table' : PipelineTable}
    (h : buildTree limit table t = ⟨.ok v, table'⟩) :
    buildTree limit table (.node "statement" [.node "declaration" [t]]) = ⟨.ok v, table'⟩ := by
  refine buildTree_single ?_
  simp only [buildTree, buildTrees, h]
  rfl

/-- The register of a unit that is declared without one. -/
def UnitKind.register : UnitKind → String
  | .qubit => "q"
  | .bit => "c"

theorem buildIndex_natural (kind : UnitKind) (name : Value) (n : Nat) :
    buildIndex kind name (.number (.int n)) = .ok n := by
  rw [buildIndex, if_neg (by omega), Int.toNat_natCast]

theorem buildsTo_unit (kind : UnitKind) {name index : Token} {register : Option Token}
    {x r : String} {n : Nat} (hname : name.Is .name x)
    (hregister : Source.SpellsRegister kind.register register r)
    (hindex : index.Is .number (toString n)) (hn : Decimal.Fits limit n) :
    BuildsTo limit
      (.node kind.form.rule [.leaf (leafOf name), (Source.Tree.ofOption register).map leafOf,
        .leaf (leafOf index)])
      (.node (kind.node x (some r) n)) := by
  have hrule : ∀ table values, buildRule limit table kind.form.rule values =
      (buildUnit kind values).map (·, table) := by
    intro table values
    cases kind <;> rfl
  have hname := buildsTo_token limit hname (by decide)
  have hindex := buildsTo_number hindex hn
  cases hregister with
  | none =>
    refine .node (.cons hname (.cons .absent (.cons hindex .nil))) fun table => ?_
    simp only [hrule, buildUnit, buildIndex_natural]
    cases kind <;> rfl
  | some hregister =>
    have hregister := buildsTo_token limit hregister (by decide)
    refine .node (.cons hname (.cons hregister (.cons hindex .nil))) fun table => ?_
    simp only [hrule, buildUnit, buildIndex_natural]
    cases kind <;> rfl

theorem buildsTo_names (limit : Option Nat) {name : Token} {x : String} {operands : List Operand}
    {items : List String} (hname : name.Is .name x)
    (h : List.Forall₂ Operand.Spells operands (items.map .name)) :
    BuildsTo limit
      (.node "list_declaration" [.leaf (leafOf name), (Source.listTree operands).map leafOf])
      (.node (.list x items)) := by
  have hname := buildsTo_token limit hname (by decide)
  have hfit : NumbersFit limit ((items.map Argument.name).flatMap Argument.numbers) := by
    simp [NumbersFit, Argument.numbers]
  have hitems : ((items.map Argument.name).map Argument.value).mapM Value.string? =
      some items := by
    rw [List.map_map]
    exact mapM_map_eq_self (by intro item; rfl) items
  refine .node (.cons hname (.cons (buildsTo_list h hfit) .nil)) fun table => ?_
  change (buildList _).map _ = _
  simp only [buildList, hitems, Value.string?]
  rfl

theorem buildsTo_action {target : Source.Target} {aim : Target} {count : Option Token}
    {times : Option Int} {items : List Item} {parts : List Part} (htarget : target.Spells aim)
    (hcount : Source.SpellsCount count times) (h : List.Forall₂ Item.Spells items parts)
    (hfit : NumbersFit limit (Node.action aim times (.parts parts)).numbers) :
    BuildsTo limit
      (.node "action" [target.tree.map leafOf, (Source.Tree.ofOption count).map leafOf,
        (Source.pipelineTree items).map leafOf])
      (.node (.action aim times (.parts parts))) := by
  rw [Node.numbers, numbersFit_append, numbersFit_append] at hfit
  obtain ⟨⟨htargetFit, hcountFit⟩, hpartsFit⟩ := hfit
  obtain ⟨v, htarget, hv⟩ := buildsTo_target htarget htargetFit
  have hparts := buildsTo_pipeline h hpartsFit
  cases hcount with
  | none =>
    refine .node (.cons htarget (.cons .absent (.cons hparts .nil))) fun table => ?_
    change (buildAction _).map _ = _
    simp only [buildAction, hv, countOfValue]
    rfl
  | @some t n hcount =>
    have hcount := buildsTo_number hcount (hcountFit n List.mem_cons_self)
    refine .node (.cons htarget (.cons hcount (.cons hparts .nil))) fun table => ?_
    change (buildAction _).map _ = _
    simp only [buildAction, hv, countOfValue]
    rfl

theorem buildsTo_conditional {target : Source.Target} {aim : Target} {branch : Branch}
    {flag : Token} {b : String} {otherwise : Option Branch} {ifParts : List Part}
    {elseParts : Option (List Part)} (htarget : target.Spells aim) (hbranch : branch.Spells ifParts)
    (hflag : flag.Is .name b) (helse : Source.SpellsElse otherwise elseParts)
    (hfit : NumbersFit limit (Node.conditional aim b ifParts elseParts).numbers) :
    BuildsTo limit
      (.node "conditional_action" ([target.tree.map leafOf, branch.tree.map leafOf,
        .leaf (leafOf flag)] ++ otherwise.toList.map fun branch => branch.tree.map leafOf))
      (.node (.conditional aim b ifParts elseParts)) := by
  rw [Node.numbers, numbersFit_append, numbersFit_append] at hfit
  obtain ⟨⟨htargetFit, hifFit⟩, helseFit⟩ := hfit
  obtain ⟨v, htarget, hv⟩ := buildsTo_target htarget htargetFit
  have hbranch := buildsTo_branch hbranch hifFit
  have hflag := buildsTo_token limit hflag (by decide)
  cases helse with
  | none =>
    refine .node (.cons htarget (.cons hbranch (.cons hflag .nil))) fun table => ?_
    change (buildConditional _).map _ = _
    simp only [buildConditional, hv, branchOfValue?, List.headD]
    rfl
  | @some other parts helse =>
    have hother := buildsTo_branch helse helseFit
    refine .node (.cons htarget (.cons hbranch (.cons hflag (.cons hother .nil)))) fun table => ?_
    change (buildConditional _).map _ = _
    simp only [buildConditional, hv, branchOfValue?, List.headD]
    rfl

theorem buildTree_statement {s : Statement} {node : Node} (h : s.Spells node)
    (hfit : NumbersFit limit node.numbers) (table : PipelineTable) :
    ∃ table', buildTree limit table (s.tree.map leafOf) = ⟨.ok (.node node), table'⟩ := by
  cases h with
  | @qubit name index register x r n hname hregister hindex =>
    have hunit := buildsTo_unit .qubit hname hregister hindex (hfit n List.mem_cons_self)
    exact ⟨table, buildTree_declaration (hunit table)⟩
  | @bit name index register x r n hname hregister hindex =>
    have hunit := buildsTo_unit .bit hname hregister hindex (hfit n List.mem_cons_self)
    exact ⟨table, buildTree_declaration (hunit table)⟩
  | list hname h =>
    have hlist := buildsTo_names limit hname h
    exact ⟨table, buildTree_declaration (hlist table)⟩
  | @instruction name x items parts hname h =>
    have hname := buildsTo_token limit hname (by decide)
    have hparts := buildsTo_pipeline h hfit
    -- the only statement that changes the table, which what is spelled never looks into
    refine ⟨table ++ [(x, parts.map .part)], buildTree_declaration ?_⟩
    exact buildTree_node (.cons hname (.cons hparts .nil)) rfl
  | action htarget hcount h =>
    exact ⟨table, buildTree_single (buildsTo_action htarget hcount h hfit table)⟩
  | @conditional target aim branch flag b otherwise ifParts elseParts htarget hbranch hflag helse =>
    have hbuild := buildsTo_conditional htarget hbranch hflag helse hfit
    cases otherwise with
    | none => exact ⟨table, buildTree_single (hbuild table)⟩
    | some other => exact ⟨table, buildTree_single (hbuild table)⟩

theorem buildTrees_statements {statements : List Statement} {nodes : List Node}
    (h : List.Forall₂ Statement.Spells statements nodes)
    (hfit : NumbersFit limit (nodes.flatMap Node.numbers)) (table : PipelineTable) :
    ∃ table', buildTrees limit table (Source.Tree.mapAll leafOf (statements.map Statement.tree)) =
      ⟨.ok (nodes.map .node), table'⟩ := by
  induction h generalizing table with
  | nil => exact ⟨table, rfl⟩
  | cons hstatement _ ih =>
    rw [List.flatMap_cons, numbersFit_append] at hfit
    obtain ⟨table', hfirst⟩ := buildTree_statement hstatement hfit.1 table
    obtain ⟨table'', hrest⟩ := ih hfit.2 table'
    refine ⟨table'', ?_⟩
    simp only [List.map_cons, Source.Tree.mapAll, buildTrees, hfirst, hrest]

theorem nodesOf_def (limit : Option Nat) (statements : List Statement) :
    nodesOf limit statements =
      match (buildTree limit [] ((Source.programTree statements).map leafOf)).result with
      | .error e => .error e
      | .ok (.list values) => .ok (values.filterMap Value.node?)
      | .ok _ => .ok [] := rfl

/-- The trees of statements, with their tokens as leaves to be built. -/
def treesOf (statements : List Statement) : List (Source.Tree Leaf) :=
  Source.Tree.mapAll leafOf (statements.map Statement.tree)

theorem nodesOf_eq_ok_iff_exists {statements : List Statement} {nodes : List Node} :
    nodesOf limit statements = .ok nodes ↔
      ∃ vs table, buildTrees limit [] (treesOf statements) = ⟨.ok vs, table⟩ ∧
        vs.filterMap Value.node? = nodes := by
  have hprogram : (buildTree limit [] ((Source.programTree statements).map leafOf)).result =
      (buildTrees limit [] (treesOf statements)).result.map .list := by
    rw [Source.programTree, Source.Tree.map, result_buildTree_node]
    rfl
  rw [nodesOf_def, hprogram]
  rcases buildTrees limit [] (treesOf statements) with ⟨e | vs, table⟩ <;> simp [Except.map]

/-- What spells nodes is built into them. -/
theorem nodesOf_eq {statements : List Statement} {nodes : List Node}
    (h : List.Forall₂ Statement.Spells statements nodes)
    (hfit : NumbersFit limit (nodes.flatMap Node.numbers)) :
    nodesOf limit statements = .ok nodes := by
  obtain ⟨table, htrees⟩ := buildTrees_statements h hfit []
  have hnodes : (nodes.map Value.node).filterMap Value.node? = nodes := by
    rw [List.filterMap_map]
    exact List.filterMap_some
  exact nodesOf_eq_ok_iff_exists.mpr ⟨_, table, htrees, hnodes⟩

theorem nodesOfText_eq {text : String} {statements : List Statement} {nodes : List Node}
    (h : Source.parse text = .ok statements) :
    nodesOfText text = .ok nodes ↔ nodesOf Decimal.digitLimit statements = .ok nodes := by
  simp only [nodesOfText, h]
  cases nodesOf Decimal.digitLimit statements <;> simp

theorem nodesOfText_eq_ok_iff {text : String} {nodes : List Node} :
    nodesOfText text = .ok nodes ↔
      ∃ statements, Source.parse text = .ok statements ∧
        nodesOf Decimal.digitLimit statements = .ok nodes := by
  cases hparse : Source.parse text with
  | error e => simp [nodesOfText, hparse]
  | ok statements => simp [nodesOfText_eq hparse]

end Statements

end GateScript.Program
