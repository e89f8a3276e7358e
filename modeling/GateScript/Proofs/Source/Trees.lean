import GateScript.Proofs.Source.Moving
import GateScript.Source.Tree

/-! The trees of statements: what they are made of, and what becomes of them with other tokens. -/
namespace GateScript.Source

namespace Tree

variable {α β γ : Type}

theorem mapAll_eq (f : α → β) (ts : List (Tree α)) : mapAll f ts = ts.map (map f) := by
  induction ts with
  | nil => rfl
  | cons t ts ih => rw [mapAll, ih, List.map_cons]

mutual

theorem map_map (f : α → β) (g : β → γ) : ∀ t : Tree α, (t.map f).map g = t.map (g ∘ f)
  | node rule children => by rw [map, map, map, mapAll_mapAll f g children]
  | leaf value => rfl
  | absent => rfl

theorem mapAll_mapAll (f : α → β) (g : β → γ) :
    ∀ ts : List (Tree α), mapAll g (mapAll f ts) = mapAll (g ∘ f) ts
  | [] => rfl
  | t :: ts => by rw [mapAll, mapAll, mapAll, map_map f g t, mapAll_mapAll f g ts]

end

theorem ofOption_map (f : α → β) (a : Option α) : ofOption (a.map f) = (ofOption a).map f := by
  cases a <;> rfl

end Tree

section Induction

variable {α : Type} {f : Token → α} {P : Tree α → Prop} (habsent : P .absent)
  (hleaf : ∀ t, P (.leaf (f t)))
  (hnode : ∀ rule ts, rule ≠ "gate_pip" → (∀ t ∈ ts, P t) → P (.node rule ts))
  (hpipeline : ∀ items : List Item, (∀ item ∈ items, P (item.tree.map f)) →
    P ((pipelineTree items).map f))

theorem forall_mem_mapAll {β : Type} {tree : β → Tree Token} {bs : List β}
    (h : ∀ b ∈ bs, P ((tree b).map f)) : ∀ t ∈ Tree.mapAll f (bs.map tree), P t := by
  rw [Tree.mapAll_eq, List.map_map]
  intro t ht
  obtain ⟨b, hb, rfl⟩ := List.mem_map.mp ht
  exact h b hb

include habsent hleaf in
theorem ofOption_induction (t : Option Token) : P ((Tree.ofOption t).map f) := by
  cases t with
  | none => exact habsent
  | some t => exact hleaf t

include hleaf hnode

theorem Operand.tree_induction (operand : Operand) : P (operand.tree.map f) := by
  cases operand with
  | name t => exact hleaf t
  | number t => exact hleaf t
  | qubit t => exact hnode _ _ (by decide) (List.forall_mem_singleton.mpr (hleaf t))

theorem listTree_induction (operands : List Operand) : P ((listTree operands).map f) :=
  hnode _ _ (by decide) (forall_mem_mapAll fun operand _ => operand.tree_induction hleaf hnode)

theorem Target.tree_induction (target : Target) : P (target.tree.map f) := by
  cases target with
  | operand operand => exact operand.tree_induction hleaf hnode
  | list operands => exact listTree_induction hleaf hnode operands
  | all t => exact hleaf t

include habsent

theorem Item.tree_induction (item : Item) : P (item.tree.map f) := by
  cases item with
  | gate name args =>
    have hname := hleaf name
    cases args with
    | nil => exact hnode _ _ (by decide) (by simpa [Tree.mapAll] using ⟨hname, habsent⟩)
    | cons arg args =>
      have hargs : P ((Tree.node "args" ((arg :: args).map Operand.tree)).map f) :=
        hnode _ _ (by decide) (forall_mem_mapAll fun operand _ => operand.tree_induction hleaf hnode)
      exact hnode _ _ (by decide) (by simpa [Tree.mapAll] using ⟨hname, hargs⟩)
  | named name arrow =>
    have hname := hleaf name
    have harrow := ofOption_induction habsent hleaf arrow
    exact hnode _ _ (by decide) (by simpa [Tree.mapAll] using ⟨hname, harrow⟩)

include hpipeline

theorem pipelineTree_induction (items : List Item) : P ((pipelineTree items).map f) :=
  hpipeline items fun item _ => item.tree_induction habsent hleaf hnode

theorem Branch.tree_induction (branch : Branch) : P (branch.tree.map f) := by
  have hitem := Item.tree_induction habsent hleaf hnode
  have hpipe := pipelineTree_induction habsent hleaf hnode hpipeline
  cases branch with
  | item item => exact hnode _ _ (by decide) (List.forall_mem_singleton.mpr (hitem item))
  | group items => exact hnode _ _ (by decide) (List.forall_mem_singleton.mpr (hpipe items))

/-- The tree of a statement is made of leaves, of pipelines and of nodes of other rules. -/
theorem Statement.tree_induction (s : Statement) : P (s.tree.map f) := by
  have hoption := ofOption_induction habsent hleaf
  have htarget := Target.tree_induction hleaf hnode
  have hbranch := Branch.tree_induction habsent hleaf hnode hpipeline
  have hpipe := pipelineTree_induction habsent hleaf hnode hpipeline
  have hlist := listTree_induction hleaf hnode
  have hstatement : ∀ {t : Tree α}, P t → P (.node "statement" [t]) := fun ht =>
    hnode _ _ (by decide) (List.forall_mem_singleton.mpr ht)
  have hdeclaration : ∀ {t : Tree α}, P t → P (.node "statement" [.node "declaration" [t]]) :=
    fun ht => hstatement (hnode _ _ (by decide) (List.forall_mem_singleton.mpr ht))
  cases s with
  | qubit name register index =>
    refine hdeclaration (hnode _ _ (by decide) ?_)
    simpa [Tree.mapAll] using ⟨hleaf name, hoption register, hleaf index⟩
  | plainQubit name index =>
    refine hdeclaration (hnode _ _ (by decide) ?_)
    simpa [Tree.mapAll] using ⟨hleaf name, hleaf index⟩
  | bit name register index =>
    refine hdeclaration (hnode _ _ (by decide) ?_)
    simpa [Tree.mapAll] using ⟨hleaf name, hoption register, hleaf index⟩
  | list name items =>
    refine hdeclaration (hnode _ _ (by decide) ?_)
    simpa [Tree.mapAll] using ⟨hleaf name, hlist items⟩
  | instruction name items =>
    refine hdeclaration (hnode _ _ (by decide) ?_)
    simpa [Tree.mapAll] using ⟨hleaf name, hpipe items⟩
  | action target count items =>
    refine hstatement (hnode _ _ (by decide) ?_)
    simpa [Tree.mapAll] using ⟨htarget target, hoption count, hpipe items⟩
  | conditional target branch flag otherwise =>
    cases otherwise with
    | none =>
      refine hstatement (hnode _ _ (by decide) ?_)
      simpa [Tree.mapAll] using ⟨htarget target, hbranch branch, hleaf flag⟩
    | some other =>
      refine hstatement (hnode _ _ (by decide) ?_)
      simpa [Tree.mapAll] using ⟨htarget target, hbranch branch, hleaf flag, hbranch other⟩

end Induction

section Moved

variable (f : Token → Token)

theorem map_tree_map {β : Type} {tree : β → Tree Token} {change : β → β}
    (h : ∀ b, tree (change b) = (tree b).map f) (bs : List β) :
    (bs.map change).map tree = Tree.mapAll f (bs.map tree) := by
  rw [Tree.mapAll_eq, List.map_map, List.map_map]
  exact List.map_congr_left fun b _ => h b

theorem Operand.tree_map (operand : Operand) : (operand.map f).tree = operand.tree.map f := by
  cases operand <;> rfl

theorem Item.tree_map (item : Item) : (item.map f).tree = item.tree.map f := by
  cases item with
  | gate name args =>
    cases args with
    | nil => rfl
    | cons arg args =>
      have hargs := map_tree_map f (Operand.tree_map f) (arg :: args)
      exact congrArg (fun ts => Tree.node "gate_call" [.leaf (f name), .node "args" ts]) hargs
  | named name arrow =>
    have harrow := Tree.ofOption_map f arrow
    exact congrArg (fun t => Tree.node "gate_pipe_by_name" [.leaf (f name), t]) harrow

theorem pipelineTree_map (items : List Item) :
    pipelineTree (items.map (Item.map f)) = (pipelineTree items).map f :=
  congrArg (Tree.node "gate_pip") (map_tree_map f (Item.tree_map f) items)

theorem listTree_map (operands : List Operand) :
    listTree (operands.map (Operand.map f)) = (listTree operands).map f :=
  congrArg (Tree.node "list") (map_tree_map f (Operand.tree_map f) operands)

theorem Target.tree_map (target : Target) : (target.map f).tree = target.tree.map f := by
  cases target with
  | operand operand => exact operand.tree_map f
  | list operands => exact listTree_map f operands
  | all t => rfl

theorem Branch.tree_map (branch : Branch) : (branch.map f).tree = branch.tree.map f := by
  cases branch with
  | item item => exact congrArg (fun t => Tree.node "cond_pip" [t]) (item.tree_map f)
  | group items => exact congrArg (fun t => Tree.node "cond_pip" [t]) (pipelineTree_map f items)

theorem Statement.tree_map (s : Statement) : (s.map f).tree = s.tree.map f := by
  cases s with
  | conditional target branch flag otherwise =>
    cases otherwise <;>
      simp [Statement.map, Statement.tree, Tree.map, Tree.mapAll, Target.tree_map, Branch.tree_map]
  | _ =>
    simp [Statement.map, Statement.tree, Tree.map, Tree.mapAll, Tree.ofOption_map, Target.tree_map,
      listTree_map, pipelineTree_map]

end Moved

end GateScript.Source
