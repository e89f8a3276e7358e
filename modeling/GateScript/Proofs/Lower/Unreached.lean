import GateScript.Proofs.Lower.Inlining
import GateScript.Proofs.Lower.Likeness

/-!
Declarations that nothing reaches.

A declaration matters only to the nodes that come to its name before the name is declared again. If
there are none, the declaration can be left out: the circuits are recorded as before, and the
program ends as before. Nodes are compared one by one: while a node is run the scope stays as it
is, and two scopes that differ in names the node does not come to are as good as equal.
-/
namespace GateScript

namespace Program

def Target.Mentions (x : String) : Target → Prop
  | .name y => y = x
  | .list items => TargetItem.name x ∈ items
  | _ => False

def Part.Mentions (x : String) : Part → Prop
  | .gate call => Argument.name x ∈ call.args
  | .named r => r.name = x

/-- What a node declares. -/
def Node.declared? : Node → Option (String × Lower.Entity)
  | .qubit name q => some (name, .qubit q)
  | .bit name b => some (name, .bit b)
  | .list name items => some (name, .list items)
  | .instruction name parts => some (name, .pipeline parts)
  | _ => none

end Program

namespace Lower

open Program Outcome Config

/-- The scope after a node. -/
def Scope.after (scope : Scope) (node : Node) : Scope :=
  match node.declared? with
  | some (name, entity) => scope.declare name entity
  | none => scope

/-- The scope after some nodes, which depends on their declarations alone. -/
def Scope.afterAll (scope : Scope) (nodes : List Node) : Scope := nodes.foldl Scope.after scope

/-- A node that is run mentions a name: as a target, as the condition, as the instruction, or in one
of the parts that it reaches. -/
def Mentions (scope : Scope) (x : String) : Node → Prop
  | .action target _ instruction =>
    target.Mentions x ∨ instruction = .name x ∨ ∃ parts part,
      resolveInstruction scope instruction = .ok parts ∧ PartOf scope parts part ∧ part.Mentions x
  | .conditional target name ifParts elseParts =>
    target.Mentions x ∨ name = x ∨
      ∃ part, PartOf scope (ifParts ++ elseParts.getD []) part ∧ part.Mentions x
  | _ => False

/-- No node mentions a name until it is declared again. -/
def Unmentioned (x : String) : Scope → List Node → Prop
  | _, [] => True
  | scope, node :: nodes =>
    ¬Mentions scope x node ∧
      ((∀ e, node.declared? ≠ some (x, e)) → Unmentioned x (scope.after node) nodes)

section Sequences

/-- Puts off more work until all else is done. -/
def Config.followedBy : Config → List Task → Config
  | working p rest, todo => working p (rest ++ todo)
  | boxing p box body targets rest, todo => boxing p box body targets (rest ++ todo)
  | stopped e p, _ => stopped e p

/-- Circuits that the machine shows at some time. -/
def Shows (c : Config) (circuits : List Circuit) : Prop := ∃ n, (step^[n] c).circuits = circuits

variable {c : Config} {p p' : Progress} {todo : List Task} {circuits : List Circuit}

@[simp] theorem circuits_followedBy (c : Config) (todo : List Task) :
    (c.followedBy todo).circuits = c.circuits := by cases c <;> rfl

theorem step_followedBy (h : ∀ p, c ≠ working p []) (todo : List Task) :
    step (c.followedBy todo) = (step c).followedBy todo := by
  cases c with
  | working p rest =>
    cases rest with
    | nil => exact absurd rfl (h p)
    | cons task rest =>
      simp only [followedBy, List.cons_append, step]
      cases task.move p <;> simp
  | boxing p box body targets rest =>
    cases body with
    | nil => rfl
    | cons part body =>
      simp only [followedBy, step, stepBox]
      cases runBoxPart part ⟨box, []⟩ <;> rfl
  | stopped e p => rfl

theorem iterate_done (n : Nat) (p : Progress) : step^[n] (working p []) = working p [] :=
  Function.iterate_fixed rfl n

theorem Shows.step (h : Shows (step c) circuits) : Shows c circuits := by
  obtain ⟨n, hn⟩ := h
  exact ⟨n + 1, hn⟩

theorem Reaches.shows {c' : Config} (h : Reaches c c') (hshow : Shows c' circuits) :
    Shows c circuits := by
  obtain ⟨n, rfl⟩ := h
  obtain ⟨m, hm⟩ := hshow
  exact ⟨m + n, by rw [Function.iterate_add_apply, hm]⟩

theorem Reaches.followedBy (h : Reaches c (working p [])) (todo : List Task) :
    Reaches (c.followedBy todo) (working p todo) := by
  obtain ⟨n, hn⟩ := h
  induction n generalizing c with
  | zero =>
    obtain rfl : c = working p [] := hn
    exact .refl _
  | succ n ih =>
    by_cases hdone : ∃ q, c = working q []
    · obtain ⟨q, rfl⟩ := hdone
      rw [iterate_done] at hn
      cases hn
      exact .refl _
    · rw [Function.iterate_succ_apply] at hn
      have hrest := ih hn
      rw [← step_followedBy (not_exists.mp hdone)] at hrest
      exact Reaches.trans ⟨1, rfl⟩ hrest

/-- Work that is put off shows once all else is done. -/
theorem shows_followedBy :
    Shows (c.followedBy todo) circuits ↔
      Shows c circuits ∨ ∃ p, Reaches c (working p []) ∧ Shows (working p todo) circuits := by
  constructor
  · rintro ⟨n, hn⟩
    induction n generalizing c with
    | zero => exact .inl ⟨0, by rw [← hn]; exact (circuits_followedBy c todo).symm⟩
    | succ n ih =>
      by_cases hdone : ∃ q, c = working q []
      · obtain ⟨q, rfl⟩ := hdone
        exact .inr ⟨q, .refl _, n + 1, hn⟩
      · rw [Function.iterate_succ_apply, step_followedBy (not_exists.mp hdone)] at hn
        rcases ih hn with hshow | ⟨p, hreach, hshow⟩
        · exact .inl hshow.step
        · exact .inr ⟨p, Reaches.trans ⟨1, rfl⟩ hreach, hshow⟩
  · rintro (⟨n, hn⟩ | ⟨p, hreach, hshow⟩)
    · induction n generalizing c with
      | zero => exact ⟨0, (circuits_followedBy c todo).trans hn⟩
      | succ n ih =>
        by_cases hdone : ∃ q, c = working q []
        · obtain ⟨q, rfl⟩ := hdone
          rw [iterate_done] at hn
          exact ⟨0, hn⟩
        · rw [Function.iterate_succ_apply] at hn
          have hrest := ih hn
          rw [← step_followedBy (not_exists.mp hdone)] at hrest
          exact hrest.step
    · exact (hreach.followedBy todo).shows hshow

end Sequences

section Nodes

variable {node : Node} {nodes nodes' : List Node} {p p' : Progress}

theorem runNode_declaration {x : String} {e : Entity} (h : node.declared? = some (x, e)) :
    runNode node p = done ⟨p.scope.declare x e, p.circuits⟩ := by
  cases node <;> cases h <;> rfl

theorem move_declaration {x : String} {e : Entity} (h : node.declared? = some (x, e)) :
    (Task.node node).move p = .opens ⟨p.scope.declare x e, p.circuits⟩ [] := by
  cases node <;> cases h <;> rfl

/-- A node that declares nothing leaves the scope as it is. -/
theorem runNode_scope (h : node.declared? = none) (p : Progress) :
    ∃ o : Outcome Circuits, runNode node p = o.map (Progress.mk p.scope) := by
  cases node with
  | action target count instruction => exact ⟨_, rfl⟩
  | conditional target name ifParts elseParts => exact ⟨_, rfl⟩
  | foreign => exact ⟨done p.circuits, rfl⟩
  | _ => cases h

theorem reaches_node_iff {q : Progress} :
    Reaches (working p [.node node]) (working q []) ↔ runNode node p = done q := by
  constructor
  · rintro ⟨n, hn⟩
    have hfinish := finish_iterate n (working p [.node node])
    rw [hn] at hfinish
    simpa [Config.finish, Task.run] using hfinish.symm
  · intro h
    have hland := lands_node node p []
    rw [Task.run, h] at hland
    exact hland

/-- Two programs show the same circuits and come to the same, from here on. -/
structure SameRun (nodes nodes' : List Node) (p p' : Progress) : Prop where
  outcome : (runNodes nodes' p').map Progress.circuits = (runNodes nodes p).map Progress.circuits
  shown : ∀ circuits, Shows (working p' (nodes'.map .node)) circuits ↔
    Shows (working p (nodes.map .node)) circuits

theorem SameRun.symm (h : SameRun nodes nodes' p p') : SameRun nodes' nodes p' p :=
  ⟨h.outcome.symm, fun circuits => (h.shown circuits).symm⟩

/-- A declaration shows nothing. -/
theorem SameRun.declaration {x : String} {e : Entity} (hnode : node.declared? = some (x, e))
    (h : SameRun nodes nodes' ⟨p.scope.declare x e, p.circuits⟩ p') :
    SameRun (node :: nodes) nodes' p p' := by
  have hstep : step (working p ((node :: nodes).map .node)) =
      working ⟨p.scope.declare x e, p.circuits⟩ (nodes.map .node) := by
    rw [List.map_cons, step, move_declaration hnode]
    rfl
  constructor
  · rw [h.outcome, runNodes, runNodes, runEach_cons, runNode_declaration hnode, andThen_done]
  · intro circuits
    rw [h.shown]
    constructor
    · intro hshow
      rw [← hstep] at hshow
      exact hshow.step
    · rintro ⟨n, hn⟩
      cases n with
      | zero => exact ⟨0, hn⟩
      | succ n =>
        rw [Function.iterate_succ_apply, hstep] at hn
        exact ⟨n, hn⟩

/-- A node that declares nothing and does the same in both programs. -/
theorem SameRun.cons (hnode : node.declared? = none)
    (hshown : ∀ circuits, Shows (working p' [.node node]) circuits ↔
      Shows (working p [.node node]) circuits)
    (hrun : (runNode node p').map Progress.circuits = (runNode node p).map Progress.circuits)
    (h : ∀ cs, SameRun nodes nodes' ⟨p.scope, cs⟩ ⟨p'.scope, cs⟩) :
    SameRun (node :: nodes) (node :: nodes') p p' := by
  obtain ⟨o, ho⟩ := runNode_scope hnode p
  obtain ⟨o', ho'⟩ := runNode_scope hnode p'
  have hmap : ∀ scope (o : Outcome Circuits),
      (o.map (Progress.mk scope)).map Progress.circuits = o := by
    intro scope o
    cases o <;> rfl
  rw [ho, ho', hmap, hmap] at hrun
  subst hrun
  constructor
  · rw [runNodes, runNodes, runEach_cons, runEach_cons, ho, ho']
    cases o' with
    | done cs => exact (h cs).outcome
    | failed e cs => rfl
    | endless => rfl
  · intro circuits
    have hsplit : ∀ (q : Progress) (rest : List Node), working q ((node :: rest).map .node) =
        (working q [.node node]).followedBy (rest.map .node) := fun _ _ => rfl
    rw [hsplit, hsplit, shows_followedBy, shows_followedBy, hshown]
    simp only [reaches_node_iff, ho, ho']
    cases o' with
    | done cs => simp [(h cs).shown]
    | failed e cs => simp
    | endless => simp

/-- What both programs begin with can be left aside. -/
theorem SameRun.append_left (before : List Node)
    (h : ∀ cs, SameRun nodes nodes' ⟨p.scope.afterAll before, cs⟩ ⟨p.scope.afterAll before, cs⟩) :
    SameRun (before ++ nodes) (before ++ nodes') p p := by
  induction before generalizing p with
  | nil => exact h p.circuits
  | cons node before ih =>
    cases hnode : node.declared? with
    | none =>
      refine .cons hnode (fun _ => Iff.rfl) rfl fun cs => ih fun cs' => ?_
      simpa [Scope.afterAll, Scope.after, hnode] using h cs'
    | some entry =>
      obtain ⟨x, e⟩ := entry
      refine (SameRun.declaration hnode (SameRun.declaration hnode (ih fun cs => ?_)).symm).symm
      simpa [Scope.afterAll, Scope.after, hnode] using h cs

end Nodes

section Hiding

variable (hidden : String → Prop) (scope scope' : Scope)

/-- A program run in two scopes that may differ in names it does not come to. -/
def unaware : Likeness where
  rename := id
  part x x' := x' = x ∧ ∀ part, PartOf scope [x] part → ∀ name, hidden name → ¬part.Mentions name
  node n n' := n' = n ∧ n.declared? = none ∧ ∀ name, hidden name → ¬Mentions scope name n
  scope s s' := s = scope ∧ s' = scope'

variable {hidden scope scope'}

theorem unaware_inBox (parts : List Part) :
    List.Forall₂ (unaware hidden scope scope').InBox parts parts := by
  rw [List.forall₂_same]
  intro part _ cs
  exact (mapError_rename_id _).symm

/-- Parts of a pipeline that comes to no hidden name. -/
theorem forall₂_unaware {parts : List Part}
    (h : ∀ part, PartOf scope parts part → ∀ name, hidden name → ¬part.Mentions name) :
    List.Forall₂ (unaware hidden scope scope').part parts parts := by
  rw [List.forall₂_same]
  intro x hx
  refine ⟨rfl, fun part hpart => h part (hpart.mono ?_)⟩
  exact List.cons_subset.mpr ⟨hx, List.nil_subset _⟩

variable (hagree : ∀ y, ¬hidden y → scope'.find? y = scope.find? y)

include hagree

theorem found_unaware {A : List Part → List Part → Prop} {y : String} (hy : ¬hidden y)
    (hA : ∀ parts, scope.find? y = some (.pipeline parts) → A parts parts) :
    Found id A scope scope' y y := by
  refine ⟨rfl, ?_⟩
  rw [hagree y hy]
  cases hfound : scope.find? y with
  | none => exact .none
  | some e =>
    apply Option.Rel.some
    cases e with
    | qubit q => exact .qubit q
    | bit b => exact .bit b
    | list names => exact .list names names
    | pipeline parts => exact .pipeline (hA parts hfound)

theorem resolveTarget_unaware {target : Target} (h : ∀ x, hidden x → ¬target.Mentions x)
    (c : Circuit) :
    Checks id (List.Forall₂ Entity.SameUnit) (resolveTarget scope c target)
      (resolveTarget scope' c target) := by
  apply resolveItems_alike
  rw [List.forall₂_same]
  intro item hitem
  by_cases hname : ∃ y, item = .name y
  · obtain ⟨y, rfl⟩ := hname
    have hy : ¬hidden y := by
      intro hy
      apply h y hy
      cases target with
      | all => simp [targetItems] at hitem
      | name z =>
        have hz : y = z := by simpa [targetItems] using hitem
        exact hz.symm
      | index n => simp [targetItems] at hitem
      | list items => exact hitem
    exact resolveItem_name (found_unaware hagree hy fun _ _ => trivial)
  · exact resolveItem_other (not_exists.mp hname)

variable {p p' : Progress} (hp : (unaware hidden scope scope').Progresses p p')

include hp

theorem movePart_unaware (origin : Origin) (targets : Targets) {x : Part}
    (h : ∀ part, PartOf scope [x] part → ∀ name, hidden name → ¬part.Mentions name) :
    (unaware hidden scope scope').Moves ((Task.part origin targets x).move p)
      ((Task.part origin targets x).move p') := by
  obtain ⟨⟨rfl, rfl⟩, hcircuits⟩ := hp
  have hp : (unaware hidden p.scope p'.scope).Progresses p p' := ⟨⟨rfl, rfl⟩, hcircuits⟩
  have hself : ∀ name, hidden name → ¬x.Mentions name := h x (.direct List.mem_cons_self)
  cases x with
  | gate call =>
    refine Likeness.moveCall_alike hp rfl ?_
    rw [List.forall₂_same]
    intro arg harg
    cases arg with
    | number n => exact .number n
    | name y =>
      have hy : ¬hidden y := fun hy => hself y hy harg
      exact .name (found_unaware hagree hy fun parts _ => unaware_inBox parts)
  | named r =>
    have hr : ¬hidden r.name := fun hr => hself r.name hr rfl
    refine Likeness.moveNamed_alike hp origin targets rfl ?_
    refine found_unaware hagree hr fun body hbody => forall₂_unaware fun part hpart => ?_
    exact h part (hpart.of_body (.direct List.mem_cons_self) hbody)

theorem moveNode_unaware {node : Node} (hnode : node.declared? = none)
    (h : ∀ name, hidden name → ¬Mentions scope name node) :
    (unaware hidden scope scope').Moves ((Task.node node).move p) ((Task.node node).move p') := by
  obtain ⟨⟨rfl, rfl⟩, hcircuits⟩ := hp
  have hp : (unaware hidden p.scope p'.scope).Progresses p p' := ⟨⟨rfl, rfl⟩, hcircuits⟩
  cases node with
  | action target count instruction =>
    apply Likeness.moveAction_alike hp
    · exact resolveTarget_unaware hagree fun x hx hm => h x hx (.inl hm)
    · have hparts : ∀ parts, resolveInstruction p.scope instruction = .ok parts →
          List.Forall₂ (unaware hidden p.scope p'.scope).part parts parts := by
        intro parts hok
        refine forall₂_unaware fun part hpart x hx hm => h x hx ?_
        exact .inr (.inr ⟨parts, part, hok, hpart, hm⟩)
      cases instruction with
      | parts parts => exact .ok (hparts parts rfl)
      | name y =>
        have hy : ¬hidden y := fun hy => h y hy (.inr (.inl rfl))
        refine resolveInstruction_name (found_unaware hagree hy fun parts hfound => hparts parts ?_)
        rw [resolveInstruction, hfound]
  | conditional target name ifParts elseParts =>
    have hname : ¬hidden name := fun hname => h name hname (.inr (.inl rfl))
    have hparts : ∀ parts, parts ⊆ ifParts ++ elseParts.getD [] →
        List.Forall₂ (unaware hidden p.scope p'.scope).part parts parts := by
      intro parts hsub
      refine forall₂_unaware fun part hpart x hx hm => h x hx ?_
      exact .inr (.inr ⟨part, hpart.mono hsub, hm⟩)
    have hfound : Found id (fun _ _ => True) p.scope p'.scope name name :=
      found_unaware hagree hname fun _ _ => trivial
    apply Likeness.moveConditional_alike hp _ hfound
    · exact hparts ifParts (List.subset_append_left _ _)
    · cases elseParts with
      | none => exact .none
      | some parts => exact .some (hparts parts (List.subset_append_right _ _))
    · exact resolveTarget_unaware hagree fun x hx hm => h x hx (.inl hm)
  | foreign => exact .opens hp .nil
  | _ => cases hnode

theorem move_unaware {task task' : Task} (htask : (unaware hidden scope scope').Tasks task task') :
    (unaware hidden scope scope').Moves (task.move p) (task'.move p') := by
  cases htask with
  | node h =>
    obtain ⟨rfl, hnode, hmentions⟩ := h
    exact moveNode_unaware hagree hp hnode hmentions
  | branches bit hif helse htarget => exact Likeness.moveBranches_alike hp bit hif helse htarget
  | part origin targets h =>
    obtain ⟨rfl, hpart⟩ := h
    exact movePart_unaware hagree hp origin targets hpart

omit hp in
theorem configs_unaware {node : Node} (hnode : node.declared? = none)
    (h : ∀ name, hidden name → ¬Mentions scope name node) (cs : Circuits) (n : Nat) :
    (unaware hidden scope scope').Configs (step^[n] (working ⟨scope, cs⟩ [.node node]))
      (step^[n] (working ⟨scope', cs⟩ [.node node])) := by
  induction n with
  | zero => exact .working ⟨⟨rfl, rfl⟩, rfl⟩ (.cons (.node ⟨rfl, hnode, h⟩) .nil)
  | succ n ih =>
    rw [Function.iterate_succ_apply', Function.iterate_succ_apply']
    exact ih.step fun _ _ _ _ _ _ _ _ hp htask => move_unaware hagree hp htask

end Hiding

/-- Programs run alike in scopes that differ in names they do not mention until these are declared
again. -/
theorem sameRun_of_unmentioned {hidden : String → Prop} {nodes : List Node} {scope scope' : Scope}
    (hagree : ∀ y, ¬hidden y → scope'.find? y = scope.find? y)
    (h : ∀ x, hidden x → Unmentioned x scope nodes) (cs : Circuits) :
    SameRun nodes nodes ⟨scope, cs⟩ ⟨scope', cs⟩ := by
  induction nodes generalizing hidden scope scope' cs with
  | nil =>
    refine ⟨rfl, fun circuits => ?_⟩
    simp only [Shows, List.map_nil, iterate_done]
    rfl
  | cons node nodes ih =>
    cases hnode : node.declared? with
    | none =>
      have hconfigs := configs_unaware hagree hnode fun x hx => (h x hx).1
      refine .cons hnode (fun circuits => ?_) ?_ fun cs => ih hagree (fun x hx => ?_) cs
      · simp only [Shows, (hconfigs cs _).circuits]
      · have hrun := (Likeness.outcome_of_configs (hconfigs cs)).trans (mapError_rename_id _)
        simpa [Config.finish, Task.run] using hrun
      · have hrest := (h x hx).2 (by simp [hnode])
        simpa [Scope.after, hnode] using hrest
    | some entry =>
      obtain ⟨y, e⟩ := entry
      -- the name that is declared is no longer hidden
      have hrest : SameRun nodes nodes ⟨scope.declare y e, cs⟩ ⟨scope'.declare y e, cs⟩ := by
        refine @ih (fun x => hidden x ∧ x ≠ y) _ _ ?_ ?_ cs
        · intro z hz
          unfold Scope.find? Scope.declare
          rw [List.lookup_cons, List.lookup_cons]
          by_cases hzy : z = y
          · simp [hzy]
          · rw [beq_false_of_ne hzy]
            exact hagree z fun hhidden => hz ⟨hhidden, hzy⟩
        · rintro x ⟨hx, hxy⟩
          have hnext := (h x hx).2 (by simp [hnode, Ne.symm hxy])
          simpa [Scope.after, hnode] using hnext
      exact (SameRun.declaration hnode (SameRun.declaration hnode hrest).symm).symm

/-- A declaration can be left out if no node mentions its name before the name is declared again,
directly or through the parts that the node reaches. The program shows the same circuits, and it
succeeds, fails with the same error or goes on forever as before. -/
theorem lower_without_declaration {before after : List Node} {node : Node} {x : String} {e : Entity}
    (hnode : node.declared? = some (x, e))
    (h : Unmentioned x (Scope.afterAll [] (before ++ [node])) after) :
    (∀ circuits, Shows (start (before ++ after)) circuits ↔
      Shows (start (before ++ node :: after)) circuits) ∧
    lower (before ++ after) = lower (before ++ node :: after) := by
  have hscope : Scope.afterAll [] (before ++ [node]) =
      (Scope.afterAll [] before).declare x e := by
    simp [Scope.afterAll, Scope.after, hnode]
  rw [hscope] at h
  have hsame : SameRun (before ++ node :: after) (before ++ after) .initial .initial := by
    refine .append_left before fun cs => .declaration hnode ?_
    refine @sameRun_of_unmentioned (· = x) _ _ _ ?_ ?_ cs
    · intro y hy
      unfold Scope.find? Scope.declare
      rw [List.lookup_cons, beq_false_of_ne hy]
    · rintro _ rfl
      exact h
  exact ⟨hsame.shown, hsame.outcome⟩

/-- Gate calls reach nothing but themselves. -/
theorem PartOf.mem_of_gates {scope : Scope} {calls : List GateCall} {part : Part}
    (h : PartOf scope (calls.map .gate) part) : part ∈ calls.map Part.gate := by
  induction h with
  | direct h => exact h
  | inner _ _ _ ih => simp at ih

/-- A name that stands for a bit for a while, and for a qubit when it is used. -/
def shadowed : List Node :=
  [.action (.index 1) none (.parts [.gate ⟨"H", []⟩]), .qubit "a" (.default 2),
    .action (.name "a") none (.parts [.gate ⟨"X", []⟩])]

theorem lower_without_declaration_shadowed :
    lower shadowed = lower (.bit "a" (.default 0) :: shadowed) ∧
      ∃ c, lower shadowed = done ⟨c, []⟩ ∧ c.qubits = [.default 1, .default 2] := by
  have hunmentioned : Unmentioned "a" (Scope.afterAll [] [.bit "a" (.default 0)]) shadowed := by
    refine ⟨?_, fun _ => ⟨id, fun hne => absurd rfl (hne _)⟩⟩
    rintro (h | h | ⟨parts, part, hparts, hpart, hmentions⟩)
    · exact h
    · cases h
    · cases hparts
      have hpart := @PartOf.mem_of_gates _ [⟨"H", []⟩] _ hpart
      obtain rfl := List.mem_singleton.mp hpart
      simp [Part.Mentions] at hmentions
  have h := @lower_without_declaration [] shadowed (.bit "a" (.default 0)) _ _ rfl hunmentioned
  exact ⟨h.2, (step^[5] (start shadowed)).main, by decide, by decide⟩

end Lower

end GateScript
