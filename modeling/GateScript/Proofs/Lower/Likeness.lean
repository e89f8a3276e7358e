import GateScript.Proofs.Lower.Alike
import GateScript.Proofs.Lower.Stopping

/-!
Two programs step by step.

Two programs are compared by running both machines side by side. A likeness says which parts, nodes
and scopes of the two go together and how the names in errors differ. If whatever both have in hand
turns into things that go together again, both record the same circuits in the same order, and they
end alike.
-/
namespace GateScript.Lower

open Program Outcome Config

section Results

/-- What the machine came to, once it has stopped. -/
def Config.result? : Config → Option (Outcome Circuits)
  | working p [] => some (done p.circuits)
  | stopped e p => some (failed e p.circuits)
  | _ => none

/-- What the machine comes to is where it stops. -/
theorem outcome_of_result? {c : Config} {n : Nat} {o : Outcome Circuits}
    (h : (step^[n] c).result? = some o) : c.finish.map Progress.circuits = o := by
  rw [← finish_iterate n c]
  generalize step^[n] c = stop at h
  cases stop with
  | working p todo =>
    cases todo with
    | nil => exact Option.some.inj h
    | cons task todo => simp [result?] at h
  | boxing p box body targets todo => simp [result?] at h
  | stopped e p => exact Option.some.inj h

theorem exists_result? {p : Progress} {todo : List Task} {o : Outcome Circuits}
    (h : (working p todo).finish.map Progress.circuits = o) (hend : o ≠ endless) :
    ∃ n, (step^[n] (working p todo)).result? = some o := by
  subst h
  have hland := lands_finish p todo
  cases hfinish : (working p todo).finish with
  | done p' =>
    rw [hfinish] at hland
    obtain ⟨n, hn⟩ := hland
    exact ⟨n, by rw [hn]; rfl⟩
  | failed e p' =>
    rw [hfinish] at hland
    obtain ⟨n, hn⟩ := hland
    exact ⟨n, by rw [hn]; rfl⟩
  | endless => exact absurd (by rw [hfinish, map_endless]) hend

/-- Machines that stop at the same time and alike come to the same. -/
theorem outcome_of_lockstep {f : LowerError → LowerError} {p p' : Progress}
    {todo todo' : List Task}
    (h : ∀ n, (step^[n] (working p' todo')).result? =
      (step^[n] (working p todo)).result?.map (Outcome.mapError f)) :
    (working p' todo').finish.map Progress.circuits =
      ((working p todo).finish.map Progress.circuits).mapError f := by
  by_cases hend : (working p todo).finish.map Progress.circuits = endless
  · rw [hend, mapError_endless]
    by_contra hne
    obtain ⟨n, hn⟩ := exists_result? rfl hne
    rw [h n] at hn
    obtain ⟨o, ho, hmap⟩ := Option.map_eq_some_iff.mp hn
    rw [← outcome_of_result? ho, hend, mapError_endless] at hmap
    exact hne hmap.symm
  · obtain ⟨n, hn⟩ := exists_result? rfl hend
    have hn' := h n
    rw [hn, Option.map_some] at hn'
    exact outcome_of_result? hn'

end Results

/-- In which way two programs are alike. -/
structure Likeness where
  /-- How the names in errors differ. -/
  rename : String → String
  part : Part → Part → Prop
  node : Node → Node → Prop
  scope : Scope → Scope → Prop

namespace Likeness

variable (L : Likeness)

abbrev error : LowerError → LowerError := LowerError.rename L.rename

/-- Parts that do the same in a box, where no name is known. -/
def InBox (part part' : Part) : Prop :=
  ∀ cs, runBoxPart part' cs = (runBoxPart part cs).mapError L.error

inductive Tasks : Task → Task → Prop
  | node {n n' : Node} (h : L.node n n') : Tasks (.node n) (.node n')
  | branches (bit : Bit) {ifParts ifParts' : List Part} {elseParts elseParts' : Option (List Part)}
      {target target' : Entity} (hif : List.Forall₂ L.part ifParts ifParts')
      (helse : Option.Rel (List.Forall₂ L.part) elseParts elseParts')
      (htarget : target.SameUnit target') :
      Tasks (.branches bit ifParts elseParts target) (.branches bit ifParts' elseParts' target')
  | part (origin : Origin) (targets : Targets) {x x' : Part} (h : L.part x x') :
      Tasks (.part origin targets x) (.part origin targets x')

structure Progresses (p p' : Progress) : Prop where
  scope : L.scope p.scope p'.scope
  circuits : p'.circuits = p.circuits

inductive Moves : Move → Move → Prop
  | opens {p p' : Progress} {tasks tasks' : List Task} (hp : L.Progresses p p')
      (h : List.Forall₂ L.Tasks tasks tasks') : Moves (.opens p tasks) (.opens p' tasks')
  | boxes {p p' : Progress} {body body' : List Part} (targets : List Qubit)
      (hp : L.Progresses p p') (h : List.Forall₂ L.InBox body body') :
      Moves (.boxes p body targets) (.boxes p' body' targets)
  | stops (e : LowerError) {p p' : Progress} (hp : L.Progresses p p') :
      Moves (.stops e p) (.stops (L.error e) p')
  | idles : Moves .idles .idles

inductive Configs : Config → Config → Prop
  | working {p p' : Progress} {todo todo' : List Task} (hp : L.Progresses p p')
      (htodo : List.Forall₂ L.Tasks todo todo') : Configs (working p todo) (working p' todo')
  | boxing {p p' : Progress} (box : Circuit) {body body' : List Part} (targets : List Qubit)
      {todo todo' : List Task} (hp : L.Progresses p p') (hbody : List.Forall₂ L.InBox body body')
      (htodo : List.Forall₂ L.Tasks todo todo') :
      Configs (boxing p box body targets todo) (boxing p' box body' targets todo')
  | stopped (e : LowerError) {p p' : Progress} (hp : L.Progresses p p') :
      Configs (stopped e p) (stopped (L.error e) p')

variable {L} {p p' : Progress}

section Views

theorem Configs.circuits {c c' : Config} (h : L.Configs c c') : c'.circuits = c.circuits := by
  cases h with
  | working hp htodo =>
    simp only [Config.circuits, Config.main, Config.boxes, Config.progress, hp.circuits]
  | boxing box targets hp hbody htodo =>
    simp only [Config.circuits, Config.main, Config.boxes, Config.progress, hp.circuits]
  | stopped e hp =>
    simp only [Config.circuits, Config.main, Config.boxes, Config.progress, hp.circuits]

theorem Configs.result? {c c' : Config} (h : L.Configs c c') :
    c'.result? = c.result?.map (Outcome.mapError L.error) := by
  cases h with
  | working hp htodo =>
    cases htodo with
    | nil => simp only [Config.result?, hp.circuits, Option.map_some, mapError_done]
    | cons htask htodo => rfl
  | boxing box targets hp hbody htodo => rfl
  | stopped e hp => simp only [Config.result?, hp.circuits, Option.map_some, mapError_failed]

/-- Machines that stay alike at every step come to the same. -/
theorem outcome_of_configs {todo todo' : List Task}
    (h : ∀ n, L.Configs (step^[n] (.working p todo)) (step^[n] (.working p' todo'))) :
    (working p' todo').finish.map Progress.circuits =
      ((working p todo).finish.map Progress.circuits).mapError L.error :=
  outcome_of_lockstep fun n => (h n).result?

/-- Programs that stay alike at every step record the same and end alike. -/
theorem lower_of_configs {nodes nodes' : List Node}
    (h : ∀ n, L.Configs (step^[n] (start nodes)) (step^[n] (start nodes'))) :
    (∀ n, (step^[n] (start nodes')).circuits = (step^[n] (start nodes)).circuits) ∧
      lower nodes' = (lower nodes).mapError L.error := by
  constructor
  · exact fun n => (h n).circuits
  · rw [lower_eq_map_finish, lower_eq_map_finish]
    exact outcome_of_configs h

end Views

section Steps

theorem Progresses.onMain (h : L.Progresses p p') (change : Circuit → Circuit) :
    L.Progresses (p.onMain change) (p'.onMain change) :=
  ⟨h.scope, by simp only [Progress.onMain, h.circuits]⟩

theorem Progresses.withCircuits (h : L.Progresses p p') (cs : Circuits) :
    L.Progresses ⟨p.scope, cs⟩ ⟨p'.scope, cs⟩ := ⟨h.scope, rfl⟩

/-- Work that turns into alike things leaves the programs alike. -/
theorem Moves.step {task task' : Task} {todo todo' : List Task}
    (h : L.Moves (task.move p) (task'.move p')) (hp : L.Progresses p p')
    (htodo : List.Forall₂ L.Tasks (task :: todo) (task' :: todo')) :
    L.Configs (step (.working p (task :: todo))) (step (.working p' (task' :: todo'))) := by
  obtain ⟨-, hrest⟩ := List.forall₂_cons.mp htodo
  rw [Lower.step, Lower.step]
  generalize task.move p = m at h
  generalize task'.move p' = m' at h
  cases h with
  | opens hp' htasks => exact .working hp' (List.rel_append htasks hrest)
  | boxes targets hp' hbody => exact .boxing _ targets hp' hbody hrest
  | stops e hp' => exact .stopped e hp'
  | idles => exact .working hp htodo

theorem step_boxing (box : Circuit) {body body' : List Part} (targets : List Qubit)
    {todo todo' : List Task} (hp : L.Progresses p p') (hbody : List.Forall₂ L.InBox body body')
    (htodo : List.Forall₂ L.Tasks todo todo') :
    L.Configs (step (.boxing p box body targets todo))
      (step (.boxing p' box body' targets todo')) := by
  rw [step, step]
  cases hbody with
  | nil =>
    rw [stepBox, stepBox, hp.circuits]
    exact .working (hp.withCircuits _) htodo
  | @cons part part' body body' hpart hrest =>
    rw [stepBox, stepBox, hpart]
    cases runBoxPart part ⟨box, []⟩ with
    | done inner => exact .boxing inner.main targets hp hrest htodo
    | failed e inner =>
      dsimp only [mapError_failed]
      rw [hp.circuits]
      exact .stopped e (hp.withCircuits _)
    | endless => exact .boxing box targets hp (.cons hpart hrest) htodo

/-- One step of both machines, if the work in hand turns into alike things. -/
theorem Configs.step {c c' : Config} (h : L.Configs c c')
    (hmove : ∀ p p' task task' todo todo', c = .working p (task :: todo) →
      c' = .working p' (task' :: todo') → L.Progresses p p' → L.Tasks task task' →
      L.Moves (task.move p) (task'.move p')) :
    L.Configs (step c) (step c') := by
  cases h with
  | working hp htodo =>
    cases htodo with
    | nil => exact .working hp .nil
    | cons htask hrest =>
      exact (hmove _ _ _ _ _ _ rfl rfl hp htask).step hp (.cons htask hrest)
  | boxing box targets hp hbody htodo => exact step_boxing box targets hp hbody htodo
  | stopped e hp => exact .stopped e hp

end Steps

section Work

variable {target target' : Target}

theorem forall₂_parts {parts parts' : List Part} (h : List.Forall₂ L.part parts parts')
    (origin : Origin) (targets : Targets) :
    List.Forall₂ L.Tasks (parts.map (.part origin targets))
      (parts'.map (.part origin targets)) := by
  rw [List.forall₂_map_left_iff, List.forall₂_map_right_iff]
  exact h.imp fun _ _ hpart => .part origin targets hpart

theorem moveNamed_alike (hp : L.Progresses p p') {r r' : Reference} (origin : Origin)
    (targets : Targets) (hreversed : r'.reversed = r.reversed)
    (h : Found L.rename (List.Forall₂ L.part) p.scope p'.scope r.name r'.name) :
    L.Moves (moveNamed p origin targets r) (moveNamed p' origin targets r') := by
  obtain ⟨hname, hentity⟩ := h
  unfold moveNamed referenceError
  generalize p.scope.find? r.name = found at hentity
  generalize p'.scope.find? r'.name = found' at hentity
  rw [hname]
  cases hentity with
  | none => exact .stops (.unknownName r.name) hp
  | some hentity =>
    cases hentity with
    | pipeline hparts =>
      refine .opens hp (forall₂_parts ?_ origin targets)
      unfold oriented
      rw [hreversed]
      split
      · exact List.rel_reverse hparts
      · exact hparts
    | qubit q => exact .stops (.notPipeline r.name) hp
    | bit b => exact .stops (.notPipeline r.name) hp
    | list names names' => exact .stops (.notPipeline r.name) hp

theorem moveBranches_alike (hp : L.Progresses p p') (bit : Bit) {ifParts ifParts' : List Part}
    {elseParts elseParts' : Option (List Part)} {target target' : Entity}
    (hif : List.Forall₂ L.part ifParts ifParts')
    (helse : Option.Rel (List.Forall₂ L.part) elseParts elseParts')
    (htarget : target.SameUnit target') :
    L.Moves (moveBranches p bit ifParts elseParts target)
      (moveBranches p' bit ifParts' elseParts' target') := by
  have helse : List.Forall₂ L.part (elseParts.getD []) (elseParts'.getD []) := by
    cases helse with
    | none => exact .nil
    | some h => exact h
  cases htarget with
  | qubit q =>
    exact .opens (hp.onMain _) (List.rel_append (forall₂_parts hif _ _) (forall₂_parts helse _ _))
  | bit b => exact .stops (.conditionalTargetKind _) hp
  | list names names' => exact .stops (.conditionalTargetKind _) hp
  | pipeline hparts => exact .stops (.conditionalTargetKind _) hp

theorem moveAction_alike (hp : L.Progresses p p') (count : Option Int)
    {instruction instruction' : Instruction}
    (htarget : ∀ c, Checks L.rename (List.Forall₂ Entity.SameUnit) (resolveTarget p.scope c target)
      (resolveTarget p'.scope c target'))
    (hparts : Checks L.rename (List.Forall₂ L.part) (resolveInstruction p.scope instruction)
      (resolveInstruction p'.scope instruction')) :
    L.Moves (moveAction p target count instruction) (moveAction p' target' count instruction') := by
  have htarget := htarget p.circuits.main
  unfold moveAction
  rw [hp.circuits]
  generalize resolveTarget p.scope p.circuits.main target = checked at htarget
  generalize resolveTarget p'.scope p.circuits.main target' = checked' at htarget
  cases htarget with
  | error e => exact .stops e hp
  | ok hentities =>
    generalize resolveInstruction p.scope instruction = found at hparts
    generalize resolveInstruction p'.scope instruction' = found' at hparts
    cases hparts with
    | error e => exact .stops e hp
    | @ok parts parts' hparts =>
      have hrounds : List.Forall₂ L.part (List.replicate (rounds count) parts).flatten
          (List.replicate (rounds count) parts').flatten := by
        induction rounds count with
        | zero => exact .nil
        | succ k ih =>
          rw [List.replicate_succ, List.replicate_succ, List.flatten_cons, List.flatten_cons]
          exact List.rel_append hparts ih
      dsimp only
      rw [Targets.ofEntities_sameUnit hentities]
      exact .opens hp (forall₂_parts hrounds _ _)

theorem moveConditional_alike (hp : L.Progresses p p') {name name' : String}
    {ifParts ifParts' : List Part} {elseParts elseParts' : Option (List Part)}
    (htarget : ∀ c, Checks L.rename (List.Forall₂ Entity.SameUnit) (resolveTarget p.scope c target)
      (resolveTarget p'.scope c target'))
    {A : List Part → List Part → Prop} (hname : Found L.rename A p.scope p'.scope name name')
    (hif : List.Forall₂ L.part ifParts ifParts')
    (helse : Option.Rel (List.Forall₂ L.part) elseParts elseParts') :
    L.Moves (moveConditional p target name ifParts elseParts)
      (moveConditional p' target' name' ifParts' elseParts') := by
  have hbit := resolveCondition_alike hname
  unfold moveConditional
  generalize resolveCondition p.scope name = found at hbit
  generalize resolveCondition p'.scope name' = found' at hbit
  cases hbit with
  | error e => exact .stops e hp
  | @ok bit bit' hbit =>
    subst hbit
    have htarget := htarget (p.circuits.main.ensureBit bit)
    dsimp only [Progress.onMain]
    rw [hp.circuits]
    generalize resolveTarget p.scope (p.circuits.main.ensureBit bit) target = checked at htarget
    generalize resolveTarget p'.scope (p.circuits.main.ensureBit bit) target' = checked' at htarget
    cases htarget with
    | error e => exact .stops e (hp.withCircuits _)
    | ok hentities =>
      refine .opens (hp.withCircuits _) ?_
      rw [List.forall₂_map_left_iff, List.forall₂_map_right_iff]
      exact hentities.imp fun _ _ hentity => .branches bit hif helse hentity

end Work

section Calls

/-- A gate call that makes no box, if it does the same once it is checked. -/
theorem moveCall_of_run (hp : L.Progresses p p') {origin : Origin} {targets : Targets}
    {call call' : GateCall} (hname : call'.name = call.name)
    (hbox : qubitRules.lookup call.name ≠ some .box)
    (h : Checks L.rename (fun a a' => ∀ cs, a'.run noBox targets origin.condition cs =
        (a.run noBox targets origin.condition cs).mapError L.error)
      (prepare p.scope targets call) (prepare p'.scope targets call')) :
    L.Moves (moveCall p origin targets call) (moveCall p' origin targets call') := by
  have hbox' := hname ▸ hbox
  unfold moveCall
  cases ha : prepare p.scope targets call with
  | error e =>
    rw [ha] at h
    generalize prepare p'.scope targets call' = checked' at h
    cases h
    exact .stops e hp
  | ok a =>
    rw [ha] at h
    cases ha' : prepare p'.scope targets call' with
    | error e =>
      rw [ha'] at h
      cases h
    | ok a' =>
      rw [ha'] at h
      cases h with
      | ok hrun =>
        have hrule : a.qubitRule ≠ some .box := fun hrule => hbox (lookup_of_qubitRule ha hrule)
        have hrule' : a'.qubitRule ≠ some .box := fun hrule =>
          hbox' (lookup_of_qubitRule ha' hrule)
        dsimp only
        rw [if_neg hrule, if_neg hrule', hp.circuits, hrun]
        cases a.run noBox targets origin.condition p.circuits with
        | done cs => exact .opens (hp.withCircuits cs) .nil
        | failed e cs => exact .stops e (hp.withCircuits cs)
        | endless => exact .idles

theorem moveCall_alike (hp : L.Progresses p p') {origin : Origin} {targets : Targets}
    {call call' : GateCall} (hname : call'.name = call.name)
    (h : List.Forall₂ (Arguments L.rename (List.Forall₂ L.InBox) p.scope p'.scope) call.args
      call'.args) :
    L.Moves (moveCall p origin targets call) (moveCall p' origin targets call') := by
  have hprepare := prepare_alike targets hname h
  unfold moveCall
  generalize prepare p.scope targets call = checked at hprepare
  generalize prepare p'.scope targets call' = checked' at hprepare
  cases hprepare with
  | error e => exact .stops e hp
  | @ok a a' ha =>
    dsimp only
    rw [ha.qubitRule]
    split
    · have hmain := hp.onMain (·.ensureQubits targets.qubits)
      have hbody := boxBody_alike L.rename ha.args origin.condition
      generalize boxBody a.args origin.condition = body at hbody
      generalize boxBody a'.args origin.condition = body' at hbody
      cases hbody with
      | error e => exact .stops e hmain
      | ok hparts => exact .boxes targets.qubits hmain hparts
    · rw [hp.circuits, preparedRun_alike L.rename ha]
      cases a.run noBox targets origin.condition p.circuits with
      | done cs => exact .opens (hp.withCircuits cs) .nil
      | failed e cs => exact .stops e (hp.withCircuits cs)
      | endless => exact .idles

theorem inBox_gate {A : List Part → List Part → Prop} {call call' : GateCall}
    (hname : call'.name = call.name)
    (h : List.Forall₂ (Arguments L.rename A [] []) call.args call'.args) :
    L.InBox (.gate call) (.gate call') := by
  intro cs
  have hprepare := prepare_alike ⟨[.default 0], []⟩ hname h
  rw [runBoxPart, runPart_gate, runPart_gate]
  unfold runCall
  generalize prepare [] ⟨[.default 0], []⟩ call = checked at hprepare
  generalize prepare [] ⟨[.default 0], []⟩ call' = checked' at hprepare
  cases hprepare with
  | error e => rfl
  | ok ha => exact preparedRun_alike L.rename ha _ none cs

theorem inBox_named {r r' : Reference} (hname : r'.name = L.rename r.name) :
    L.InBox (.named r) (.named r') := by
  intro cs
  rw [runBoxPart, runPart_unresolved (by simp [Scope.find?]),
    runPart_unresolved (by simp [Scope.find?])]
  simp only [referenceError, Scope.find?, List.lookup_nil, hname, mapError_failed]
  rfl

end Calls

end Likeness

end GateScript.Lower
