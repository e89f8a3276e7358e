import GateScript.Proofs.Lower.Machine
import Mathlib.Data.List.Forall2

/-!
What one step of the machine does to the circuits. It enters calls into the circuits that are
there, and may begin a box; the work in hand decides which calls the main circuit can get.
-/
namespace GateScript.Lower

open Program Outcome Circuit

/-- The calls that are made without a condition and without a bit among the targets. -/
def PlainCall (call : Call) : Prop :=
  call.IsAllocation ∨ call.operation.IsQuantum ∧ call.condition = none

/-- The calls that a piece of work may enter into the main circuit in one step. -/
def Task.Allows : Task → Call → Prop
  | .part origin targets _, call =>
    call.IsAllocation ∨ call.operation.IsQuantum ∧ call.condition = origin.condition ∨
      targets.bits ≠ [] ∧ call.operation.IsClassical ∧ call.condition = none
  | _, call => call.IsAllocation

/-- The bits that a piece of work depends on are present. -/
def Task.Ready (c : Circuit) : Task → Prop
  | .node _ => True
  | .branches bit _ _ _ => bit ∈ c.bits
  | .part origin _ _ => c.HasCondition origin.condition

theorem Task.Ready.mono {c c' : Circuit} {task : Task} (h : task.Ready c) (hc : c.Extends c') :
    task.Ready c' := by
  cases task with
  | node node => trivial
  | branches bit ifParts elseParts target => exact hc.bits h
  | part origin targets part => exact HasCondition.mono h hc

theorem plainCall_permits : PermitsQuantum PlainCall none :=
  ⟨fun q => .inl (.addQubit q), fun b => .inl (.addBit b), fun _ h => .inr ⟨h, rfl⟩⟩

theorem Task.allows_quantum (origin : Origin) (targets : Targets) (part : Part) :
    PermitsQuantum (Task.part origin targets part).Allows origin.condition :=
  ⟨fun q => .inl (.addQubit q), fun b => .inl (.addBit b), fun _ h => .inr (.inl ⟨h, rfl⟩)⟩

theorem Task.allows_classical (origin : Origin) {targets : Targets} (part : Part)
    (h : targets.bits ≠ []) : PermitsClassical (Task.part origin targets part).Allows :=
  ⟨fun b => .inl (.addBit b), fun _ hop => .inr (.inr ⟨h, hop, rfl⟩)⟩

/-- The progress after a move. -/
def Move.progress? : Move → Option Progress
  | .opens p _ => some p
  | .boxes p _ _ => some p
  | .stops _ p => some p
  | .idles => none

theorem progress?_ofOutcome (o : Outcome Progress) : (Move.ofOutcome o).progress? = o.state? := by
  cases o <;> rfl

theorem onMain_ensureBit_keeps {allowed : Call → Prop} (h : ∀ b, allowed ⟨.addBit b, none⟩)
    (p : Progress) (b : Bit) : p.circuits.Keeps allowed (p.onMain (·.ensureBit b)).circuits :=
  ⟨records_ensureBit h p.circuits.main b, rfl⟩

theorem moveCall_keeps {p p' : Progress} {origin : Origin} {targets : Targets} {call : GateCall}
    (hready : p.circuits.main.HasCondition origin.condition)
    (h : (moveCall p origin targets call).progress? = some p') :
    p.circuits.Keeps (Task.part origin targets (.gate call)).Allows p'.circuits := by
  have hquantum := Task.allows_quantum origin targets (.gate call)
  unfold moveCall at h
  split at h
  · cases h
    exact .refl _
  · rename_i prepared hprepared
    split at h
    · have hens : p.circuits.Keeps (Task.part origin targets (.gate call)).Allows
          (p.onMain (·.ensureQubits targets.qubits)).circuits :=
        ensureQubits_keeps hquantum p.circuits targets.qubits
      dsimp only at h
      split at h
      · cases h
        exact hens
      · cases h
        exact hens
    · rw [progress?_ofOutcome] at h
      have hrun : (prepared.run noBox targets origin.condition p.circuits).Ensures
          (p.circuits.Keeps (Task.part origin targets (.gate call)).Allows) := by
        refine Prepared.run_keeps (fun _ => hquantum) (fun hbit => ?_) hready
        exact Task.allows_classical origin _ ((prepare_rules hprepared).2 hbit)
      have hmap : ((prepared.run noBox targets origin.condition p.circuits).map
          (Progress.mk p.scope)).Ensures fun p' =>
            p.circuits.Keeps (Task.part origin targets (.gate call)).Allows p'.circuits :=
        ensures_map.mpr hrun
      exact hmap p' h

theorem moveConditional_keeps {p p' : Progress} {target : Target} {name : String}
    {ifParts : List Part} {elseParts : Option (List Part)}
    (h : (moveConditional p target name ifParts elseParts).progress? = some p') :
    p.circuits.Keeps Call.IsAllocation p'.circuits := by
  unfold moveConditional at h
  split at h
  · cases h
    exact .refl _
  · rename_i bit _
    have hens := onMain_ensureBit_keeps Call.IsAllocation.addBit p bit
    dsimp only at h
    split at h
    · cases h
      exact hens
    · cases h
      exact hens

theorem moveAction_progress {p p' : Progress} {target : Target} {count : Option Int}
    {instruction : Instruction} (h : (moveAction p target count instruction).progress? = some p') :
    p' = p := by
  unfold moveAction at h
  split at h
  · exact (Option.some.inj h).symm
  · split at h
    · exact (Option.some.inj h).symm
    · exact (Option.some.inj h).symm

/-- A move enters only calls that the piece of work allows, and leaves the boxes as they are. -/
theorem Task.move_keeps {task : Task} {p p' : Progress} (hready : task.Ready p.circuits.main)
    (h : (task.move p).progress? = some p') : p.circuits.Keeps task.Allows p'.circuits := by
  cases task with
  | node node =>
    cases node with
    | action target count instruction =>
      rw [moveAction_progress h]
      exact .refl _
    | conditional target name ifParts elseParts => exact moveConditional_keeps h
    | _ =>
      cases h
      exact .refl _
  | branches bit ifParts elseParts target =>
    cases target with
    | qubit q =>
      cases h
      exact ⟨records_ensureQubit .addBit .addQubit p.circuits.main q, rfl⟩
    | _ =>
      cases h
      exact .refl _
  | part origin targets part =>
    cases part using partCases p.scope with
    | gate call => exact moveCall_keeps hready h
    | pipeline r parts hr =>
      rw [Task.move, moveNamed_pipeline hr] at h
      cases h
      exact .refl _
    | unresolved r hr =>
      rw [Task.move, moveNamed_unresolved hr] at h
      cases h
      exact .refl _

/-- What a move opens is ready. -/
theorem Task.move_ready {task : Task} {p p' : Progress} {tasks : List Task}
    (hready : task.Ready p.circuits.main) (h : task.move p = .opens p' tasks) :
    ∀ opened ∈ tasks, opened.Ready p'.circuits.main := by
  intro opened hopened
  cases task with
  | node node =>
    cases node with
    | action target count instruction =>
      obtain ⟨-, targets, parts, rfl⟩ := moveAction_opens h
      obtain ⟨part, -, rfl⟩ := List.mem_map.mp hopened
      exact .none _
    | conditional target name ifParts elseParts =>
      obtain ⟨bit, entities, -, rfl, rfl⟩ := moveConditional_opens h
      obtain ⟨entity, -, rfl⟩ := List.mem_map.mp hopened
      exact mem_ensureBit p.circuits.main bit
    | _ =>
      obtain ⟨-, rfl⟩ := Move.opens.inj h
      simp at hopened
  | branches bit ifParts elseParts target =>
    have hkeeps := Task.move_keeps hready (by rw [h]; rfl)
    obtain ⟨q, -, -, rfl⟩ := moveBranches_opens h
    have hbit := hkeeps.main.extension.bits hready
    rw [List.mem_append, List.mem_map, List.mem_map] at hopened
    rcases hopened with ⟨part, -, rfl⟩ | ⟨part, -, rfl⟩
    · intro x hx
      cases hx
      exact hbit
    · intro x hx
      cases hx
      exact hbit
  | part origin targets part =>
    cases part using partCases p.scope with
    | gate call =>
      rw [moveCall_opens h] at hopened
      simp at hopened
    | pipeline r parts hr =>
      rw [Task.move, moveNamed_pipeline hr, Move.opens.injEq] at h
      obtain ⟨rfl, rfl⟩ := h
      obtain ⟨part, -, rfl⟩ := List.mem_map.mp hopened
      exact hready
    | unresolved r hr =>
      rw [Task.move, moveNamed_unresolved hr] at h
      cases h

namespace Config

/-- All the work that is left is ready. -/
def Ready (c : Config) : Prop := ∀ task ∈ c.todo, task.Ready c.main

/-- The calls that the next step may enter into the main circuit. -/
def Allows : Config → Call → Prop
  | working _ (task :: _), call => task.Allows call
  | boxing _ _ _ _ _, call => PlainCall call ∨ call.operation.IsBox ∧ call.condition = none
  | _, _ => False

/-- The targets of the box that the next step begins, if it begins one. -/
def begins : Config → List (List Qubit)
  | working p (task :: _) =>
    match task.move p with
    | .boxes _ _ targets => [targets]
    | _ => []
  | _ => []

@[simp] theorem begins_nil (p : Progress) : (working p []).begins = [] := rfl

@[simp] theorem begins_boxing (p : Progress) (box : Circuit) (body : List Part)
    (targets : List Qubit) (todo : List Task) : (boxing p box body targets todo).begins = [] := rfl

@[simp] theorem begins_stopped (e : LowerError) (p : Progress) : (stopped e p).begins = [] := rfl

/-- What a step may do: enter calls of some kind into the main circuit, enter plain calls into the
boxes, and begin new boxes. -/
structure Grows (allowed : Call → Prop) (c c' : Config) : Prop where
  main : Records allowed c.main c'.main
  boxes : ∃ widths, List.Forall₂ (Records PlainCall) (c.boxes ++ List.map .blank widths) c'.boxes

end Config

open Config

theorem forall₂_records_refl {allowed : Call → Prop} (cs : List Circuit) :
    List.Forall₂ (Records allowed) cs cs := List.forall₂_same.mpr fun _ _ => .refl

theorem forall₂_records_trans {allowed : Call → Prop} {as bs cs : List Circuit}
    (h : List.Forall₂ (Records allowed) as bs) (h' : List.Forall₂ (Records allowed) bs cs) :
    List.Forall₂ (Records allowed) as cs := by
  induction h generalizing cs with
  | nil => exact h'
  | cons hab _ ih =>
    cases h' with
    | cons hbc hrest => exact .cons (hab.trans hbc) (ih hrest)

namespace Config.Grows

variable {allowed : Call → Prop} {c c' c'' : Config}

/-- No box is begun, and the boxes are as they were. -/
theorem of_keeps (h : c.progress.circuits.Keeps allowed c'.progress.circuits)
    (hboxes : c'.boxes = c.boxes) : c.Grows allowed c' :=
  ⟨h.main, [], by simpa [hboxes] using forall₂_records_refl c.boxes⟩

theorem refl (c : Config) : c.Grows allowed c := of_keeps (.refl _) rfl

theorem trans (h : c.Grows allowed c') (h' : c'.Grows allowed c'') : c.Grows allowed c'' := by
  obtain ⟨widths, hboxes⟩ := h.boxes
  obtain ⟨widths', hboxes'⟩ := h'.boxes
  refine ⟨h.main.trans h'.main, widths ++ widths', ?_⟩
  rw [List.map_append, ← List.append_assoc]
  exact forall₂_records_trans (List.rel_append hboxes (forall₂_records_refl _)) hboxes'

theorem mono {allowed' : Call → Prop} (h : c.Grows allowed c')
    (hkind : ∀ call, allowed call → allowed' call) : c.Grows allowed' c' :=
  ⟨h.main.mono hkind, h.boxes⟩

/-- A box comes from one that was there, or from a blank one. -/
theorem mem_boxes (h : c.Grows allowed c') {box : Circuit} (hbox : box ∈ c'.boxes) :
    (∃ old ∈ c.boxes, Records PlainCall old box) ∨
      ∃ width, Records PlainCall (.blank width) box := by
  obtain ⟨widths, hboxes⟩ := h.boxes
  obtain ⟨i, hi, rfl⟩ := List.mem_iff_getElem.mp hbox
  have hi' : i < (c.boxes ++ widths.map Circuit.blank).length := by
    rw [hboxes.length_eq]
    exact hi
  have hrecords := hboxes.get hi' hi
  rcases List.mem_append.mp (List.getElem_mem hi') with hold | hnew
  · exact .inl ⟨_, hold, hrecords⟩
  · obtain ⟨width, -, hwidth⟩ := List.mem_map.mp hnew
    refine .inr ⟨width, ?_⟩
    rw [hwidth]
    exact hrecords

end Config.Grows

section Steps

variable (p : Progress) (box : Circuit) (targets : List Qubit) (todo : List Task)

theorem closeBox_records (cs : Circuits) :
    Records (boxing p box [] targets todo).Allows cs.main (cs.closeBox box targets).main := by
  have hens :=
    records_ensureQubits plainCall_permits.addBit plainCall_permits.addQubit cs.main targets
  refine (hens.mono fun _ => .inl).trans
    (records_record (.inr (.inr trivial)) (by simp) ?_ ?_ (.inr ⟨trivial, rfl⟩))
  · exact fun q hq => mem_ensureQubits cs.main hq
  · exact bits_of_condition (by simp [Operation.bits]) (.none _)

/-- While a box is built the main circuit waits. -/
theorem stepBox_main (body : List Part) :
    Records (boxing p box body targets todo).Allows p.circuits.main
      (stepBox p box targets todo body).main := by
  cases body with
  | nil => exact closeBox_records p box targets todo p.circuits
  | cons part body =>
    rw [stepBox]
    cases runBoxPart part ⟨box, []⟩ with
    | done inner => exact .refl
    | failed e inner => exact .refl
    | endless => exact .refl

theorem stepBox_boxes (body : List Part) :
    List.Forall₂ (Records PlainCall) (p.circuits.boxes ++ [box])
      (stepBox p box targets todo body).boxes := by
  cases body with
  | nil =>
    -- the box under way counts as a circuit already, so closing it adds none
    exact forall₂_records_refl (p.circuits.boxes ++ [box])
  | cons part body =>
    have hkeeps := runBoxPart_keeps plainCall_permits part ⟨box, []⟩
    have hboxes : ∀ inner, Records PlainCall box inner →
        List.Forall₂ (Records PlainCall) (p.circuits.boxes ++ [box])
          (p.circuits.boxes ++ [inner]) := by
      intro inner hinner
      exact List.rel_append (forall₂_records_refl _) (.cons hinner .nil)
    rw [stepBox]
    cases hpart : runBoxPart part ⟨box, []⟩ with
    | done inner =>
      rw [hpart, ensures_done] at hkeeps
      exact hboxes inner.main hkeeps.main
    | failed e inner =>
      rw [hpart, ensures_failed] at hkeeps
      exact hboxes inner.main hkeeps.main
    | endless => exact forall₂_records_refl _

end Steps

theorem step_main {c : Config} (h : c.Ready) : Records c.Allows c.main (step c).main := by
  cases c with
  | working p todo =>
    cases todo with
    | nil => exact .refl
    | cons task todo =>
      have hkeeps : ∀ p', (task.move p).progress? = some p' →
          p.circuits.Keeps task.Allows p'.circuits := fun p' =>
        Task.move_keeps (h task List.mem_cons_self)
      rw [step]
      cases hmove : task.move p with
      | opens p' tasks => exact (hkeeps p' (by rw [hmove]; rfl)).main
      | boxes p' body targets => exact (hkeeps p' (by rw [hmove]; rfl)).main
      | stops e p' => exact (hkeeps p' (by rw [hmove]; rfl)).main
      | idles => exact .refl
  | boxing p box body targets todo => exact stepBox_main p box targets todo body
  | stopped e p => exact .refl

/-- The boxes go on, and one that is begun is blank at first. -/
theorem step_boxes {c : Config} (h : c.Ready) :
    List.Forall₂ (Records PlainCall)
      (c.boxes ++ c.begins.map fun targets => .blank targets.length) (step c).boxes := by
  cases c with
  | working p todo =>
    cases todo with
    | nil =>
      rw [begins_nil, List.map_nil, List.append_nil]
      exact forall₂_records_refl _
    | cons task todo =>
      have hkeeps : ∀ p', (task.move p).progress? = some p' → p'.circuits.boxes = p.circuits.boxes :=
        fun p' hp' => (Task.move_keeps (h task List.mem_cons_self) hp').boxes
      rw [step, begins]
      cases hmove : task.move p with
      | opens p' tasks =>
        rw [boxes, ← hkeeps p' (by rw [hmove]; rfl), List.map_nil, List.append_nil]
        exact forall₂_records_refl _
      | boxes p' body targets =>
        rw [boxes, ← hkeeps p' (by rw [hmove]; rfl)]
        exact forall₂_records_refl (p'.circuits.boxes ++ [.blank targets.length])
      | stops e p' =>
        rw [boxes, ← hkeeps p' (by rw [hmove]; rfl), List.map_nil, List.append_nil]
        exact forall₂_records_refl _
      | idles =>
        rw [List.map_nil, List.append_nil]
        exact forall₂_records_refl _
  | boxing p box body targets todo =>
    rw [begins_boxing, List.map_nil, List.append_nil]
    exact stepBox_boxes p box targets todo body
  | stopped e p =>
    rw [begins_stopped, List.map_nil, List.append_nil]
    exact forall₂_records_refl _

/-- What a step does to the circuits. -/
theorem step_grows {c : Config} (h : c.Ready) : c.Grows c.Allows (step c) := by
  have hboxes := step_boxes h
  refine ⟨step_main h, c.begins.map List.length, ?_⟩
  rwa [List.map_map]

theorem stepBox_todo (p : Progress) (box : Circuit) (targets : List Qubit) (todo : List Task)
    (body : List Part) : (stepBox p box targets todo body).todo ⊆ todo := by
  cases body with
  | nil => exact List.Subset.refl todo
  | cons part body =>
    rw [stepBox]
    cases runBoxPart part ⟨box, []⟩ with
    | done inner => exact List.Subset.refl todo
    | failed e inner => exact List.nil_subset todo
    | endless => exact List.Subset.refl todo

/-- Work stays ready. -/
theorem step_ready {c : Config} (h : c.Ready) : (step c).Ready := by
  have hmono : ∀ task ∈ c.todo, task.Ready (step c).main := fun task htask =>
    (h task htask).mono (step_grows h).main.extension
  cases c with
  | working p todo =>
    cases todo with
    | nil => exact h
    | cons task todo =>
      have hready : task.Ready p.circuits.main := h task List.mem_cons_self
      rw [step] at hmono ⊢
      cases hmove : task.move p with
      | opens p' tasks =>
        rw [hmove] at hmono
        intro opened hopened
        rcases List.mem_append.mp hopened with hnew | hold
        · exact Task.move_ready hready hmove opened hnew
        · exact hmono opened (List.mem_cons_of_mem task hold)
      | boxes p' body targets =>
        rw [hmove] at hmono
        exact fun opened hopened => hmono opened (List.mem_cons_of_mem task hopened)
      | stops e p' => exact fun opened hopened => absurd hopened List.not_mem_nil
      | idles => exact h
  | boxing p box body targets todo =>
    intro task htask
    exact hmono task (stepBox_todo p box targets todo body htask)
  | stopped e p => exact h

theorem ready_iterate {c : Config} (h : c.Ready) (n : Nat) : (step^[n] c).Ready := by
  induction n with
  | zero => exact h
  | succ n ih =>
    rw [Function.iterate_succ_apply']
    exact step_ready ih

theorem grows_iterate {c : Config} (h : c.Ready) (n : Nat) :
    (step^[n] c).Grows (step^[n] c).Allows (step^[n + 1] c) := by
  rw [Function.iterate_succ_apply']
  exact step_grows (ready_iterate h n)

theorem start_ready (nodes : List Node) : (start nodes).Ready := by
  intro task htask
  obtain ⟨node, -, rfl⟩ := List.mem_map.mp htask
  trivial

section Invariants

variable {P : Circuit → Prop} (hblank : ∀ width, P (.blank width))
  (henter : ∀ c call, P c → c.units.Admits call → P (c.enter call))

include hblank henter

theorem Config.Grows.forall_circuits {allowed : Call → Prop} {c c' : Config}
    (h : c.Grows allowed c') (hc : ∀ circuit ∈ c.circuits, P circuit) :
    ∀ circuit ∈ c'.circuits, P circuit := by
  obtain ⟨hmain, hboxes⟩ := List.forall_mem_cons.mp hc
  refine List.forall_mem_cons.mpr ⟨h.main.keeps henter hmain, fun box hbox => ?_⟩
  rcases h.mem_boxes hbox with ⟨old, hold, hrecords⟩ | ⟨width, hrecords⟩
  · exact hrecords.keeps henter (hboxes old hold)
  · exact hrecords.keeps henter (hblank width)

/-- What holds of a blank circuit and is kept by every admitted call holds of all circuits of a
program, whenever it is stopped. -/
theorem forall_circuits_iterate (nodes : List Node) (n : Nat) :
    ∀ c ∈ (step^[n] (start nodes)).circuits, P c := by
  induction n with
  | zero =>
    intro c hc
    rw [List.mem_singleton.mp hc]
    exact hblank 0
  | succ n ih => exact (grows_iterate (start_ready nodes) n).forall_circuits hblank henter ih

end Invariants

end GateScript.Lower
