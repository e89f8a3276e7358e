import GateScript.Proofs.Lower.Allocation
import GateScript.Proofs.Lower.Boxes
import GateScript.Proofs.Lower.Preflight

/-!
Actions on qubits and actions on bits.

The calls on behalf of bits add bits and operate on them; they leave the qubits and the boxes alone.
The calls on behalf of qubits come in blocks: a bit is added right after the qubit that it belongs
to, or right before a qubit is measured into it. What one gate call does of this kind, an action
does on all its way.
-/
namespace GateScript

/-- A call that is entered on behalf of a bit. -/
inductive ClassicalCall : Call → Prop
  | addBit (b : Bit) : ClassicalCall ⟨.addBit b, none⟩
  | operation (operation : Operation) (h : operation.IsClassical) : ClassicalCall ⟨operation, none⟩

theorem ClassicalCall.eq_addBit {call : Call} {b : Bit} (h : ClassicalCall call)
    (hadd : call.operation = .addBit b) : call = ⟨.addBit b, none⟩ := by
  cases h with
  | addBit x =>
    cases hadd
    rfl
  | operation operation h =>
    subst hadd
    exact h.elim

theorem ClassicalCall.ne_measureAll {call : Call} (h : ClassicalCall call) :
    call.operation ≠ .measureAll := by
  intro hall
  cases h with
  | addBit x => cases hall
  | operation operation h =>
    subst hall
    exact h.elim

/-- The calls that are entered at once on behalf of a qubit. -/
inductive QuantumBlock : List Call → Prop
  /-- A qubit whose bit is there. -/
  | qubit (q : Qubit) : QuantumBlock [⟨.addQubit q, none⟩]
  | paired (q : Qubit) :
    QuantumBlock [⟨.addQubit q, none⟩, ⟨.addBit (.default q.index), none⟩]
  /-- A qubit that is measured into a new bit. -/
  | outcome (q : Qubit) (b : Bit) : QuantumBlock [⟨.addBit b, none⟩, ⟨.measure q b, none⟩]
  | operation (operation : Operation) (h : operation.IsQuantum ∨ operation.IsBox) :
    QuantumBlock [⟨operation, none⟩]

theorem QuantumBlock.call {block : List Call} (h : QuantumBlock block) {call : Call}
    (hcall : call ∈ block) : ¬call.operation.IsClassical ∧ call.condition = none := by
  cases h with
  | qubit q =>
    rw [List.mem_singleton.mp hcall]
    exact ⟨id, rfl⟩
  | paired q =>
    rcases List.mem_pair.mp hcall with rfl | rfl <;> exact ⟨id, rfl⟩
  | outcome q b =>
    rcases List.mem_pair.mp hcall with rfl | rfl <;> exact ⟨id, rfl⟩
  | operation operation h =>
    rw [List.mem_singleton.mp hcall]
    refine ⟨fun hclassical => ?_, rfl⟩
    rcases h with hquantum | hbox
    · exact hquantum.not_isClassical hclassical
    · exact hclassical.not_isBox hbox

/-- How many qubits are added by calls. -/
def countQubits (calls : List Call) : Nat := (addedUnits calls).countP Sum.isLeft

namespace Circuit

/-- Where a bit comes from that is new after some calls on behalf of qubits. -/
inductive BitSource (c : Circuit) (new : List Call) : Bit → Prop
  | paired {q : Qubit}
      (h : [⟨.addQubit q, none⟩, ⟨.addBit (.default q.index), none⟩] <:+: new) :
    BitSource c new (.default q.index)
  | outcome {q : Qubit} {b : Bit} (h : [⟨.addBit b, none⟩, ⟨.measure q b, none⟩] <:+: new) :
    BitSource c new b
  /-- All qubits that are there at the time are measured. -/
  | all {before after : List Call} {i : Nat} (hnew : new = before ++ ⟨.measureAll, none⟩ :: after)
      (hi : i < c.qubits.length + countQubits before) : BitSource c new (.default i)

/-- Only bits are added and operated on. -/
def ClassicalChange (c c' : Circuit) : Prop :=
  ∃ new, c'.calls = c.calls ++ new ∧ (∀ call ∈ new, ClassicalCall call) ∧ c'.qubits = c.qubits ∧
    ∀ b, b ∈ c'.bits ↔ b ∈ c.bits ∨ ⟨.addBit b, none⟩ ∈ new

/-- No operation on bits is made, and each new bit goes with a qubit or holds an outcome. -/
def QuantumChange (c c' : Circuit) : Prop :=
  ∃ new, c'.calls = c.calls ++ new ∧
    (∀ call ∈ new, ¬call.operation.IsClassical ∧ call.condition = none) ∧
    ∀ b, b ∈ c'.bits ↔ b ∈ c.bits ∨ c.BitSource new b

theorem BitSource.of_block {block new : List Call} (h : QuantumBlock block) {call : Call}
    (hcall : call ∈ block) {b : Bit} (hadd : call.operation = .addBit b) (hwithin : block <:+: new)
    (c : Circuit) : c.BitSource new b := by
  cases h with
  | qubit q =>
    rw [List.mem_singleton.mp hcall] at hadd
    cases hadd
  | paired q =>
    rcases List.mem_pair.mp hcall with rfl | rfl
    · cases hadd
    · cases hadd
      exact .paired hwithin
  | outcome q x =>
    rcases List.mem_pair.mp hcall with rfl | rfl
    · cases hadd
      exact .outcome hwithin
    · cases hadd
  | operation operation h =>
    rw [List.mem_singleton.mp hcall] at hadd
    subst hadd
    rcases h with h | h <;> exact h.elim

section Entering

variable {c c' : Circuit} {new : List Call}

theorem length_qubits_enter (c : Circuit) (call : Call) :
    (c.enter call).qubits.length = c.qubits.length + countQubits [call] := by
  obtain ⟨operation, condition⟩ := call
  cases operation with
  | addQubit q => exact length_insertOrdered _ q c.qubits
  | _ => rfl

theorem length_qubits_foldl_enter (c : Circuit) (new : List Call) :
    (new.foldl enter c).qubits.length = c.qubits.length + countQubits new := by
  induction new generalizing c with
  | nil => rfl
  | cons call new ih =>
    have hcount : countQubits (call :: new) = countQubits [call] + countQubits new := by
      rw [countQubits, addedUnits, ← List.singleton_append, List.filterMap_append,
        List.countP_append]
      rfl
    rw [List.foldl_cons, ih, length_qubits_enter, hcount, Nat.add_assoc]

theorem mem_bits_enter {c : Circuit} {call : Call} {b : Bit} :
    b ∈ (c.enter call).bits ↔ b ∈ c.bits ∨ call.operation = .addBit b ∨
      call.operation = .measureAll ∧ ∃ i < c.qubits.length, b = .default i := by
  obtain ⟨operation, condition⟩ := call
  cases operation with
  | addBit x =>
    change b ∈ insertOrdered Bit.precedes x c.bits ↔ _
    rw [mem_insertOrdered]
    simp [eq_comm, or_comm]
  | measureAll =>
    change b ∈ c.measureAll.bits ↔ _
    rw [bits_measureAll, mem_withBits]
    simp [eq_comm]
  | _ => simp [enter, record]

/-- The bits after some calls: those before, those that are added, and those that come along when
all qubits are measured. -/
theorem mem_bits_foldl_enter {b : Bit} :
    b ∈ (new.foldl enter c).bits ↔ b ∈ c.bits ∨ (∃ call ∈ new, call.operation = .addBit b) ∨
      ∃ before call after, new = before ++ call :: after ∧ call.operation = .measureAll ∧
        ∃ i < c.qubits.length + countQubits before, b = .default i := by
  induction new using List.reverseRecOn with
  | nil => simp
  | append_singleton new call ih =>
    rw [List.foldl_concat, mem_bits_enter, ih, length_qubits_foldl_enter]
    constructor
    · rintro ((hb | ⟨x, hx, hadd⟩ | ⟨before, x, after, rfl, hall, hi⟩) | hadd | ⟨hall, hi⟩)
      · exact .inl hb
      · exact .inr (.inl ⟨x, List.mem_append_left _ hx, hadd⟩)
      · exact .inr (.inr ⟨before, x, after ++ [call], by simp, hall, hi⟩)
      · exact .inr (.inl ⟨call, by simp, hadd⟩)
      · exact .inr (.inr ⟨new, call, [], rfl, hall, hi⟩)
    · rintro (hb | ⟨x, hx, hadd⟩ | ⟨before, x, after, hnew, hall, hi⟩)
      · exact .inl (.inl hb)
      · rcases List.mem_append.mp hx with hx | hx
        · exact .inl (.inr (.inl ⟨x, hx, hadd⟩))
        · rw [List.mem_singleton.mp hx] at hadd
          exact .inr (.inl hadd)
      · -- all qubits are measured by the last call, or by one before it
        cases after using List.reverseRecOn with
        | nil =>
          obtain ⟨rfl, rfl⟩ := List.append_singleton_inj.mp hnew
          exact .inr (.inr ⟨hall, hi⟩)
        | append_singleton after y =>
          rw [← List.cons_append, ← List.append_assoc] at hnew
          obtain ⟨rfl, -⟩ := List.append_singleton_inj.mp hnew
          exact .inl (.inr (.inr ⟨before, x, after, rfl, hall, hi⟩))

end Entering

section Classical

variable {c c' : Circuit} {allowed : Call → Prop}

theorem qubits_enter_classical {call : Call} (h : ClassicalCall call) (c : Circuit) :
    (c.enter call).qubits = c.qubits := by
  cases h with
  | addBit b => rfl
  | operation operation h =>
    cases operation with
    | addQubit q => exact h.elim
    | _ => rfl

theorem Records.classicalChange (h : Records ClassicalCall c c') : c.ClassicalChange c' := by
  have hqubits : c'.qubits = c.qubits := by
    induction h with
    | refl => rfl
    | enter _ _ kind ih => rw [qubits_enter_classical kind, ih]
  obtain ⟨new, hnew, rfl⟩ := h.exists_foldl
  refine ⟨new, calls_foldl_enter c new, hnew, hqubits, fun b => ?_⟩
  rw [mem_bits_foldl_enter]
  refine or_congr_right ⟨?_, fun hb => .inl ⟨_, hb, rfl⟩⟩
  rintro (⟨call, hcall, hadd⟩ | ⟨before, call, after, rfl, hall, -⟩)
  · rwa [(hnew call hcall).eq_addBit hadd] at hcall
  · exact absurd hall (hnew call (by simp)).ne_measureAll

end Classical

section Quantum

variable {c c' c'' : Circuit}

/-- A circuit becomes another by entering calls on behalf of qubits, block by block. -/
def EntersBlocks (c c' : Circuit) : Prop :=
  ∃ blocks : List (List Call), (∀ block ∈ blocks, QuantumBlock block) ∧
    c' = blocks.flatten.foldl enter c

namespace EntersBlocks

theorem refl (c : Circuit) : c.EntersBlocks c := ⟨[], by simp, rfl⟩

theorem trans (h : c.EntersBlocks c') (h' : c'.EntersBlocks c'') : c.EntersBlocks c'' := by
  obtain ⟨blocks, hblocks, rfl⟩ := h
  obtain ⟨blocks', hblocks', rfl⟩ := h'
  refine ⟨blocks ++ blocks', fun block hblock => ?_, by simp⟩
  rcases List.mem_append.mp hblock with hblock | hblock
  · exact hblocks block hblock
  · exact hblocks' block hblock

theorem single {block : List Call} (h : QuantumBlock block) (hc : c' = block.foldl enter c) :
    c.EntersBlocks c' :=
  ⟨[block], by simpa using h, by simpa using hc⟩

theorem foldl {α : Type} {f : Circuit → α → Circuit} (h : ∀ c a, EntersBlocks c (f c a))
    (as : List α) (c : Circuit) : c.EntersBlocks (as.foldl f c) := by
  induction as generalizing c with
  | nil => exact refl c
  | cons a as ih => exact (h c a).trans (ih (f c a))

/-- Each bit that is new has its source. -/
theorem quantumChange (h : c.EntersBlocks c') : c.QuantumChange c' := by
  obtain ⟨blocks, hblocks, rfl⟩ := h
  have hcall : ∀ call ∈ blocks.flatten,
      ∃ block, QuantumBlock block ∧ call ∈ block ∧ block <:+: blocks.flatten := by
    intro call hcall
    obtain ⟨block, hblock, hmem⟩ := List.mem_flatten.mp hcall
    exact ⟨block, hblocks block hblock, hmem, List.infix_of_mem_flatten hblock⟩
  have hquantum : ∀ call ∈ blocks.flatten,
      ¬call.operation.IsClassical ∧ call.condition = none := by
    intro call hmem
    obtain ⟨block, hblock, hmem, -⟩ := hcall call hmem
    exact hblock.call hmem
  refine ⟨blocks.flatten, calls_foldl_enter c _, hquantum, fun b => ?_⟩
  rw [mem_bits_foldl_enter]
  refine or_congr_right ⟨?_, ?_⟩
  · rintro (⟨call, hmem, hadd⟩ | ⟨before, call, after, hnew, hall, i, hi, rfl⟩)
    · obtain ⟨block, hblock, hmem, hwithin⟩ := hcall call hmem
      exact BitSource.of_block hblock hmem hadd hwithin c
    · have hnone := (hquantum call (by simp [hnew])).2
      obtain ⟨operation, condition⟩ := call
      subst hall hnone
      exact .all hnew hi
  · rintro (h | h | ⟨hnew, hi⟩)
    · exact .inl ⟨_, h.subset (List.mem_pair.mpr (.inr rfl)), rfl⟩
    · exact .inl ⟨_, h.subset (List.mem_pair.mpr (.inl rfl)), rfl⟩
    · exact .inr ⟨_, _, _, hnew, rfl, _, hi, rfl⟩

end EntersBlocks

theorem enter_of_record {operation : Operation} (h : operation.IsQuantum ∨ operation.IsBox)
    (hall : operation ≠ .measureAll) (c : Circuit) :
    c.record operation none = c.enter ⟨operation, none⟩ := by
  cases operation with
  | measureAll => exact absurd rfl hall
  | addQubit q => rcases h with h | h <;> exact h.elim
  | addBit b => rcases h with h | h <;> exact h.elim
  | _ => rfl

theorem entersBlocks_record (operation : Operation) (h : operation.IsQuantum ∨ operation.IsBox)
    (hall : operation ≠ .measureAll) (c : Circuit) : c.EntersBlocks (c.record operation none) :=
  .single (.operation operation h) (enter_of_record h hall c)

theorem entersBlocks_measureAll (c : Circuit) : c.EntersBlocks c.measureAll :=
  .single (.operation .measureAll (.inl trivial)) rfl

theorem entersBlocks_ensureQubit (c : Circuit) (q : Qubit) : c.EntersBlocks (c.ensureQubit q) := by
  unfold ensureQubit
  split
  · exact .refl c
  · unfold ensureBit
    split
    · exact .single (.qubit q) rfl
    · exact .single (.paired q) rfl

theorem entersBlocks_ensureQubits (c : Circuit) (qs : List Qubit) :
    c.EntersBlocks (c.ensureQubits qs) :=
  .foldl entersBlocks_ensureQubit qs c

/-- A qubit is measured into a bit that is there or is added for it. -/
theorem entersBlocks_measure (c : Circuit) (q : Qubit) (b : Bit) :
    c.EntersBlocks ((c.ensureBit b).record (.measure q b) none) := by
  unfold ensureBit
  split
  · exact entersBlocks_record (.measure q b) (.inl trivial) (by simp) c
  · exact .single (.outcome q b) rfl

end Quantum

end Circuit

namespace Lower

open Program Outcome Circuit

section Actions

variable {scope : Scope} {target : Target} {count : Option Int} {instruction : Instruction}
  {cs cs' : Circuits} {targets : Targets}

theorem classicalCall_permits : PermitsClassical ClassicalCall := ⟨.addBit, .operation⟩

/-- Without a qubit among its targets a gate call makes no box. -/
theorem runCall_classical (h : targets.qubits = []) (call : GateCall) (cs : Circuits) :
    (runCall makeBox scope targets none call cs).Ensures (cs.Keeps ClassicalCall) := by
  have hnoBox : runCall makeBox scope targets none call cs =
      runCall noBox scope targets none call cs := by
    unfold runCall
    cases hprepare : prepare scope targets call with
    | error e => rfl
    | ok p =>
      refine Prepared.run_eq_noBox (fun hbox => ?_) makeBox targets none cs
      exact (prepare_rules hprepare).1 (by simp [hbox]) h
  rw [hnoBox]
  exact runCall_keeps (fun hne => absurd h hne) (fun _ => classicalCall_permits) (.none _)

/-- Calls are entered on behalf of qubits, into the main circuit and into boxes that are new. -/
structure Circuits.GrowsByBlocks (cs cs' : Circuits) : Prop where
  main : cs.main.EntersBlocks cs'.main
  boxes : ∃ boxes, cs'.boxes = cs.boxes ++ boxes ∧
    ∀ box ∈ boxes, ∃ width, (Circuit.blank width).EntersBlocks box

namespace Circuits.GrowsByBlocks

theorem onlyMain {c : Circuit} (h : cs.main.EntersBlocks c) :
    cs.GrowsByBlocks { cs with main := c } :=
  ⟨h, [], by simp, by simp⟩

theorem refl (cs : Circuits) : cs.GrowsByBlocks cs := onlyMain (.refl cs.main)

theorem trans {cs'' : Circuits} (h : cs.GrowsByBlocks cs') (h' : cs'.GrowsByBlocks cs'') :
    cs.GrowsByBlocks cs'' := by
  obtain ⟨boxes, hboxes, hnew⟩ := h.boxes
  obtain ⟨boxes', hboxes', hnew'⟩ := h'.boxes
  refine ⟨h.main.trans h'.main, boxes ++ boxes', ?_, fun box hbox => ?_⟩
  · rw [hboxes', hboxes, List.append_assoc]
  · rcases List.mem_append.mp hbox with hbox | hbox
    · exact hnew box hbox
    · exact hnew' box hbox

end Circuits.GrowsByBlocks

theorem onMain_growsByBlocks {step : Circuit → Outcome Circuit}
    (h : (step cs.main).Ensures cs.main.EntersBlocks) :
    (onMain step cs).Ensures cs.GrowsByBlocks := by
  unfold onMain
  exact ensures_map.mpr (h.mono fun c hc => .onlyMain hc)

theorem GateRule.apply_entersBlocks (rule : GateRule) (angle : AngleReader) (args : List Value)
    (q : Qubit) (c : Circuit) : (rule.apply angle args none q c).Ensures c.EntersBlocks :=
  rule.apply_ensures angle args none q (entersBlocks_ensureQubits c) fun partners _ =>
    (entersBlocks_ensureQubits c partners).trans
      (entersBlocks_record (.gate _ _ _) (.inl trivial) (by simp) _)

theorem measureQubits_entersBlocks (args : List Value) (targets : List Qubit) (c : Circuit) :
    c.EntersBlocks (measureQubits args none targets c) := by
  unfold measureQubits
  split
  · exact entersBlocks_measureAll c
  · exact .foldl (fun c q => entersBlocks_measure c q _) targets c

theorem addPhase_entersBlocks {angle : AngleReader} {args : List Value}
    {change : Circuit → Circuit} (h : addPhase angle args none = .ok change) (c : Circuit) :
    c.EntersBlocks (change c) := by
  unfold addPhase at h
  cases args with
  | nil => simp at h
  | cons v args =>
    cases hv : angle v with
    | error e => simp [hv, Except.map] at h
    | ok phase =>
      obtain rfl : (fun c : Circuit => c.record (.phase phase) none) = change := by
        simpa [hv, Except.map] using h
      exact entersBlocks_record (.phase phase) (.inl trivial) (by simp) c

variable {box : BoxMaker} (hbox : ∀ body qs cs, (box body qs cs).Ensures cs.GrowsByBlocks)

include hbox

theorem QubitRule.run_growsByBlocks (rule : QubitRule) (args : List Value) (qs : List Qubit)
    (cs : Circuits) : (rule.run box args none qs cs).Ensures cs.GrowsByBlocks := by
  cases rule with
  | each rule =>
    refine onMain_growsByBlocks (Ensures.runEach (fun q _ c hc => ?_) (.refl cs.main))
    exact (rule.apply_entersBlocks numberAngle args q c).mono fun _ h => hc.trans h
  | measure =>
    change (onMain (fun c => done (measureQubits args none qs c)) cs).Ensures _
    exact onMain_growsByBlocks (ensures_done.mpr (measureQubits_entersBlocks args qs cs.main))
  | barrier =>
    refine onMain_growsByBlocks (.ofCheck (.refl cs.main) fun change h => ?_)
    obtain rfl : (fun c : Circuit => c.record (.barrier qs) none) = change := by
      simpa [placeBarrier] using h
    exact entersBlocks_record (.barrier qs) (.inl trivial) (by simp) cs.main
  | phase =>
    exact onMain_growsByBlocks
      (.ofCheck (.refl cs.main) fun change h => addPhase_entersBlocks h cs.main)
  | box =>
    simp only [QubitRule.run]
    cases boxBody args none with
    | error e => exact ensures_failed.mpr (.refl cs)
    | ok body => exact hbox body qs cs

theorem runCall_growsByBlocks (h : targets.bits = []) (call : GateCall) (cs : Circuits) :
    (runCall box scope targets none call cs).Ensures cs.GrowsByBlocks := by
  unfold runCall
  cases hprepare : prepare scope targets call with
  | error e => exact ensures_failed.mpr (.refl cs)
  | ok p =>
    have hbit : p.bitRule = none := by
      by_contra hne
      exact (prepare_rules hprepare).2 hne h
    obtain ⟨args, qubitRule, bitRule⟩ := p
    subst hbit
    refine Ensures.andThen ?_ fun cs₁ hcs₁ => ensures_done.mpr hcs₁
    cases qubitRule with
    | none => exact ensures_done.mpr (.refl cs)
    | some rule =>
      have hens : cs.GrowsByBlocks { cs with main := cs.main.ensureQubits targets.qubits } :=
        .onlyMain (entersBlocks_ensureQubits cs.main targets.qubits)
      exact (rule.run_growsByBlocks hbox args targets.qubits _).mono fun cs₁ h => hens.trans h

omit hbox

theorem runBody_growsByBlocks (body : List Part) (width : Nat) :
    (runBody body width).Ensures (Circuits.GrowsByBlocks ⟨.blank width, []⟩) := by
  refine Ensures.runPipelineWith (fun call cs hcs => ?_) body (.refl _)
  have hnoBox : ∀ body qs cs, (noBox body qs cs).Ensures cs.GrowsByBlocks :=
    fun _ _ cs => ensures_done.mpr (.refl cs)
  exact (runCall_growsByBlocks hnoBox rfl call cs).mono fun cs' h => hcs.trans h

/-- A box grows from a blank circuit, and is applied as one operation if it is done. -/
theorem makeBox_growsByBlocks (body : List Part) (qs : List Qubit) (cs : Circuits) :
    (makeBox body qs cs).Ensures cs.GrowsByBlocks := by
  have hbody := runBody_growsByBlocks body qs.length
  unfold makeBox
  cases hrun : runBody body qs.length with
  | endless => exact ensures_endless
  | failed e inner =>
    have hinner := ensures_failed.mp (hrun ▸ hbody)
    refine ensures_failed.mpr ⟨.refl cs.main, [inner.main], rfl, ?_⟩
    simpa using ⟨qs.length, hinner.main⟩
  | done inner =>
    have hinner := ensures_done.mp (hrun ▸ hbody)
    refine ensures_done.mpr ⟨?_, [inner.main], rfl, ?_⟩
    · exact (entersBlocks_ensureQubits cs.main qs).trans
        (entersBlocks_record (.box (cs.boxes.length + 1) qs) (.inr trivial) (by simp) _)
    · simpa using ⟨qs.length, hinner.main⟩

theorem Passes.keeps_classical (h : Passes scope target count instruction cs cs')
    (hq : ∀ entities, resolveTarget scope cs.main target = .ok entities →
      ∀ q, .qubit q ∉ entities) : cs.Keeps ClassicalCall cs' := by
  refine h.keeps (.refl cs) fun entities htarget call cs₁ hcs₁ => ?_
  have hqubits : (Targets.ofEntities entities).qubits = [] :=
    List.eq_nil_iff_forall_not_mem.mpr fun q hmem =>
      hq entities htarget q (mem_qubits_ofEntities.mp hmem)
  exact (runCall_classical hqubits call cs₁).mono fun cs₂ h => hcs₁.trans h

theorem Passes.growsByBlocks (h : Passes scope target count instruction cs cs')
    (hb : ∀ entities, resolveTarget scope cs.main target = .ok entities →
      ∀ b, .bit b ∉ entities) : cs.GrowsByBlocks cs' := by
  refine h.keeps (.refl cs) fun entities htarget call cs₁ hcs₁ => ?_
  have hbits : (Targets.ofEntities entities).bits = [] :=
    List.eq_nil_iff_forall_not_mem.mpr fun b hmem =>
      hb entities htarget b (mem_bits_ofEntities.mp hmem)
  exact (runCall_growsByBlocks makeBox_growsByBlocks hbits call cs₁).mono fun cs₂ h => hcs₁.trans h

/-- All along its way, also if it fails or has no end, an action without a qubit among its targets
only adds bits and operates on bits: the qubits and the boxes stay. An action without a bit among
its targets makes no operation on bits, in the circuit or in the boxes that it begins, and a bit
that is new belongs to a qubit that is added with it, is added for an outcome, or comes along when
all qubits are measured. -/
theorem actions_separate (h : Passes scope target count instruction cs cs') :
    ((∀ entities, resolveTarget scope cs.main target = .ok entities → ∀ q, .qubit q ∉ entities) →
      cs.main.ClassicalChange cs'.main ∧ cs'.boxes = cs.boxes) ∧
    ((∀ entities, resolveTarget scope cs.main target = .ok entities → ∀ b, .bit b ∉ entities) →
      cs.main.QuantumChange cs'.main ∧ ∃ boxes, cs'.boxes = cs.boxes ++ boxes ∧
        ∀ box ∈ boxes, ∃ width, (Circuit.blank width).QuantumChange box) := by
  constructor
  · intro hq
    have hkeeps := h.keeps_classical hq
    exact ⟨hkeeps.main.classicalChange, hkeeps.boxes⟩
  · intro hb
    have hgrows := h.growsByBlocks hb
    obtain ⟨boxes, hboxes, hnew⟩ := hgrows.boxes
    refine ⟨hgrows.main.quantumChange, boxes, hboxes, fun box hbox => ?_⟩
    obtain ⟨width, hwidth⟩ := hnew box hbox
    exact ⟨width, hwidth.quantumChange⟩

end Actions

/-- A bit, a pipeline to be boxed, and two pipelines that fail at their last gate call. -/
def separateScope : Scope :=
  [("b", .bit (.default 0)),
    ("bell", .pipeline [.gate ⟨"H", []⟩, .gate ⟨"CX", [.number (.int 2)]⟩]),
    ("prepare", .pipeline [.gate ⟨"CIRCBOX", [.name "bell"]⟩, .gate ⟨"M", []⟩, .gate ⟨"NOT", []⟩]),
    ("clear", .pipeline [.gate ⟨"SET", [.number (.int 0)]⟩, .gate ⟨"X", []⟩])]

/-- What is left of preparing two qubits, up to the call that fails. -/
def preparedHalfway : Circuits :=
  ⟨⟨0, [⟨.addQubit (.default 0), none⟩, ⟨.addBit (.default 0), none⟩,
      ⟨.addQubit (.default 1), none⟩, ⟨.addBit (.default 1), none⟩,
      ⟨.box 1 [.default 0, .default 1], none⟩, ⟨.measureAll, none⟩],
      [.default 0, .default 1], [.default 0, .default 1]⟩,
    [⟨2, [⟨.gate .h [] [.default 0], none⟩, ⟨.addQubit (.default 2), none⟩,
      ⟨.addBit (.default 2), none⟩, ⟨.gate .cx [] [.default 2, .default 0], none⟩],
      [.default 0, .default 1, .default 2], [.default 2]⟩]⟩

/-- What is left of clearing a bit, up to the call that fails. -/
def clearedHalfway : Circuits :=
  ⟨⟨0, [⟨.addBit (.default 0), none⟩, ⟨.bitSet false (.default 0), none⟩], [], [.default 0]⟩, []⟩

theorem actions_separate_halfway :
    Passes separateScope (.list [.number (.int 0), .number (.int 1)]) (some 2) (.name "prepare")
      ⟨.blank 0, []⟩ preparedHalfway ∧
    (Circuit.blank 0).QuantumChange preparedHalfway.main ∧
    Passes separateScope (.name "b") (some 2) (.name "clear") ⟨.blank 0, []⟩ clearedHalfway ∧
    (Circuit.blank 0).ClassicalChange clearedHalfway.main := by
  have hprepared : Passes separateScope (.list [.number (.int 0), .number (.int 1)]) (some 2)
      (.name "prepare") ⟨.blank 0, []⟩ preparedHalfway := .leaves (by decide)
  have hcleared : Passes separateScope (.name "b") (some 2) (.name "clear") ⟨.blank 0, []⟩
      clearedHalfway := .leaves (by decide)
  refine ⟨hprepared, ((actions_separate hprepared).2 fun entities htarget b => ?_).1, hcleared,
    ((actions_separate hcleared).1 fun entities htarget q => ?_).1⟩
  · obtain rfl : [.qubit (.default 0), .qubit (.default 1)] = entities := Except.ok.inj htarget
    simp
  · obtain rfl : [.bit (.default 0)] = entities := Except.ok.inj htarget
    simp

end Lower

end GateScript
