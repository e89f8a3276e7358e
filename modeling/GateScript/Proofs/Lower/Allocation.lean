import GateScript.Proofs.Lower.Growth
import GateScript.Proofs.Lower.Stopping
import Mathlib.Data.Finset.Card
import Mathlib.Data.Finset.Range

/-!
Units are there before they are used.

Which units a circuit has can be told from its calls alone. Every call finds the units that it
names, and a unit is added once. Both hold of every circuit of a program whenever the program is
stopped, since they hold of a blank circuit and are kept by every call that is admitted.
-/
namespace GateScript

/-- The unit that an operation adds. -/
def Operation.added? : Operation → Option (Qubit ⊕ Bit)
  | .addQubit q => some (.inl q)
  | .addBit b => some (.inr b)
  | _ => none

/-- The units that are added by calls, one after the other. -/
def addedUnits (calls : List Call) : List (Qubit ⊕ Bit) :=
  calls.filterMap (·.operation.added?)

namespace Units

/-- The units of a circuit that has no calls yet. -/
def initial (width : Nat) : Units := ⟨(Finset.range width).image Qubit.default, ∅⟩

/-- The units after an operation. Measuring all qubits brings in a bit for each of them. -/
def after (units : Units) : Operation → Units
  | .addQubit q => { units with qubits := insert q units.qubits }
  | .addBit b => { units with bits := insert b units.bits }
  | .measureAll =>
    { units with bits := units.bits ∪ (Finset.range units.qubits.card).image Bit.default }
  | _ => units

/-- The units after some calls, told from the calls alone. -/
def replay (width : Nat) (calls : List Call) : Units :=
  calls.foldl (fun units call => units.after call.operation) (initial width)

theorem replay_concat (width : Nat) (calls : List Call) (call : Call) :
    replay width (calls ++ [call]) = (replay width calls).after call.operation := by
  simp [replay]

def Has (units : Units) : Qubit ⊕ Bit → Prop
  | .inl q => q ∈ units.qubits
  | .inr b => b ∈ units.bits

theorem subset_after (units : Units) (operation : Operation) :
    units.qubits ⊆ (units.after operation).qubits ∧ units.bits ⊆ (units.after operation).bits := by
  cases operation <;> simp [after, Finset.subset_union_left]

theorem Has.after {units : Units} {unit : Qubit ⊕ Bit} (h : units.Has unit)
    (operation : Operation) : (units.after operation).Has unit := by
  cases unit with
  | inl q => exact (subset_after units operation).1 h
  | inr b => exact (subset_after units operation).2 h

theorem has_added (units : Units) {operation : Operation} {unit : Qubit ⊕ Bit}
    (h : operation.added? = some unit) : (units.after operation).Has unit := by
  cases operation with
  | addQubit q => cases h; exact Finset.mem_insert_self q units.qubits
  | addBit b => cases h; exact Finset.mem_insert_self b units.bits
  | _ => simp [Operation.added?] at h

theorem Admits.not_has_added {units : Units} {call : Call} (h : units.Admits call)
    {unit : Qubit ⊕ Bit} (hunit : call.operation.added? = some unit) : ¬units.Has unit := by
  obtain ⟨operation, condition⟩ := call
  cases operation with
  | addQubit q => cases hunit; exact h.newQubit q rfl
  | addBit b => cases hunit; exact h.newBit b rfl
  | _ => simp [Operation.added?] at hunit

theorem has_addedUnits (width : Nat) (calls : List Call) :
    ∀ unit ∈ addedUnits calls, (replay width calls).Has unit := by
  induction calls using List.reverseRecOn with
  | nil => simp [addedUnits]
  | append_singleton calls call ih =>
    intro unit hunit
    rw [replay_concat]
    rw [addedUnits, List.filterMap_append, List.mem_append] at hunit
    rcases hunit with hunit | hunit
    · exact (ih unit hunit).after call.operation
    · exact has_added _ (by simpa using hunit)

end Units

namespace Circuit

/-- The units of a circuit are those that its calls account for. Every call names units that are
present when it is entered, and no unit is added that is present or twice. -/
structure Allocated (c : Circuit) : Prop where
  qubits_nodup : c.qubits.Nodup
  bits_nodup : c.bits.Nodup
  units_eq : c.units = .replay c.width c.calls
  admits : ∀ before call later, c.calls = before ++ call :: later →
    (Units.replay c.width before).Admits call
  added_nodup : (addedUnits c.calls).Nodup

theorem allocated_blank (width : Nat) : (blank width).Allocated := by
  have hinjective : Function.Injective Qubit.default := fun i j h => (Qubit.mk.inj h).2
  refine ⟨List.nodup_range.map hinjective, .nil, ?_, by simp [blank], .nil⟩
  refine congrArg₂ Units.mk ?_ rfl
  ext q
  simp [blank]

theorem nodup_insertOrdered {α : Type} {precedes : α → α → Bool} {a : α} {xs : List α}
    (hxs : xs.Nodup) (ha : a ∉ xs) : (insertOrdered precedes a xs).Nodup := by
  induction xs with
  | nil => simp [insertOrdered]
  | cons x xs ih =>
    obtain ⟨hx, hxs⟩ := List.nodup_cons.mp hxs
    obtain ⟨hax, ha⟩ := not_or.mp (mt List.mem_cons.mpr ha)
    rw [insertOrdered]
    split
    · simp_all
    · refine List.nodup_cons.mpr ⟨fun h => ?_, ih hxs ha⟩
      rcases mem_insertOrdered.mp h with h | h
      · exact hax h.symm
      · exact hx h

theorem nodup_withBits {bits new : List Bit} (h : bits.Nodup) : (withBits bits new).Nodup := by
  unfold withBits
  induction new generalizing bits with
  | nil => exact h
  | cons b new ih =>
    rw [List.foldl_cons]
    refine ih ?_
    split
    · exact h
    · rename_i hb
      exact nodup_insertOrdered h (by simpa using hb)

theorem toFinset_insertOrdered {α : Type} [DecidableEq α] (precedes : α → α → Bool) (a : α)
    (xs : List α) : (insertOrdered precedes a xs).toFinset = insert a xs.toFinset := by
  ext x
  simp [mem_insertOrdered]

/-- The units after a call are those that the call accounts for. -/
theorem units_enter {c : Circuit} (h : c.qubits.Nodup) (call : Call) :
    (c.enter call).units = c.units.after call.operation := by
  obtain ⟨operation, condition⟩ := call
  cases operation with
  | addQubit q => simp [enter, units, Units.after, record, toFinset_insertOrdered]
  | addBit b => simp [enter, units, Units.after, record, toFinset_insertOrdered]
  | measureAll =>
    have hcard : c.qubits.toFinset.card = c.qubits.length := List.toFinset_card_of_nodup h
    simp only [enter, units, Units.after, bits_measureAll, hcard]
    refine congrArg₂ Units.mk rfl ?_
    ext b
    simp [mem_withBits]
  | _ => rfl

theorem nodup_enter {c : Circuit} {call : Call} (hq : c.qubits.Nodup) (hb : c.bits.Nodup)
    (hcall : c.units.Admits call) : (c.enter call).qubits.Nodup ∧ (c.enter call).bits.Nodup := by
  obtain ⟨operation, condition⟩ := call
  cases operation with
  | addQubit q =>
    have hnew : q ∉ c.qubits := by simpa [units] using hcall.newQubit q rfl
    exact ⟨nodup_insertOrdered hq hnew, hb⟩
  | addBit b =>
    have hnew : b ∉ c.bits := by simpa [units] using hcall.newBit b rfl
    exact ⟨hq, nodup_insertOrdered hb hnew⟩
  | measureAll => exact ⟨hq, nodup_withBits hb⟩
  | _ => exact ⟨hq, hb⟩

@[simp] theorem width_enter (c : Circuit) (call : Call) : (c.enter call).width = c.width :=
  (extends_enter c call).width

/-- The new call comes last, and finds the units of the circuit as it was. -/
theorem Allocated.admits_enter {c : Circuit} {call : Call} (h : c.Allocated)
    (hcall : c.units.Admits call) {before later : List Call} {x : Call}
    (hx : c.calls ++ [call] = before ++ x :: later) : (Units.replay c.width before).Admits x := by
  rcases List.eq_nil_or_concat later with rfl | ⟨later, last, rfl⟩
  · obtain ⟨rfl, hlast⟩ := List.append_inj' hx rfl
    rw [← (List.cons.inj hlast).1, ← h.units_eq]
    exact hcall
  · rw [List.concat_eq_append, ← List.cons_append, ← List.append_assoc] at hx
    exact h.admits before x later (List.append_inj' hx rfl).1

theorem Allocated.added_nodup_enter {c : Circuit} {call : Call} (h : c.Allocated)
    (hcall : c.units.Admits call) : (addedUnits (c.calls ++ [call])).Nodup := by
  rw [addedUnits, List.filterMap_append]
  refine List.nodup_append.mpr ⟨h.added_nodup, ?_, ?_⟩
  · cases hadd : call.operation.added? <;> simp [hadd]
  · intro old hold new hnew heq
    have hhas := Units.has_addedUnits c.width c.calls old hold
    rw [← h.units_eq, heq] at hhas
    exact hcall.not_has_added (by simpa using hnew) hhas

theorem Allocated.enter {c : Circuit} {call : Call} (h : c.Allocated)
    (hcall : c.units.Admits call) : (c.enter call).Allocated := by
  have hnodup := nodup_enter h.qubits_nodup h.bits_nodup hcall
  refine ⟨hnodup.1, hnodup.2, ?_, ?_, ?_⟩
  · rw [units_enter h.qubits_nodup, width_enter, calls_enter, Units.replay_concat, h.units_eq]
  · intro before x later hx
    rw [calls_enter] at hx
    rw [width_enter]
    exact h.admits_enter hcall hx
  · rw [calls_enter]
    exact h.added_nodup_enter hcall

end Circuit

namespace Lower

open Program Outcome Circuit Config

/-- Circuits that were there go on, and the others come from blank ones. -/
def GoOn (cs cs' : List Circuit) : Prop :=
  ∃ widths, List.Forall₂ Extends (cs ++ List.map .blank widths) cs'

theorem Config.Grows.goOn {allowed : Call → Prop} {c c' : Config} (h : c.Grows allowed c') :
    GoOn c.circuits c'.circuits := by
  obtain ⟨widths, hboxes⟩ := h.boxes
  exact ⟨widths, .cons h.main.extension (hboxes.imp fun _ _ hbox => hbox.extension)⟩

theorem allocated_iterate (nodes : List Node) (n : Nat) :
    ∀ c ∈ (step^[n] (start nodes)).circuits, c.Allocated :=
  forall_circuits_iterate allocated_blank (fun _ _ h hcall => h.enter hcall) nodes n

/-- In every circuit of a program, stopped after any number of steps or left by lowering, the units
that a call names are present when it is entered, and no unit is added that is present. A step
leaves the calls and the units that are there. -/
theorem circuits_allocated (nodes : List Node) :
    (∀ n, (∀ c ∈ (step^[n] (start nodes)).circuits, c.Allocated) ∧
      GoOn (step^[n] (start nodes)).circuits (step^[n + 1] (start nodes)).circuits) ∧
    (lower nodes).Ensures fun cs => (∀ c ∈ cs.main :: cs.boxes, c.Allocated) ∧
      ∃ n, (step^[n] (start nodes)).Halted ∧
        (step^[n] (start nodes)).circuits = cs.main :: cs.boxes := by
  refine ⟨fun n => ⟨allocated_iterate nodes n, (grows_iterate (start_ready nodes) n).goOn⟩, ?_⟩
  intro cs hcs
  obtain ⟨n, hhalted, hcircuits⟩ := lower_halts nodes cs hcs
  refine ⟨?_, n, hhalted, hcircuits⟩
  rw [← hcircuits]
  exact allocated_iterate nodes n

end Lower

end GateScript
