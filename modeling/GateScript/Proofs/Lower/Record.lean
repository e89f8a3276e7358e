import GateScript.Lower.Run
import GateScript.Proofs.Lower.Outcome
import Mathlib.Data.Finset.Dedup
import Mathlib.Tactic.Tauto

/-!
What lowering does to one circuit: it enters calls, one after the other. A call is admitted if the
units that it names are present, and a unit is added only if it is absent.
-/
namespace GateScript

/-- The qubits that an operation acts on. -/
def Operation.qubits : Operation → List Qubit
  | .gate _ _ qubits => qubits
  | .measure q _ => [q]
  | .barrier qubits => qubits
  | .box _ qubits => qubits
  | _ => []

/-- The bits that an operation reads or writes. -/
def Operation.bits : Operation → List Bit
  | .measure _ b => [b]
  | .bitNot source destination => [source, destination]
  | .bitSet _ destination => [destination]
  | .bitCombine _ left right destination => [left, right, destination]
  | .bitCopy source destination => [source, destination]
  | _ => []

/-- Operations that act on qubits or on the circuit as a whole, save for boxes. -/
def Operation.IsQuantum : Operation → Prop
  | .gate _ _ _ | .measure _ _ | .measureAll | .barrier _ | .phase _ => True
  | _ => False

def Operation.IsBox : Operation → Prop
  | .box _ _ => True
  | _ => False

/-- Operations on bits alone. -/
def Operation.IsClassical : Operation → Prop
  | .bitNot _ _ | .bitSet _ _ | .bitCombine _ _ _ _ | .bitCopy _ _ => True
  | _ => False

/-- The bits of a call, that of its condition included. -/
def Call.bits (call : Call) : List Bit :=
  call.operation.bits ++ (call.condition.map Condition.bit).toList

/-- A call that adds a unit. -/
inductive Call.IsAllocation : Call → Prop
  | addQubit (q : Qubit) : IsAllocation ⟨.addQubit q, none⟩
  | addBit (b : Bit) : IsAllocation ⟨.addBit b, none⟩

/-- Sets of qubits and bits. -/
structure Units where
  qubits : Finset Qubit
  bits : Finset Bit

/-- A call names only units that are present, and adds none of them. -/
structure Units.Admits (units : Units) (call : Call) : Prop where
  qubits : ∀ q ∈ call.operation.qubits, q ∈ units.qubits
  bits : ∀ b ∈ call.bits, b ∈ units.bits
  newQubit : ∀ q, call.operation = .addQubit q → q ∉ units.qubits
  newBit : ∀ b, call.operation = .addBit b → b ∉ units.bits

namespace Circuit

/-- Enters a call. Units are brought in by the calls that add them, and by measuring all qubits. -/
def enter (c : Circuit) (call : Call) : Circuit :=
  match call.operation with
  | .addQubit q =>
    { c.record (.addQubit q) call.condition with qubits := insertOrdered Qubit.precedes q c.qubits }
  | .addBit b =>
    { c.record (.addBit b) call.condition with bits := insertOrdered Bit.precedes b c.bits }
  | .measureAll => { c.measureAll with calls := c.calls ++ [call] }
  | operation => c.record operation call.condition

/-- The units that are present. -/
def units (c : Circuit) : Units := ⟨c.qubits.toFinset, c.bits.toFinset⟩

/-- A circuit becomes another by entering calls of some kind, each admitted when it is entered. -/
inductive Records (allowed : Call → Prop) (c : Circuit) : Circuit → Prop
  | refl : Records allowed c c
  | enter {c' : Circuit} {call : Call} (before : Records allowed c c')
      (admits : c'.units.Admits call) (kind : allowed call) : Records allowed c (c'.enter call)

/-- One circuit holds all that another does, and more calls after its own. -/
structure Extends (c c' : Circuit) : Prop where
  width : c'.width = c.width
  calls : c.calls <+: c'.calls
  qubits : c.qubits ⊆ c'.qubits
  bits : c.bits ⊆ c'.bits

theorem Extends.refl (c : Circuit) : c.Extends c :=
  ⟨rfl, List.prefix_rfl, List.Subset.refl _, List.Subset.refl _⟩

theorem Extends.trans {c₁ c₂ c₃ : Circuit} (h : c₁.Extends c₂) (h' : c₂.Extends c₃) :
    c₁.Extends c₃ :=
  ⟨h'.width.trans h.width, h.calls.trans h'.calls, List.Subset.trans h.qubits h'.qubits,
    List.Subset.trans h.bits h'.bits⟩

@[simp] theorem calls_enter (c : Circuit) (call : Call) :
    (c.enter call).calls = c.calls ++ [call] := by
  obtain ⟨operation, condition⟩ := call
  cases operation <;> rfl

theorem calls_foldl_enter (c : Circuit) (new : List Call) :
    (new.foldl enter c).calls = c.calls ++ new := by
  induction new generalizing c with
  | nil => simp
  | cons call new ih => simp [ih]

/-- The bits once the given ones are present too. -/
def withBits (bits new : List Bit) : List Bit :=
  new.foldl (fun bs b => if bs.contains b then bs else insertOrdered Bit.precedes b bs) bits

theorem mem_withBits {bits new : List Bit} {b : Bit} :
    b ∈ withBits bits new ↔ b ∈ bits ∨ b ∈ new := by
  unfold withBits
  induction new generalizing bits with
  | nil => simp
  | cons x new ih =>
    rw [List.foldl_cons, ih, List.mem_cons]
    split
    · rename_i hx
      have hx : x ∈ bits := by simpa using hx
      constructor
      · tauto
      · rintro (h | rfl | h)
        · exact .inl h
        · exact .inl hx
        · exact .inr h
    · rw [mem_insertOrdered]
      tauto

theorem bits_measureAll (c : Circuit) :
    c.measureAll.bits = withBits c.bits ((List.range c.qubits.length).map Bit.default) := rfl

theorem extends_enter (c : Circuit) (call : Call) : c.Extends (c.enter call) := by
  obtain ⟨operation, condition⟩ := call
  have hcalls : c.calls <+: (c.enter ⟨operation, condition⟩).calls := by simp
  cases operation with
  | addQubit q =>
    refine ⟨rfl, hcalls, fun x hx => ?_, List.Subset.refl _⟩
    exact mem_insertOrdered.mpr (.inr hx)
  | addBit b =>
    refine ⟨rfl, hcalls, List.Subset.refl _, fun x hx => ?_⟩
    exact mem_insertOrdered.mpr (.inr hx)
  | measureAll =>
    refine ⟨rfl, hcalls, List.Subset.refl _, fun x hx => ?_⟩
    exact mem_withBits.mpr (.inl hx)
  | _ => exact ⟨rfl, hcalls, List.Subset.refl _, List.Subset.refl _⟩

namespace Records

variable {allowed : Call → Prop} {c c' c'' : Circuit}

theorem trans (h : Records allowed c c') (h' : Records allowed c' c'') : Records allowed c c'' := by
  induction h' with
  | refl => exact h
  | enter _ admits kind ih => exact .enter ih admits kind

theorem mono {allowed' : Call → Prop} (h : Records allowed c c')
    (hkind : ∀ call, allowed call → allowed' call) : Records allowed' c c' := by
  induction h with
  | refl => exact .refl
  | enter _ admits kind ih => exact .enter ih admits (hkind _ kind)

theorem extension (h : Records allowed c c') : c.Extends c' := by
  induction h with
  | refl => exact .refl c
  | enter _ _ _ ih => exact ih.trans (extends_enter _ _)

/-- What one admitted call keeps, all of them do. -/
theorem keeps {P : Circuit → Prop}
    (henter : ∀ c call, P c → c.units.Admits call → P (c.enter call)) (h : Records allowed c c')
    (hc : P c) : P c' := by
  induction h with
  | refl => exact hc
  | @enter c' call _ admits _ ih => exact henter c' call ih admits

/-- What is recorded is entered call by call. -/
theorem exists_foldl (h : Records allowed c c') :
    ∃ new : List Call, (∀ call ∈ new, allowed call) ∧ c' = new.foldl Circuit.enter c := by
  induction h with
  | refl => exact ⟨[], by simp, rfl⟩
  | @enter c' call _ _ kind ih =>
    obtain ⟨new, hnew, rfl⟩ := ih
    refine ⟨new ++ [call], fun x hx => ?_, by rw [List.foldl_concat]⟩
    rcases List.mem_append.mp hx with hx | hx
    · exact hnew x hx
    · rw [List.mem_singleton.mp hx]
      exact kind

/-- The calls that are entered are of the kind that is allowed. -/
theorem exists_calls (h : Records allowed c c') :
    ∃ new, c'.calls = c.calls ++ new ∧ ∀ call ∈ new, allowed call := by
  obtain ⟨new, hnew, rfl⟩ := h.exists_foldl
  exact ⟨new, calls_foldl_enter c new, hnew⟩

end Records

section Steps

variable {allowed : Call → Prop}

/-- An operation that adds no unit is entered where its operands are present. -/
theorem records_record {c : Circuit} {operation : Operation} {condition : Option Condition}
    (hkind : operation.IsQuantum ∨ operation.IsClassical ∨ operation.IsBox) (hall : operation ≠ .measureAll)
    (hq : ∀ q ∈ operation.qubits, q ∈ c.qubits)
    (hb : ∀ b ∈ (Call.mk operation condition).bits, b ∈ c.bits)
    (h : allowed ⟨operation, condition⟩) : Records allowed c (c.record operation condition) := by
  have admits : c.units.Admits ⟨operation, condition⟩ := by
    refine ⟨by simpa [units] using hq, by simpa [units] using hb, ?_, ?_⟩
    · rintro q rfl
      simp [Operation.IsQuantum, Operation.IsClassical, Operation.IsBox] at hkind
    · rintro b rfl
      simp [Operation.IsQuantum, Operation.IsClassical, Operation.IsBox] at hkind
  have henter : c.enter ⟨operation, condition⟩ = c.record operation condition := by
    cases operation with
    | addQubit q => simp [Operation.IsQuantum, Operation.IsClassical, Operation.IsBox] at hkind
    | addBit b => simp [Operation.IsQuantum, Operation.IsClassical, Operation.IsBox] at hkind
    | measureAll => exact absurd rfl hall
    | _ => rfl
  exact henter ▸ Records.enter .refl admits h

theorem records_measureAll {c : Circuit} (h : allowed ⟨.measureAll, none⟩) :
    Records allowed c c.measureAll := by
  have admits : c.units.Admits ⟨.measureAll, none⟩ := by
    constructor <;> simp [Operation.qubits, Call.bits, Operation.bits]
  exact .enter .refl admits h

theorem records_ensureBit (hadd : ∀ b, allowed ⟨.addBit b, none⟩) (c : Circuit) (b : Bit) :
    Records allowed c (c.ensureBit b) := by
  unfold ensureBit
  split
  · exact .refl
  · rename_i hb
    have admits : c.units.Admits ⟨.addBit b, none⟩ := by
      constructor <;> simp_all [Operation.qubits, Call.bits, Operation.bits, units]
    exact .enter .refl admits (hadd b)

theorem mem_ensureBit (c : Circuit) (b : Bit) : b ∈ (c.ensureBit b).bits := by
  unfold ensureBit
  split
  · rename_i hb
    simpa using hb
  · exact mem_insertOrdered.mpr (.inl rfl)

theorem records_ensureBits (hadd : ∀ b, allowed ⟨.addBit b, none⟩) (c : Circuit) (bs : List Bit) :
    Records allowed c (c.ensureBits bs) := by
  unfold ensureBits
  induction bs generalizing c with
  | nil => exact .refl
  | cons b bs ih => exact (records_ensureBit hadd c b).trans (ih _)

theorem mem_ensureBits (c : Circuit) {bs : List Bit} {b : Bit} (hb : b ∈ bs) :
    b ∈ (c.ensureBits bs).bits := by
  induction bs generalizing c with
  | nil => simp at hb
  | cons x bs ih =>
    rcases List.mem_cons.mp hb with rfl | hb
    · have hrest : Records (fun _ => True) (c.ensureBit b) ((c.ensureBit b).ensureBits bs) :=
        records_ensureBits (fun _ => trivial) _ bs
      exact hrest.extension.bits (mem_ensureBit c b)
    · exact ih (c.ensureBit x) hb

variable (haddBit : ∀ b, allowed ⟨.addBit b, none⟩) (haddQubit : ∀ q, allowed ⟨.addQubit q, none⟩)

include haddBit haddQubit

theorem records_ensureQubit (c : Circuit) (q : Qubit) : Records allowed c (c.ensureQubit q) := by
  unfold ensureQubit
  split
  · exact .refl
  · rename_i hq
    have admits : c.units.Admits ⟨.addQubit q, none⟩ := by
      constructor <;> simp_all [Operation.qubits, Call.bits, Operation.bits, units]
    have hadd : Records allowed c (c.enter ⟨.addQubit q, none⟩) :=
      .enter .refl admits (haddQubit q)
    exact hadd.trans (records_ensureBit haddBit _ _)

theorem records_ensureQubits (c : Circuit) (qs : List Qubit) :
    Records allowed c (c.ensureQubits qs) := by
  unfold ensureQubits
  induction qs generalizing c with
  | nil => exact .refl
  | cons q qs ih => exact (records_ensureQubit haddBit haddQubit c q).trans (ih _)

omit haddBit haddQubit

theorem mem_ensureQubit (c : Circuit) (q : Qubit) : q ∈ (c.ensureQubit q).qubits := by
  unfold ensureQubit
  split
  · rename_i hq
    simpa using hq
  · have hbit : Records (fun _ => True) (c.enter ⟨.addQubit q, none⟩) _ :=
      records_ensureBit (fun _ => trivial) _ (.default q.index)
    exact hbit.extension.qubits (mem_insertOrdered.mpr (.inl rfl))

theorem mem_ensureQubits (c : Circuit) {qs : List Qubit} {q : Qubit} (hq : q ∈ qs) :
    q ∈ (c.ensureQubits qs).qubits := by
  induction qs generalizing c with
  | nil => simp at hq
  | cons x qs ih =>
    rcases List.mem_cons.mp hq with rfl | hq
    · have hrest : Records (fun _ => True) (c.ensureQubit q) ((c.ensureQubit q).ensureQubits qs) :=
        records_ensureQubits (fun _ => trivial) (fun _ => trivial) _ qs
      exact hrest.extension.qubits (mem_ensureQubit c q)
    · exact ih (c.ensureQubit x) hq

end Steps

end Circuit

end GateScript
