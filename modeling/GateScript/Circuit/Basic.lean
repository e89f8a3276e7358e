import GateScript.Circuit.Operation
import GateScript.Ordered

/-! Circuits: the recorded operations, and the units that are present, in order. -/
namespace GateScript

structure Circuit where
  /-- The number of qubits of the default register that the circuit started with. -/
  width : Nat
  calls : List Call
  qubits : List Qubit
  bits : List Bit
  deriving DecidableEq, Repr

namespace Circuit

/-- A circuit with the qubits `0` to `width - 1` of the default register and no bits. -/
def blank (width : Nat) : Circuit := ⟨width, [], (List.range width).map Qubit.default, []⟩

def record (c : Circuit) (operation : Operation) (condition : Option Condition) : Circuit :=
  { c with calls := c.calls ++ [⟨operation, condition⟩] }

/-- Adds a bit that is not present. -/
def ensureBit (c : Circuit) (b : Bit) : Circuit :=
  if c.bits.contains b then c
  else { c.record (.addBit b) none with bits := insertOrdered Bit.precedes b c.bits }

/-- Adds a qubit that is not present, and the bit for its outcome. -/
def ensureQubit (c : Circuit) (q : Qubit) : Circuit :=
  if c.qubits.contains q then c
  else
    { c.record (.addQubit q) none with qubits := insertOrdered Qubit.precedes q c.qubits }.ensureBit
      (Bit.default q.index)

def ensureBits (c : Circuit) (bs : List Bit) : Circuit := bs.foldl ensureBit c

def ensureQubits (c : Circuit) (qs : List Qubit) : Circuit := qs.foldl ensureQubit c

/-- Measures every qubit, in order, into the bits of the default register from zero on. Those that
are missing come along. -/
def measureAll (c : Circuit) : Circuit :=
  let destinations := (List.range c.qubits.length).map Bit.default
  { c.record .measureAll none with
    bits := destinations.foldl
      (fun bs b => if bs.contains b then bs else insertOrdered Bit.precedes b bs) c.bits }

end Circuit

end GateScript
