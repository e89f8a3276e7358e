/-! Qubits and classical bits. Both are named by a register and an index into it. -/
namespace GateScript

structure Qubit where
  register : String
  index : Nat
  deriving DecidableEq, Repr

structure Bit where
  register : String
  index : Nat
  deriving DecidableEq, Repr

/-- A qubit of the default register. -/
def Qubit.default (index : Nat) : Qubit := ⟨"q", index⟩

/-- A bit of the default register. -/
def Bit.default (index : Nat) : Bit := ⟨"c", index⟩

/-- Units are ordered by register and then by index. -/
def Qubit.precedes (a b : Qubit) : Bool :=
  a.register < b.register || (a.register == b.register && a.index < b.index)

def Bit.precedes (a b : Bit) : Bool :=
  a.register < b.register || (a.register == b.register && a.index < b.index)

end GateScript
