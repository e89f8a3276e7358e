/-! The gates that the editor knows about, in the order of their names. -/
namespace GateScript.Editor

/-- A gate with the way it is written and what it does. -/
structure Entry where
  name : String
  signature : String
  description : String
  deriving DecidableEq, Repr

def catalogue : List Entry :=
  [⟨"BARRIER", "BARRIER ...",
      "**Barrier** — prevents optimisation across this point in the circuit"⟩,
    ⟨"CCX", "CCX c0 c1 target",
      "**Toffoli** (CCNOT) — flips target when both controls are |1⟩"⟩,
    ⟨"CCZ", "CCZ c0 c1 target",
      "**Controlled-Controlled-Z** — applies Z when both controls are |1⟩"⟩,
    ⟨"CH", "CH control target",
      "**Controlled-H** — applies Hadamard when control is |1⟩"⟩,
    ⟨"CSWAP", "CSWAP c q0 q1",
      "**Fredkin** (Controlled-SWAP) — swaps two qubits if control is |1⟩"⟩,
    ⟨"CX", "CX control target",
      "**CNOT** — flips target when control is |1⟩"⟩,
    ⟨"CY", "CY control target",
      "**Controlled-Y** — applies Y when control is |1⟩"⟩,
    ⟨"CZ", "CZ control target",
      "**Controlled-Z** — phase flip when both qubits are |1⟩"⟩,
    ⟨"H", "H qubit",
      "**Hadamard** — creates superposition: |0⟩ → |+⟩, |1⟩ → |−⟩"⟩,
    ⟨"ISWAP", "ISWAP q0 q1",
      "**iSWAP** — swaps two qubits with a phase"⟩,
    ⟨"MEASURE", "MEASURE qubit",
      "**Measure** — collapses qubit to a classical bit"⟩,
    ⟨"RESET", "RESET qubit",
      "**Reset** — resets qubit to the |0⟩ state"⟩,
    ⟨"RX", "RX(θ) qubit",
      "**RX(θ)** — rotation around X-axis by angle θ (radians)"⟩,
    ⟨"RY", "RY(θ) qubit",
      "**RY(θ)** — rotation around Y-axis by angle θ (radians)"⟩,
    ⟨"RZ", "RZ(θ) qubit",
      "**RZ(θ)** — rotation around Z-axis by angle θ (radians)"⟩,
    ⟨"S", "S qubit",
      "**S gate** — phase rotation by π/2 around Z"⟩,
    ⟨"SDG", "SDG qubit",
      "**S† gate** — adjoint S, phase rotation by −π/2"⟩,
    ⟨"SWAP", "SWAP q0 q1",
      "**SWAP** — exchanges the quantum states of two qubits"⟩,
    ⟨"SX", "SX qubit",
      "**√X gate** — square root of X"⟩,
    ⟨"SXDG", "SXDG qubit",
      "**√X† gate** — adjoint of √X"⟩,
    ⟨"T", "T qubit",
      "**T gate** — phase rotation by π/4 around Z"⟩,
    ⟨"TDG", "TDG qubit",
      "**T† gate** — adjoint T, phase rotation by −π/4"⟩,
    ⟨"X", "X qubit",
      "**Pauli-X** (NOT) — bit-flip: |0⟩ ↔ |1⟩"⟩,
    ⟨"Y", "Y qubit",
      "**Pauli-Y** — combined bit and phase flip"⟩,
    ⟨"Z", "Z qubit",
      "**Pauli-Z** — phase flip: |1⟩ → −|1⟩"⟩]

def findEntry? (name : String) : Option Entry := catalogue.find? (·.name == name)

end GateScript.Editor
