import GateScript.Compile
import GateScript.Output.Json
import GateScript.Output.Language
import GateScript.Text.Lines

/-!
Writing circuits in other languages.

The conversion itself is the work of packages that need not be there. A `Toolkit` says what a
package makes of the circuits; what is left to do is to put that into the text of the language.
-/
namespace GateScript.Output

open Lower

/-- What a package makes of the circuits. -/
inductive Rendition where
  | text (text : String)
  | data (value : Json)
  | nothing

/-- The packages at hand, by language. -/
abbrev Toolkit := Language → Option (Circuits → Rendition)

/-- Why a program is not written in a language. -/
inductive OutputError where
  | unknownLanguage (name : String)
  | text (error : TextError)
  | lower (error : LowerError)
  | endless
  | missingPackage (language : Language)
  | missingLibrary (library : Library)
  | unsupported
  deriving DecidableEq, Repr

/-- How a missing package is reported. -/
def missingPackageText : Language → String
  | .cirq => "Cirq output requires pytket-cirq. Install it with: pip install spinachlang"
  | .quil =>
    "Quil output requires pytket-pyquil (Python <=3.12 only). " ++
      "Install it with: pip install \"spinachlang[pyquil]\"  " ++
      "Note: pytket-pyquil's transitive deps quil==0.17.0 and " ++
      "qcs-sdk-python==0.20.1 use pyo3==0.20.x which does not " ++
      "support Python 3.13+."
  | .qir => "QIR output requires pytket-qir. Install it with: pip install spinachlang"
  | .braket => "Braket output requires pytket-braket. Install it with: pip install spinachlang"
  | .json | .latex | .qasm => "Output requires pytket. Install it with: pip install spinachlang"

def missingLibraryText : Library → String
  | .tket => "tket objects require pytket. Install it with: pip install spinachlang"
  | .cirq => "cirq objects require pytket-cirq. Install it with: pip install spinachlang"
  | .braket => "Braket objects require pytket-braket. Install it with: pip install spinachlang"
  | .pyquil => "PyQuil objects require pytket-pyquil. Install it with: pip install spinachlang"
  | .qiskit => "Qiskit objects require pytket-qiskit. Install it with: pip install spinachlang"

/-- The text of an error that concerns languages and packages. -/
def OutputError.message : OutputError → Option String
  | .unknownLanguage name =>
    some ("Unknown target language " ++ Text.quoted name ++ ". Valid options: " ++
      ", ".intercalate (Language.every.map Language.name))
  | .text _ => none
  | .lower e => e.message
  | .endless => none
  | .missingPackage language => some (missingPackageText language)
  | .missingLibrary library => some (missingLibraryText library)
  | .unsupported =>
    some ("pytket_to_qir returned None — the circuit may contain operations " ++
      "not yet supported by the QIR profile. Try adding measurements.")

/-- What was converted, as a text of the language. -/
def finish (language : Language) : Rendition → Except OutputError String
  | .data value => .ok value.text
  | .nothing => if language = .qir then .error .unsupported else .ok ""
  | .text s =>
    match language with
    | .json => .ok (Json.string s).text
    | .cirq => .ok ("import cirq\n\ncircuit = " ++ s ++ "\nprint(circuit)")
    | .latex => .ok (String.ofList (Text.unifyNewlines s.toList))
    | _ => .ok s

/-- The circuits of a text that is to be written. -/
def circuitsFor (text : String) : Except OutputError Circuits :=
  match circuitsOfText text with
  | .error e => .error (.text e)
  | .ok (.done circuits) => .ok circuits
  | .ok (.failed e _) => .error (.lower e)
  | .ok .endless => .error .endless

/-- Writes a program in a language. The package is asked for when the circuits are there. -/
def compile (toolkit : Toolkit) (text languageName : String) : Except OutputError String :=
  match Language.ofName? languageName with
  | none => .error (.unknownLanguage languageName)
  | some language =>
    match circuitsFor text with
    | .error e => .error e
    | .ok circuits =>
      match toolkit language with
      | none => .error (.missingPackage language)
      | some convert => finish language (convert circuits)

/-- Turns a program into an object of a library. The library has to be there before the program is
looked at; the one that circuits come in always is. -/
def toLibrary (present : Bool) (library : Library) (text : String) : Except OutputError Circuits :=
  if library = .tket || present then circuitsFor text else .error (.missingLibrary library)

end GateScript.Output
