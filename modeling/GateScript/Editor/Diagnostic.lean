import GateScript.Source.Parse
import GateScript.Text.Lines

/-! What is wrong with a text, for an editor. Lines and characters count from zero here. -/
namespace GateScript.Editor

open Source

/-- From `start` up to `stop`, on one line. -/
structure Span where
  line : Nat
  start : Nat
  stop : Nat
  deriving DecidableEq, Repr

/-- An error in a text. -/
structure Diagnostic where
  message : String
  span : Span
  deriving DecidableEq, Repr

def expectation (expected : List Terminal) : String :=
  if expected.isEmpty then ""
  else ". Expected one of: " ++ ", ".intercalate (expected.map Terminal.label)

/-- The character at a place of a text, by its lines. -/
def characterAt? (text : String) (line column : Nat) : Option Char :=
  (Text.lines text.toList)[line]?.bind (·[column]?)

def tokenMessage (text : String) (expected : List Terminal) : String :=
  "Unexpected token '" ++ text ++ "'" ++ expectation expected

/-- A parse error, placed in the text. -/
def diagnosticOf (text : String) : ParseError → Diagnostic
  | .character _ p expected =>
    let line := p.line - 1
    let column := p.column - 1
    let shown := match characterAt? text line column with
      | some c => String.singleton c
      | none => ""
    ⟨"Unexpected character '" ++ shown ++ "'" ++ expectation expected,
      ⟨line, column, column + 1⟩⟩
  | .token t expected =>
    ⟨tokenMessage t.text expected, ⟨t.start.line - 1, t.start.column - 1, t.stop.column - 1⟩⟩
  | .ended last expected =>
    let t := endToken last
    ⟨tokenMessage t.text expected, ⟨t.start.line - 1, t.start.column - 1, t.stop.column - 1⟩⟩

/-- The diagnostics of a text. -/
def diagnose (text : String) : List Diagnostic :=
  match parse text with
  | .ok _ => []
  | .error e => [diagnosticOf text e]

/-- The diagnostic of a document that is no text. -/
def internalError : Diagnostic :=
  ⟨"Internal parser error; see server logs for details.", ⟨0, 0, 0⟩⟩

/-- The diagnostics of a document, which may fail to be a text. -/
def diagnoseDocument : Option String → List Diagnostic
  | some text => diagnose text
  | none => [internalError]

end GateScript.Editor
