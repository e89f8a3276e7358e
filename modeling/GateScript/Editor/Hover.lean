import GateScript.Editor.Catalogue
import GateScript.Editor.Diagnostic
import GateScript.Text.Alphanumeric
import GateScript.Text.Upper

/-! What the editor shows about the word under the cursor. -/
namespace GateScript.Editor

/-- A text in a markup language, for the span that it is about. -/
structure Hover where
  text : String
  span : Span
  deriving DecidableEq, Repr

/-- The gate that a word names, in upper or lower case. -/
def entryOfWord? (word : List Char) : Option Entry := (Text.upper? word).bind findEntry?

def Entry.markdown (e : Entry) : String :=
  "```spinach\n" ++ e.signature ++ "\n```\n\n" ++ e.description

/-- Why there is no answer about a position. -/
inductive HoverError where
  /-- The offset is beyond the end of the line. -/
  | pastEnd
  deriving DecidableEq, Repr

/-- Where the word begins that goes up to an offset. The characters before the offset are looked at
one after the other, backwards. -/
def wordStart (content : List Char) : Nat → Except HoverError Nat
  | 0 => .ok 0
  | i + 1 =>
    match content[i]? with
    | none => .error .pastEnd
    | some c => if Text.isWordChar c then wordStart content i else .ok (i + 1)

/-- Where the word ends that goes on from an offset. -/
def wordStop (content : List Char) (offset : Nat) : Nat :=
  offset + ((content.drop offset).takeWhile Text.isWordChar).length

/-- What to show at a position of a text. -/
def hover (text : String) (line offset : Nat) : Except HoverError (Option Hover) :=
  match (Text.lines text.toList)[line]? with
  | none => .ok none
  | some content =>
    (wordStart content offset).map fun start =>
      let stop := wordStop content offset
      (entryOfWord? ((content.take stop).drop start)).map fun e =>
        ⟨e.markdown, ⟨line, start, stop⟩⟩

end GateScript.Editor
