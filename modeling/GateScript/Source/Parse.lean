import GateScript.Source.Reader
import GateScript.Source.Scan

/-!
Reading a whole text.

The scanner tries only the terminals that the reader takes notice of at that point. Where none of
them matches, all terminals are tried, so that the error can name the token that stands there.
-/
namespace GateScript.Source

/-- Why a text is not a program. `expected` lists what could have stood there, in the order of the
labels. -/
inductive ParseError where
  /-- A token that does not fit. -/
  | token (token : Token) (expected : List Terminal)
  /-- The end of the text comes too soon, after the last token if there is one. -/
  | ended (last : Option Token) (expected : List Terminal)
  /-- A character that begins no token. -/
  | character (char : Char) (position : Position) (expected : List Terminal)
  deriving DecidableEq, Repr

/-- The terminals that are tried, as an error names them. The words `q` and `b` count as names. -/
def reported (allowed : List Terminal) : List Terminal :=
  allowed.filter fun t =>
    t != .endOfText && !((t == .q || t == .b) && allowed.contains .name)

/-- The token of the end of the text stands where the last token does. -/
def endToken : Option Token → Token
  | some t => ⟨.endOfText, "", t.start, t.stop⟩
  | none => ⟨.endOfText, "", .origin, .origin⟩

/-- A match as a token. -/
def Match.token (m : Match) (t : Terminal) (p : Position) : Token :=
  ⟨t, String.ofList m.lexeme, p, p.after m.lexeme⟩

/-- Reads on from a position. `last` is the last token read. -/
def readFrom (r : Reader) (last : Option Token) (start : Position) (cs : List Char) :
    Except ParseError (List Statement) :=
  match _hs : skip false start cs with
  | (_, []) =>
    match r.feed (endToken last) with
    | .whole statements => .ok statements
    | .reading r => .error (.ended last r.stage.follow)
    | .refused expected => .error (.ended last expected)
  | (p, c :: rest) =>
    match _hm : scan r.stage.follow (c :: rest) with
    | some (terminal, m) =>
      let t := m.token terminal p
      match r.feed t with
      | .reading r => readFrom r (some t) t.stop m.rest
      | .whole statements => .ok statements
      | .refused expected => .error (.token t expected)
    | none =>
      let expected := reported r.stage.follow
      match scan Terminal.every (c :: rest) with
      | some (terminal, m) => .error (.token (m.token terminal p) expected)
      | none => .error (.character c p expected)
termination_by cs.length
decreasing_by
  have hskip := length_skip_le false start cs
  rw [_hs] at hskip
  exact Nat.lt_of_lt_of_le (scan_shorter _hm) hskip

/-- The statements of a text. -/
def parse (text : String) : Except ParseError (List Statement) :=
  readFrom ⟨[], .start⟩ none .origin text.toList

end GateScript.Source
