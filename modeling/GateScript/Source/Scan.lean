import GateScript.Source.Token
import GateScript.Text.Digit

/-!
Reading one token off the front of a text. Which terminals are tried depends on the caller, since
the words `if`, `else`, `q` and `b` are reserved only where the grammar has a use for them.
-/
namespace GateScript.Source

/-- What a terminal matched and what follows it. -/
structure Match where
  lexeme : List Char
  rest : List Char
  deriving DecidableEq, Repr

/-- A character of one class and as many of another as follow. -/
def scanWord (first more : Char → Bool) : List Char → Option Match
  | [] => none
  | c :: cs => if first c then some ⟨c :: cs.takeWhile more, cs.dropWhile more⟩ else none

def isNameChar (c : Char) : Bool := c.isAlphanum || c == '_'

def isUpperNameChar (c : Char) : Bool := c.isUpper || c.isDigit

/-- A point belongs to a number only if a digit follows it. -/
def scanFraction (whole : List Char) : List Char → Match
  | '.' :: cs =>
    if (cs.takeWhile Text.isDigit).isEmpty then ⟨whole, '.' :: cs⟩
    else ⟨whole ++ '.' :: cs.takeWhile Text.isDigit, cs.dropWhile Text.isDigit⟩
  | cs => ⟨whole, cs⟩

def scanNumber (cs : List Char) : Option Match :=
  if (cs.takeWhile Text.isDigit).isEmpty then none
  else some (scanFraction (cs.takeWhile Text.isDigit) (cs.dropWhile Text.isDigit))

/-- The line feeds at the front, each with the carriage return before it. -/
def newlineRun : List Char → List Char
  | '\n' :: cs => '\n' :: newlineRun cs
  | '\r' :: '\n' :: cs => '\r' :: '\n' :: newlineRun cs
  | _ => []

def scanNewlines (cs : List Char) : Option Match :=
  if (newlineRun cs).isEmpty then none else some ⟨newlineRun cs, cs.drop (newlineRun cs).length⟩

def scanLiteral (literal cs : List Char) : Option Match :=
  if literal.isPrefixOf cs then some ⟨literal, cs.drop literal.length⟩ else none

def Terminal.scan : Terminal → List Char → Option Match
  | .name => scanWord Char.isLower isNameChar
  | .upperName => scanWord Char.isUpper isUpperNameChar
  | .number => scanNumber
  | .newline => scanNewlines
  | .reverseArrow => scanLiteral ['<', '-']
  | .all => scanLiteral ['*']
  | .ifWord => scanLiteral ['i', 'f']
  | .elseWord => scanLiteral ['e', 'l', 's', 'e']
  | .colon => scanLiteral [':']
  | .q => scanLiteral ['q']
  | .b => scanLiteral ['b']
  | .bar => scanLiteral ['|']
  | .openParen => scanLiteral ['(']
  | .closeParen => scanLiteral [')']
  | .comma => scanLiteral [',']
  | .arrow => scanLiteral ['-', '>']
  | .openBracket => scanLiteral ['[']
  | .closeBracket => scanLiteral [']']
  | .endOfText => fun _ => none

/-- A name that is just `q` or `b` is that word where the word is allowed. -/
def reserve (allowed : List Terminal) (t : Terminal) (lexeme : List Char) : Terminal :=
  if t = .name && lexeme = ['q'] && allowed.contains .q then .q
  else if t = .name && lexeme = ['b'] && allowed.contains .b then .b
  else t

/-- The first of the allowed terminals that matches. -/
def scan (allowed : List Terminal) (cs : List Char) : Option (Terminal × Match) :=
  Terminal.tried.findSome? fun t =>
    if allowed.contains t then (t.scan cs).map fun m => (reserve allowed t m.lexeme, m) else none

/-- Passes over blanks, tabs and comments. A comment runs from `#` to the end of the line. -/
def skip (inComment : Bool) (p : Position) : List Char → Position × List Char
  | [] => (p, [])
  | c :: cs =>
    if inComment then
      if c = '\n' then (p, c :: cs) else skip true (p.next c) cs
    else if c = ' ' || c = '\t' then skip false (p.next c) cs
    else if c = '#' then skip true (p.next c) cs
    else (p, c :: cs)

theorem scanWord_shorter {first more : Char → Bool} {cs : List Char} {m : Match}
    (h : scanWord first more cs = some m) : m.rest.length < cs.length := by
  cases cs with
  | nil => simp [scanWord] at h
  | cons c cs =>
    simp only [scanWord] at h
    split at h
    · cases h
      exact Nat.lt_succ_of_le (List.dropWhile_suffix _).length_le
    · simp at h

theorem length_dropWhile_lt {p : Char → Bool} {cs : List Char}
    (h : (cs.takeWhile p).isEmpty = false) : (cs.dropWhile p).length < cs.length := by
  have happ := congrArg List.length (List.takeWhile_append_dropWhile (p := p) (l := cs))
  simp only [List.length_append] at happ
  cases ht : cs.takeWhile p with
  | nil => simp [ht] at h
  | cons c t => simp only [ht, List.length_cons] at happ; omega

theorem scanFraction_shorter (whole cs : List Char) :
    (scanFraction whole cs).rest.length ≤ cs.length := by
  unfold scanFraction
  split
  · split
    · exact Nat.le_refl _
    · exact Nat.le_succ_of_le (List.dropWhile_suffix _).length_le
  · exact Nat.le_refl _

theorem scanNumber_shorter {cs : List Char} {m : Match} (h : scanNumber cs = some m) :
    m.rest.length < cs.length := by
  simp only [scanNumber] at h
  split at h
  · simp at h
  · rename_i hd
    cases h
    exact Nat.lt_of_le_of_lt (scanFraction_shorter _ _)
      (length_dropWhile_lt (by simpa using hd))

theorem scanNewlines_shorter {cs : List Char} {m : Match} (h : scanNewlines cs = some m) :
    m.rest.length < cs.length := by
  simp only [scanNewlines] at h
  split at h
  · simp at h
  · rename_i hd
    cases h
    cases cs with
    | nil => simp [newlineRun] at hd
    | cons c cs =>
      cases hr : newlineRun (c :: cs) with
      | nil => simp [hr] at hd
      | cons d ds => simp only [List.length_drop, List.length_cons]; omega

theorem scanLiteral_shorter {literal cs : List Char} {m : Match} (hne : literal ≠ [])
    (h : scanLiteral literal cs = some m) : m.rest.length < cs.length := by
  simp only [scanLiteral] at h
  split at h
  · rename_i hp
    cases h
    have hl := (List.isPrefixOf_iff_prefix.mp hp).length_le
    have hpos := List.length_pos_iff.mpr hne
    simp only [List.length_drop]
    omega
  · simp at h

theorem Terminal.scan_shorter {t : Terminal} {cs : List Char} {m : Match} (h : t.scan cs = some m) :
    m.rest.length < cs.length := by
  cases t <;> simp only [Terminal.scan] at h <;>
    first
    | exact scanWord_shorter h
    | exact scanNumber_shorter h
    | exact scanNewlines_shorter h
    | exact scanLiteral_shorter (by simp) h
    | simp at h

/-- A token takes at least one character. -/
theorem scan_shorter {allowed : List Terminal} {cs : List Char} {t : Terminal} {m : Match}
    (h : scan allowed cs = some (t, m)) : m.rest.length < cs.length := by
  obtain ⟨u, -, hu⟩ := List.exists_of_findSome?_eq_some h
  split at hu
  · obtain ⟨m', hm, heq⟩ := Option.map_eq_some_iff.mp hu
    cases heq
    exact Terminal.scan_shorter hm
  · simp at hu

theorem length_skip_le (inComment : Bool) (p : Position) (cs : List Char) :
    (skip inComment p cs).2.length ≤ cs.length := by
  induction cs generalizing inComment p with
  | nil => simp [skip]
  | cons c cs ih =>
    simp only [skip]
    split
    · split
      · exact Nat.le_refl _
      · exact Nat.le_succ_of_le (ih _ _)
    · split
      · exact Nat.le_succ_of_le (ih _ _)
      · split
        · exact Nat.le_succ_of_le (ih _ _)
        · exact Nat.le_refl _

end GateScript.Source
