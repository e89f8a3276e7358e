import GateScript.Proofs.Source.LineEnds
import GateScript.Proofs.Source.Soundness

/-!
What reading a text yields.

`Yields` follows the reader token by token, to the end of the text or to an error: it gives the
tokens that were taken on the way and what is made of them. It says the same as the two functions
`tokensFrom` and `readFrom`, and its cases are those of an induction over both.
-/
namespace GateScript.Source

section Results

/-- What comes of a text that has no more tokens. -/
def Progress.atEnd (last : Option Token) : Progress → Except ParseError (List Statement)
  | .whole statements => .ok statements
  | .reading r => .error (.ended last r.stage.follow)
  | .refused expected => .error (.ended last expected)

/-- The error where none of the terminals matches that could stand there. -/
def unmatched (allowed : List Terminal) (p : Position) (c : Char) (rest : List Char) : ParseError :=
  match scan Terminal.every (c :: rest) with
  | some (terminal, m) => .token (m.token terminal p) (reported allowed)
  | none => .character c p (reported allowed)

/-- The tokens that a reader takes, up to the end of the text or to what it refuses. -/
def tokensFrom (r : Reader) (start : Position) (cs : List Char) : List Token :=
  match _hm : scan r.stage.follow (skip false start cs).2 with
  | none => []
  | some (terminal, m) =>
    let t := m.token terminal (skip false start cs).1
    match r.feed t with
    | .reading r => t :: tokensFrom r t.stop m.rest
    | _ => []
termination_by cs.length
decreasing_by exact Nat.lt_of_lt_of_le (scan_shorter _hm) (length_skip_le false start cs)

/-- The tokens of a text, as far as it can be read. -/
def tokensOf (text : String) : List Token := tokensFrom ⟨[], .start⟩ .origin text.toList

end Results

section Steps

variable {r r' : Reader} {last : Option Token} {start p : Position} {cs left rest : List Char}
  {c : Char} {terminal : Terminal} {m : Match} {expected : List Terminal}

theorem scan_nil (allowed : List Terminal) : scan allowed [] = none := by
  cases h : scan allowed [] with
  | none => rfl
  | some found => exact absurd (scan_shorter h) (Nat.not_lt_zero _)

theorem tokensFrom_unmatched (hskip : skip false start cs = (p, left))
    (hscan : scan r.stage.follow left = none) : tokensFrom r start cs = [] := by
  have hleft : scan r.stage.follow (skip false start cs).2 = none := by rw [hskip, hscan]
  rw [tokensFrom]
  split
  · rfl
  · rename_i hm
    rw [hleft] at hm
    cases hm

section

variable (hskip : skip false start cs = (p, left))
  (hscan : scan r.stage.follow left = some (terminal, m))

include hskip hscan

theorem tokensFrom_refused (hfeed : r.feed (m.token terminal p) = .refused expected) :
    tokensFrom r start cs = [] := by
  have hleft : scan r.stage.follow (skip false start cs).2 = some (terminal, m) := by
    rw [hskip, hscan]
  rw [tokensFrom]
  split
  · rfl
  · rename_i hm
    rw [hleft] at hm
    cases hm
    simp only [hskip, hfeed]

theorem tokensFrom_token (hfeed : r.feed (m.token terminal p) = .reading r') :
    tokensFrom r start cs =
      m.token terminal p :: tokensFrom r' (p.after m.lexeme) m.rest := by
  have hleft : scan r.stage.follow (skip false start cs).2 = some (terminal, m) := by
    rw [hskip, hscan]
  rw [tokensFrom]
  split
  · rename_i hm
    rw [hleft] at hm
    cases hm
  · rename_i hm
    rw [hleft] at hm
    cases hm
    simp only [hskip, hfeed]
    rfl

theorem readFrom_refused (last : Option Token)
    (hfeed : r.feed (m.token terminal p) = .refused expected) :
    readFrom r last start cs = .error (.token (m.token terminal p) expected) := by
  rw [readFrom]
  split
  · rename_i heq
    rw [hskip] at heq
    cases heq
    rw [scan_nil] at hscan
    cases hscan
  · rename_i heq
    rw [hskip] at heq
    cases heq
    split
    · rename_i hm
      rw [hscan] at hm
      cases hm
      simp only [hfeed]
    · rename_i hm
      rw [hscan] at hm
      cases hm

end

theorem readFrom_ended (last : Option Token) (hskip : skip false start cs = (p, [])) :
    readFrom r last start cs = (r.feed (endToken last)).atEnd last := by
  rw [readFrom]
  split
  · cases r.feed (endToken last) <;> rfl
  · rename_i heq
    rw [hskip] at heq
    cases heq

theorem readFrom_unmatched (last : Option Token) (hskip : skip false start cs = (p, c :: rest))
    (hscan : scan r.stage.follow (c :: rest) = none) :
    readFrom r last start cs = .error (unmatched r.stage.follow p c rest) := by
  rw [readFrom]
  split
  · rename_i heq
    rw [hskip] at heq
    cases heq
  · rename_i heq
    rw [hskip] at heq
    cases heq
    split
    · rename_i hm
      rw [hscan] at hm
      cases hm
    · unfold unmatched
      cases scan Terminal.every (c :: rest) <;> rfl

end Steps

section Reading

/-- The tokens that are taken from here on, and the statements or the error they lead to. -/
inductive Yields : List Token → Except ParseError (List Statement) → Reader → Option Token →
    Position → List Char → Prop
  | ended {r : Reader} {last : Option Token} {start p : Position} {cs : List Char}
      (hskip : skip false start cs = (p, [])) :
    Yields [] ((r.feed (endToken last)).atEnd last) r last start cs
  | unmatched {r : Reader} {last : Option Token} {start p : Position} {c : Char}
      {cs rest : List Char} (hskip : skip false start cs = (p, c :: rest))
      (hscan : scan r.stage.follow (c :: rest) = none) :
    Yields [] (.error (Source.unmatched r.stage.follow p c rest)) r last start cs
  | refused {r : Reader} {last : Option Token} {start p : Position} {cs left : List Char}
      {terminal : Terminal} {m : Match} {expected : List Terminal}
      (hskip : skip false start cs = (p, left))
      (hscan : scan r.stage.follow left = some (terminal, m))
      (hfeed : r.feed (m.token terminal p) = .refused expected) :
    Yields [] (.error (.token (m.token terminal p) expected)) r last start cs
  | token {tokens : List Token} {result : Except ParseError (List Statement)} {r r' : Reader}
      {last : Option Token} {start p : Position} {cs left : List Char} {terminal : Terminal}
      {m : Match} (hskip : skip false start cs = (p, left))
      (hscan : scan r.stage.follow left = some (terminal, m))
      (hfeed : r.feed (m.token terminal p) = .reading r')
      (h : Yields tokens result r' (some (m.token terminal p)) (p.after m.lexeme) m.rest) :
    Yields (m.token terminal p :: tokens) result r last start cs

variable {tokens : List Token} {result : Except ParseError (List Statement)} {r : Reader}
  {last : Option Token} {start : Position} {cs : List Char}

theorem exists_yields (r : Reader) (last : Option Token) (start : Position) (cs : List Char) :
    ∃ tokens result, Yields tokens result r last start cs := by
  fun_induction tokensFrom r start cs generalizing last
  case case1 r start cs hm =>
    rcases hskip : skip false start cs with ⟨p, _ | ⟨c, rest⟩⟩
    · exact ⟨_, _, .ended hskip⟩
    · rw [hskip] at hm
      exact ⟨_, _, .unmatched hskip hm⟩
  case case2 r start cs terminal m hm t r' hfeed ih =>
    obtain ⟨tokens, result, h⟩ := ih (some t)
    exact ⟨_, _, .token rfl hm hfeed h⟩
  case case3 r start cs terminal m hm t hreading =>
    cases hfeed : r.feed t with
    | reading r' => exact absurd hfeed (hreading r')
    | whole statements =>
      -- only the end of the text makes a program whole
      exact absurd (ends_of_whole hfeed).1 (scan_sound hm).2.ne_end
    | refused expected => exact ⟨_, _, .refused rfl hm hfeed⟩

theorem Yields.eq (h : Yields tokens result r last start cs) :
    tokensFrom r start cs = tokens ∧ readFrom r last start cs = result := by
  induction h with
  | ended hskip => exact ⟨tokensFrom_unmatched hskip (scan_nil _), readFrom_ended _ hskip⟩
  | unmatched hskip hscan =>
    exact ⟨tokensFrom_unmatched hskip hscan, readFrom_unmatched _ hskip hscan⟩
  | refused hskip hscan hfeed =>
    exact ⟨tokensFrom_refused hskip hscan hfeed, readFrom_refused hskip hscan _ hfeed⟩
  | token hskip hscan hfeed _ ih =>
    rw [tokensFrom_token hskip hscan hfeed, readFrom_token hskip hscan hfeed, ih.1, ih.2]
    exact ⟨rfl, rfl⟩

theorem yields_iff : Yields tokens result r last start cs ↔
    tokensFrom r start cs = tokens ∧ readFrom r last start cs = result := by
  constructor
  · exact Yields.eq
  · rintro ⟨rfl, rfl⟩
    obtain ⟨tokens, result, h⟩ := exists_yields r last start cs
    obtain ⟨rfl, rfl⟩ := h.eq
    exact h

/-- A text yields its tokens and what they are parsed to. -/
theorem yields_parse (text : String) :
    Yields (tokensOf text) (parse text) ⟨[], .start⟩ none .origin text.toList :=
  yields_iff.mpr ⟨rfl, rfl⟩

end Reading

end GateScript.Source
