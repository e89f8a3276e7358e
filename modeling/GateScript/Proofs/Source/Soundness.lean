import GateScript.Proofs.Source.Following
import GateScript.Proofs.Source.Layout
import GateScript.Source.Parse

/-!
What a text that is read stands for.

Reading on keeps two things in step: the tokens so far are the pieces of a derivation, and the text
so far is laid out by them. At the end the tokens are a whole program.
-/
namespace GateScript.Source

section Reading

theorem Terminal.Matches.ne_end {t : Terminal} {cs : List Char} (h : t.Matches cs) :
    t ≠ .endOfText := by
  rintro rfl
  cases h with
  | literal h => cases h

/-- A match that is made a token lies in the text where it stands. -/
theorem Lays.found {before rest : List Char} {terminal : Terminal} {m : Match} {tokens : List Token}
    (hmatches : terminal.Matches m.lexeme) (h : Lays (before ++ m.lexeme) tokens rest) :
    Lays before (m.token terminal (.of before) :: tokens) (m.lexeme ++ rest) := by
  have htext : (m.token terminal (.of before)).text.toList = m.lexeme := String.toList_ofList
  rw [← htext] at h hmatches ⊢
  refine .token hmatches rfl ?_ h
  rw [htext]
  exact Position.after_of before m.lexeme

theorem Lays.scan {allowed : List Terminal} {before cs : List Char} {terminal : Terminal}
    {m : Match} {tokens : List Token} (hscan : scan allowed cs = some (terminal, m))
    (h : Lays (before ++ m.lexeme) tokens m.rest) :
    Lays before (m.token terminal (.of before) :: tokens) cs := by
  obtain ⟨hcs, hmatches⟩ := scan_sound hscan
  rw [hcs]
  exact h.found hmatches

/-- Reading on from pieces of a derivation makes a whole one of them. -/
theorem readFrom_sound {r : Reader} {last : Option Token} {start : Position} {cs before : List Char}
    {statements : List Statement} {ts : List Token}
    (h : Spans (r.stage.pieces r.statements) ts) (hstart : start = .of before)
    (hread : readFrom r last start cs = .ok statements) :
    ∃ tokens, Derives (.rule .start) (ts ++ tokens) [programTree statements] ∧
      Lays before tokens cs := by
  fun_induction readFrom r last start cs generalizing ts before
  case case1 r last start cs p hs statements hfeed =>
    cases hread
    obtain ⟨passed, rest, -, hskip, hlays⟩ := skip_lays before cs
    rw [hstart, hskip] at hs
    obtain ⟨-, rfl⟩ := Prod.mk.inj hs
    have hfollows := feed_follows h (t := endToken last)
    rw [hfeed] at hfollows
    refine ⟨[], ?_, hlays [] .nil⟩
    rw [List.append_nil]
    exact hfollows.2
  case case4 r last start cs p c rest hs terminal m hm t r' hfeed ih =>
    obtain ⟨passed, _, -, hskip, hlays⟩ := skip_lays before cs
    rw [hstart, hskip] at hs
    obtain ⟨rfl, rfl⟩ := Prod.mk.inj hs
    have hfollows := feed_follows h (t := t)
    rw [hfeed] at hfollows
    have hstop : t.stop = .of (before ++ passed ++ m.lexeme) :=
      Position.after_of (before ++ passed) m.lexeme
    obtain ⟨tokens, hderives, hlaid⟩ := ih hfollows hstop hread
    refine ⟨t :: tokens, ?_, hlays _ (hlaid.scan hm)⟩
    rwa [List.append_cons]
  case case5 r last start cs p c rest hs terminal m hm t statements hfeed =>
    -- only the end of the text makes a program whole, and no match is the end of the text
    have hfollows := feed_follows h (t := t)
    rw [hfeed] at hfollows
    exact absurd hfollows.1 (scan_sound hm).2.ne_end
  all_goals cases hread

end Reading

/-- A text that is read is a program of the grammar. Its tokens fit the start rule and give the
tree; the text is made of the tokens, with blanks, tabs and comments between them; and every leaf
of the tree is a token that stands in the text at its position, the leaves at later and later
ones. -/
theorem parse_sound {text : String} {statements : List Statement}
    (h : parse text = .ok statements) :
    ∃ tokens, Derives (.rule .start) tokens [programTree statements] ∧
      Lays [] tokens text.toList ∧
      (programTree statements).leaves = tokens.filter (·.terminal.isKept) ∧
      (∀ t ∈ (programTree statements).leaves, ∃ pre post,
        text.toList = pre ++ (t.text.toList ++ post) ∧ t.start = .of pre ∧
          t.stop = .of (pre ++ t.text.toList)) ∧
      (programTree statements).leaves.Pairwise fun t t' => t.start.Precedes t'.start := by
  have hopening : Spans [.opening []] [] :=
    .single (derives_opening_iff.mpr (.inl .none))
  have hstart : Position.origin = .of [] := rfl
  obtain ⟨tokens, hderives, hlays⟩ := readFrom_sound (r := ⟨[], .start⟩) hopening hstart h
  have hleaves : (programTree statements).leaves = tokens.filter (·.terminal.isKept) := by
    have hflat := hderives.leaves_eq
    rwa [List.flatMap_singleton] at hflat
  refine ⟨tokens, hderives, hlays, hleaves, fun t ht => ?_, ?_⟩
  · rw [hleaves] at ht
    exact hlays.occurs t (List.mem_of_mem_filter ht)
  · rw [hleaves]
    exact hlays.pairwise.sublist List.filter_sublist

/-- A digit of another script, a comment before a line end of two characters, an empty line, and two
statements on one line. -/
def mixedText : String := "x : q ١ # one\r\n\r\nx->S|x<- y->H"

def mixedStatements : List Statement :=
  [.qubit ⟨.name, "x", ⟨1, 1⟩, ⟨1, 2⟩⟩ none ⟨.number, "١", ⟨1, 7⟩, ⟨1, 8⟩⟩,
    .action (.operand (.name ⟨.name, "x", ⟨3, 1⟩, ⟨3, 2⟩⟩)) none
      [.gate ⟨.upperName, "S", ⟨3, 4⟩, ⟨3, 5⟩⟩ [],
        .named ⟨.name, "x", ⟨3, 6⟩, ⟨3, 7⟩⟩ (some ⟨.reverseArrow, "<-", ⟨3, 7⟩, ⟨3, 9⟩⟩)],
    .action (.operand (.name ⟨.name, "y", ⟨3, 10⟩, ⟨3, 11⟩⟩)) none
      [.gate ⟨.upperName, "H", ⟨3, 13⟩, ⟨3, 14⟩⟩ []]]

theorem parse_sound_mixed :
    parse mixedText = .ok mixedStatements ∧
      ∃ tokens, Derives (.rule .start) tokens [programTree mixedStatements] ∧
        Lays [] tokens mixedText.toList := by
  have hparse : parse mixedText = .ok mixedStatements := by decide +kernel
  obtain ⟨tokens, hderives, hlays, -⟩ := parse_sound hparse
  exact ⟨hparse, tokens, hderives, hlays⟩

end GateScript.Source
