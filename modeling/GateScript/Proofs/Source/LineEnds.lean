import GateScript.Proofs.Source.Layout
import GateScript.Proofs.Source.Reading

/-!
Where a line ends.

No token but the newline goes over the end of a line, so a token is read in the same way if another
line is put after the text. And wherever a text may end, its last line may end.
-/
namespace GateScript.Source

section Scanning

/-- A match in a text that goes on. -/
def Match.followedBy (m : Match) (tail : List Char) : Match := ⟨m.lexeme, m.rest ++ tail⟩

theorem takeWhile_line {p : Char → Bool} (hp : p '\n' = false) (cs rest : List Char) :
    (cs ++ '\n' :: rest).takeWhile p = cs.takeWhile p ∧
      (cs ++ '\n' :: rest).dropWhile p = cs.dropWhile p ++ '\n' :: rest := by
  induction cs with
  | nil => simp [hp]
  | cons c cs ih =>
    by_cases hc : p c
    · simp [hc, ih]
    · simp [hc]

theorem scanWord_line {first more : Char → Bool} (hfirst : first '\n' = false)
    (hmore : more '\n' = false) (cs rest : List Char) :
    scanWord first more (cs ++ '\n' :: rest) =
      (scanWord first more cs).map (·.followedBy ('\n' :: rest)) := by
  cases cs with
  | nil => simp [scanWord, hfirst]
  | cons c cs =>
    obtain ⟨htake, hdrop⟩ := takeWhile_line hmore cs rest
    rw [List.cons_append, scanWord, scanWord, htake, hdrop]
    split <;> rfl

theorem scanFraction_line (whole cs rest : List Char) :
    scanFraction whole (cs ++ '\n' :: rest) =
      (scanFraction whole cs).followedBy ('\n' :: rest) := by
  cases cs with
  | nil => rfl
  | cons c cs =>
    have hdigit : Text.isDigit '\n' = false := by decide
    obtain ⟨htake, hdrop⟩ := takeWhile_line hdigit cs rest
    by_cases hc : c = '.'
    · subst hc
      rw [List.cons_append, scanFraction, scanFraction, htake, hdrop]
      split <;> rfl
    · have hpoint : ∀ tail, scanFraction whole (c :: tail) = ⟨whole, c :: tail⟩ := by
        intro tail
        unfold scanFraction
        split
        · simp_all
        · rfl
      rw [List.cons_append, hpoint, hpoint]
      rfl

theorem scanNumber_line (cs rest : List Char) :
    scanNumber (cs ++ '\n' :: rest) = (scanNumber cs).map (·.followedBy ('\n' :: rest)) := by
  have hdigit : Text.isDigit '\n' = false := by decide
  obtain ⟨htake, hdrop⟩ := takeWhile_line hdigit cs rest
  unfold scanNumber
  rw [htake, hdrop]
  split
  · rfl
  · rw [scanFraction_line]
    rfl

theorem isPrefixOf_line {literal : List Char} (h : '\n' ∉ literal) (cs rest : List Char) :
    literal.isPrefixOf (cs ++ '\n' :: rest) = literal.isPrefixOf cs := by
  induction literal generalizing cs with
  | nil => simp
  | cons x literal ih =>
    obtain ⟨hx, hliteral⟩ : x ≠ '\n' ∧ '\n' ∉ literal := by simpa [eq_comm] using h
    cases cs with
    | nil => simp [List.isPrefixOf, hx]
    | cons c cs => rw [List.cons_append, List.isPrefixOf, List.isPrefixOf, ih hliteral]

theorem scanLiteral_line {literal : List Char} (h : '\n' ∉ literal) (cs rest : List Char) :
    scanLiteral literal (cs ++ '\n' :: rest) =
      (scanLiteral literal cs).map (·.followedBy ('\n' :: rest)) := by
  unfold scanLiteral
  rw [isPrefixOf_line h]
  split
  · rename_i hfront
    have hlength := (List.isPrefixOf_iff_prefix.mp hfront).length_le
    rw [List.drop_append_of_le_length hlength]
    rfl
  · rfl

/-- Only a newline goes over the end of a line. -/
theorem Terminal.scan_line {t : Terminal} (ht : t ≠ .newline) (cs rest : List Char) :
    t.scan (cs ++ '\n' :: rest) = (t.scan cs).map (·.followedBy ('\n' :: rest)) := by
  cases t with
  | name => exact scanWord_line (by decide) (by decide) cs rest
  | upperName => exact scanWord_line (by decide) (by decide) cs rest
  | number => exact scanNumber_line cs rest
  | newline => exact absurd rfl ht
  | endOfText => rfl
  | _ => exact scanLiteral_line (by decide) cs rest

/-- Line ends that are followed by more than a carriage return stay as they are. -/
theorem newlineRun_line {cs : List Char} (hne : cs.drop (newlineRun cs).length ≠ [])
    (hreturn : cs.drop (newlineRun cs).length ≠ ['\r']) (rest : List Char) :
    newlineRun (cs ++ '\n' :: rest) = newlineRun cs := by
  fun_induction newlineRun cs with
  | case1 cs ih => rw [List.cons_append, newlineRun, ih hne hreturn]
  | case2 cs ih => rw [List.cons_append, List.cons_append, newlineRun, ih hne hreturn]
  | case3 cs hfeed hpair =>
    unfold newlineRun
    split
    · rename_i tail heq
      cases cs with
      | nil => exact absurd rfl hne
      | cons c cs => exact absurd (by simp_all) (hfeed cs)
    · rename_i tail heq
      rcases cs with _ | ⟨c, _ | ⟨d, cs⟩⟩
      · exact absurd rfl hne
      · exact absurd (by simp_all) hreturn
      · exact absurd (by simp_all) (hpair cs)
    · rfl

/-- Line ends at the end of a text go on after it. -/
theorem newlineRun_end {cs : List Char} (h : newlineRun cs = cs) (rest : List Char) :
    newlineRun (cs ++ '\n' :: rest) = cs ++ '\n' :: newlineRun rest := by
  fun_induction newlineRun cs with
  | case1 cs ih => rw [List.cons_append, newlineRun, ih (List.cons.inj h).2, List.cons_append]
  | case2 cs ih =>
    have hrest := (List.cons.inj (List.cons.inj h).2).2
    rw [List.cons_append, List.cons_append, newlineRun, ih hrest]
    rfl
  | case3 cs _ _ =>
    rw [← h]
    rfl

variable {allowed : List Terminal} {cs : List Char}

theorem scanNewlines_line (hne : cs.drop (newlineRun cs).length ≠ [])
    (hreturn : cs.drop (newlineRun cs).length ≠ ['\r']) (rest : List Char) :
    scanNewlines (cs ++ '\n' :: rest) =
      (scanNewlines cs).map (·.followedBy ('\n' :: rest)) := by
  have hlength := (newlineRun_sound cs).1.length_le
  unfold scanNewlines
  rw [newlineRun_line hne hreturn, List.drop_append_of_le_length hlength]
  split <;> rfl

/-- A token is read in the same way if another line is put after the text. -/
theorem scan_line (hne : cs.drop (newlineRun cs).length ≠ [])
    (hreturn : cs.drop (newlineRun cs).length ≠ ['\r']) (rest : List Char) :
    scan allowed (cs ++ '\n' :: rest) =
      (scan allowed cs).map fun found => (found.1, found.2.followedBy ('\n' :: rest)) := by
  have hterminal : ∀ t : Terminal,
      t.scan (cs ++ '\n' :: rest) = (t.scan cs).map (·.followedBy ('\n' :: rest)) := by
    intro t
    by_cases ht : t = .newline
    · subst ht
      exact scanNewlines_line hne hreturn rest
    · exact Terminal.scan_line ht cs rest
  unfold scan
  rw [List.map_findSome?]
  congr 1
  funext t
  rw [hterminal, Function.comp_apply]
  split
  · rw [Option.map_map, Option.map_map]
    rfl
  · rfl

/-- Where a line ends, nothing but a newline can be read. -/
theorem scan_newlines_inv {t : Terminal} {m : Match} (h : scan allowed cs = some (t, m))
    (hrun : newlineRun cs ≠ []) :
    t = .newline ∧ m = ⟨newlineRun cs, cs.drop (newlineRun cs).length⟩ := by
  obtain ⟨u, -, hu⟩ := List.exists_of_findSome?_eq_some h
  by_cases hnewline : u = .newline
  · subst hnewline
    split at hu
    · rename_i hallowed
      rw [scan_newlines hallowed hrun] at h
      cases h
      exact ⟨rfl, rfl⟩
    · cases hu
  · rw [Terminal.scan_lineEnd hnewline hrun] at hu
    split at hu <;> cases hu

theorem skip_line (inComment : Bool) (p : Position) (cs rest : List Char) :
    skip inComment p (cs ++ '\n' :: rest) =
      ((skip inComment p cs).1, (skip inComment p cs).2 ++ '\n' :: rest) := by
  induction cs generalizing inComment p with
  | nil => cases inComment <;> rfl
  | cons c cs ih =>
    rw [List.cons_append, skip, skip]
    split
    · split
      · rfl
      · exact ih true (p.next c)
    split
    · exact ih false (p.next c)
    split
    · exact ih true (p.next c)
    · rfl

end Scanning

section Reader

variable {done : List Statement}

/-- A step of the reader that makes a program whole only at the end of the text, and is as content
with the end of the line there. A newline that it takes leads to the start of a line. -/
structure EndsLine (step : Token → Progress) : Prop where
  endOfText : ∀ {t : Token} {statements : List Statement}, step t = .whole statements →
    t.terminal = .endOfText ∧
      (∀ t' : Token, t'.terminal = .endOfText → step t' = .whole statements) ∧
      ∀ t' : Token, t'.terminal = .newline → step t' = .reading ⟨statements, .between⟩
  newline : ∀ {t : Token} {r : Reader}, t.terminal = .newline → step t = .reading r →
    (r.stage = .start ∨ r.stage = .between) ∧
      ∀ t' : Token, t'.terminal = .newline → step t' = .reading r

theorem EndsLine.refused (expected : List Terminal) : EndsLine fun _ => .refused expected := by
  constructor
  · intro t statements h
    cases h
  · intro t r _ h
    cases h

/-- A step that looks for another terminal first. -/
theorem EndsLine.ite {terminal : Terminal} (hterminal : terminal ≠ .endOfText ∧ terminal ≠ .newline)
    {found : Progress} (hfound : ∀ statements, found ≠ .whole statements)
    {other : Token → Progress} (h : EndsLine other) :
    EndsLine fun t => if t.terminal = terminal then found else other t := by
  have hother : ∀ t : Token, t.terminal = .endOfText ∨ t.terminal = .newline →
      (if t.terminal = terminal then found else other t) = other t := by
    intro t ht
    apply if_neg
    rintro rfl
    rcases ht with ht | ht
    · exact hterminal.1 ht
    · exact hterminal.2 ht
  constructor
  · intro t statements hwhole
    split at hwhole
    · exact absurd hwhole (hfound statements)
    · obtain ⟨ht, hends, hlines⟩ := h.endOfText hwhole
      refine ⟨ht, fun t' ht' => ?_, fun t' ht' => ?_⟩
      · rw [hother t' (.inl ht')]
        exact hends t' ht'
      · rw [hother t' (.inr ht')]
        exact hlines t' ht'
  · intro t r ht hread
    rw [hother t (.inr ht)] at hread
    obtain ⟨hstage, hlines⟩ := h.newline ht hread
    refine ⟨hstage, fun t' ht' => ?_⟩
    rw [hother t' (.inr ht')]
    exact hlines t' ht'

theorem startStatement_newline (done : List Statement) (stage : Stage) {t : Token}
    (ht : t.terminal = .newline) : startStatement done stage t = .reading ⟨done, stage⟩ := by
  rw [startStatement, ht]

theorem startStatement_ne_whole (done : List Statement) (stage : Stage) (t : Token)
    (statements : List Statement) : startStatement done stage t ≠ .whole statements := by
  unfold startStatement
  split <;> simp

theorem startStatement_endsLine {stage : Stage} (hstage : stage = .start ∨ stage = .between) :
    EndsLine (startStatement done stage) := by
  constructor
  · intro t statements h
    exact absurd h (startStatement_ne_whole done stage t statements)
  · intro t r ht h
    rw [startStatement_newline done stage ht] at h
    cases h
    exact ⟨hstage, fun t' ht' => startStatement_newline done stage ht'⟩

/-- Between statements the text may end, and the line. -/
theorem between_endsLine : EndsLine fun t =>
    if t.terminal = .endOfText then .whole done else startStatement done .between t := by
  have hline : ∀ t : Token, t.terminal = .newline →
      (if t.terminal = .endOfText then .whole done else startStatement done .between t) =
        .reading ⟨done, .between⟩ := by
    intro t ht
    rw [ht, if_neg (by decide), startStatement_newline done .between ht]
  constructor
  · intro t statements h
    split at h
    · rename_i ht
      cases h
      exact ⟨ht, fun t' ht' => if_pos ht', hline⟩
    · exact absurd h (startStatement_ne_whole done .between t statements)
  · intro t r ht h
    rw [hline t ht] at h
    cases h
    exact ⟨.inr rfl, hline⟩

theorem endStatement_endsLine (s : Statement) : EndsLine (endStatement done s) :=
  between_endsLine

theorem endPipeline_endsLine (site : PipelineSite) (items : List Item) :
    EndsLine (endPipeline done site items) := by
  cases site with
  | declaration name => exact endStatement_endsLine _
  | action target count => exact endStatement_endsLine _
  | ifGroup target => exact .ite (by decide) (by simp) (.refused _)
  | elseGroup target branch bit => exact .ite (by decide) (by simp) (.refused _)

theorem endItem_endsLine (site : ItemSite) (item : Item) : EndsLine (endItem done site item) := by
  cases site with
  | lead target =>
    refine .ite (by decide) (by simp) (.ite (by decide) (by simp) ?_)
    exact .ite (by decide) (by simp) (endStatement_endsLine _)
  | first pipeline =>
    refine .ite (by decide) (by simp) (.ite (by decide) (by simp) ?_)
    exact endPipeline_endsLine pipeline [item]
  | later pipeline before =>
    refine .ite (by decide) (by simp) (.ite (by decide) (by simp) ?_)
    exact endPipeline_endsLine pipeline (before ++ [item])
  | elseBranch target branch bit => exact endStatement_endsLine _

theorem endOperand_endsLine (site : OperandsSite) (operands : List Operand) :
    EndsLine (endOperand done site operands) := by
  have hclosing : site.closing ≠ .endOfText ∧ site.closing ≠ .newline := by
    cases site <;> simp [OperandsSite.closing]
  refine .ite (by decide) (by simp) (.ite hclosing ?_ (.refused _))
  cases site <;> simp

theorem close_endsLine (s : Stage) : EndsLine (s.close done) := by
  cases s with
  | start => exact startStatement_endsLine (.inl rfl)
  | between => exact between_endsLine
  | qubit site index =>
    cases site with
    | target => exact .ite (by decide) (by simp) (.refused _)
    | first site => exact endOperand_endsLine site [.qubit index]
    | later site before =>
      exact .ite (by decide) (by simp)
        (endOperand_endsLine site (before ++ [.qubit index]))
  | firstOperand site operand => exact endOperand_endsLine site [operand]
  | laterOperand site before operand => exact endOperand_endsLine site (before ++ [operand])
  | listEnd site items =>
    cases site with
    | declaration x => exact endStatement_endsLine _
    | target => exact .ite (by decide) (by simp) (.refused _)
  | declared statement => exact endStatement_endsLine _
  | itemName site x => exact endItem_endsLine site _
  | gateName site x => exact endItem_endsLine site _
  | itemEnd site item => exact endItem_endsLine site item
  | ifGroupEnd aim items => exact .ite (by decide) (by simp) (.refused _)
  | elseGroupEnd aim branch bit items => exact endStatement_endsLine _
  | condition aim branch bit => exact endStatement_endsLine _
  | _ => exact .refused _

theorem follow_newline {s : Stage} (h : s.follow.contains .endOfText) :
    s.follow.contains .newline := by
  cases s with
  | firstOperand site operand => cases site <;> simp [Stage.follow, OperandsSite.follow,
      OperandsSite.closing] at h
  | itemStart site => cases site <;> simp [Stage.follow] at h
  | _ => simp [Stage.follow, afterStatement, afterList, afterItem] at h ⊢

theorem extend_lineEnd {s : Stage} {t : Token}
    (ht : t.terminal = .endOfText ∨ t.terminal = .newline) : s.extend t = none := by
  cases s with
  | itemStart site =>
    cases site <;> rcases ht with ht | ht <;> simp [Stage.extend, startItem, ht]
  | _ =>
    rcases ht with ht | ht <;>
      simp [Stage.extend, startOperand, startDeclaration, startItem, startIndex, startAction, ht]

theorem feed_lineEnd {r : Reader} {t : Token} (ht : t.terminal = .endOfText ∨ t.terminal = .newline)
    (hfollow : r.stage.follow.contains t.terminal) :
    r.feed t = r.stage.close r.statements t := by
  rw [Reader.feed, if_pos hfollow, extend_lineEnd ht]

/-- A reader that may stop at the end of the text may go on to the next line. -/
theorem ends_of_whole {r : Reader} {t : Token} {statements : List Statement}
    (h : r.feed t = .whole statements) : t.terminal = .endOfText ∧ Ends r statements := by
  unfold Reader.feed at h
  split at h
  · rename_i hfollow
    split at h
    · cases h
    · obtain ⟨ht, hends, hlines⟩ := (close_endsLine r.stage).endOfText h
      rw [ht] at hfollow
      have hnewline := follow_newline hfollow
      refine ⟨ht, hnewline, fun t' ht' => ?_, fun t' ht' => ?_⟩
      · rw [feed_lineEnd (.inr ht') (by rwa [ht'])]
        exact hlines t' ht'
      · rw [feed_lineEnd (.inl ht') (by rwa [ht'])]
        exact hends t' ht'
  · cases h

/-- A reader that takes a newline takes any other one in its place. -/
theorem feed_newlines {r r' : Reader} {t : Token} (ht : t.terminal = .newline)
    (h : r.feed t = .reading r') :
    (r'.stage = .start ∨ r'.stage = .between) ∧ r.stage.follow.contains .newline ∧
      ∀ t' : Token, t'.terminal = .newline → r.feed t' = .reading r' := by
  have hfollow : r.stage.follow.contains .newline := by
    by_contra hfollow
    rw [Reader.feed, ht, if_neg hfollow] at h
    cases h
  rw [feed_lineEnd (.inr ht) (by rwa [ht])] at h
  obtain ⟨hstage, hlines⟩ := (close_endsLine r.stage).newline ht h
  refine ⟨hstage, hfollow, fun t' ht' => ?_⟩
  rw [feed_lineEnd (.inr ht') (by rwa [ht'])]
  exact hlines t' ht'

/-- At the start of a line more newlines change nothing. -/
theorem feed_start_newline {r : Reader} (hstage : r.stage = .start ∨ r.stage = .between)
    {t : Token} (ht : t.terminal = .newline) : r.feed t = .reading r := by
  obtain ⟨done, stage⟩ := r
  rcases hstage with rfl | rfl
  · rw [feed_lineEnd (.inr ht) (by rw [ht]; rfl)]
    exact startStatement_newline done .start ht
  · rw [feed_lineEnd (.inr ht) (by rw [ht]; rfl)]
    simp [Stage.close, ht, startStatement]

end Reader

end GateScript.Source
