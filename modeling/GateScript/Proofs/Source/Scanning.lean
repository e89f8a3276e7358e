import GateScript.Proofs.Decimal.Natural
import GateScript.Source.Scan

/-!
Which token stands at the front of a text. A terminal is known by its first character, save for the
words `if` and `else`, which begin like names and are tried before them.
-/
namespace GateScript.Source

/-- The characters that a terminal can begin with. -/
def Terminal.begins : Terminal → Char → Bool
  | .name => Char.isLower
  | .upperName => Char.isUpper
  | .number => Text.isDigit
  | .newline => fun c => c == '\n' || c == '\r'
  | .reverseArrow => (· == '<')
  | .all => (· == '*')
  | .ifWord => (· == 'i')
  | .elseWord => (· == 'e')
  | .colon => (· == ':')
  | .q => (· == 'q')
  | .b => (· == 'b')
  | .bar => (· == '|')
  | .openParen => (· == '(')
  | .closeParen => (· == ')')
  | .comma => (· == ',')
  | .arrow => (· == '-')
  | .openBracket => (· == '[')
  | .closeBracket => (· == ']')
  | .endOfText => fun _ => false

/-- The text of a terminal that is always written in the same way. -/
def Terminal.literal? : Terminal → Option String
  | .reverseArrow => some "<-"
  | .all => some "*"
  | .ifWord => some "if"
  | .elseWord => some "else"
  | .colon => some ":"
  | .bar => some "|"
  | .openParen => some "("
  | .closeParen => some ")"
  | .comma => some ","
  | .arrow => some "->"
  | .openBracket => some "["
  | .closeBracket => some "]"
  | _ => none

/-- A lower-case letter, and letters, digits and underscores. -/
def isName (s : String) : Bool :=
  match s.toList with
  | [] => false
  | c :: cs => c.isLower && cs.all isNameChar

/-- An upper-case letter, and upper-case letters and digits. -/
def isGateName (s : String) : Bool :=
  match s.toList with
  | [] => false
  | c :: cs => c.isUpper && cs.all isUpperNameChar

/-- A text that does not go on with the token before it. -/
def Boundary (cs : List Char) : Prop := ∀ c ∈ cs.head?, c = ' ' ∨ c = '\n'

theorem Boundary.nil : Boundary [] := by simp [Boundary]

theorem Boundary.blank (cs : List Char) : Boundary (' ' :: cs) := by simp [Boundary]

theorem Boundary.newline (cs : List Char) : Boundary ('\n' :: cs) := by simp [Boundary]

section FirstCharacter

theorem scanLiteral_eq_none {x c : Char} (h : (c == x) = false) (xs cs : List Char) :
    scanLiteral (x :: xs) (c :: cs) = none := by
  have hne : (x == c) = false := beq_eq_false_iff_ne.mpr (beq_eq_false_iff_ne.mp h).symm
  simp only [scanLiteral, List.isPrefixOf, hne, Bool.false_and]
  rfl

theorem newlineRun_eq_nil {cs : List Char} (h : ∀ c ∈ cs.head?, c ≠ '\n' ∧ c ≠ '\r') :
    newlineRun cs = [] := by
  unfold newlineRun
  split
  · simp at h
  · simp at h
  · rfl

/-- A terminal that cannot begin with a character does not match. -/
theorem Terminal.scan_eq_none {t : Terminal} {c : Char} (h : t.begins c = false) (cs : List Char) :
    t.scan (c :: cs) = none := by
  cases t with
  | name => simp_all [Terminal.scan, scanWord, Terminal.begins]
  | upperName => simp_all [Terminal.scan, scanWord, Terminal.begins]
  | number => simp_all [Terminal.scan, scanNumber, Terminal.begins]
  | newline =>
    have hrun : newlineRun (c :: cs) = [] := newlineRun_eq_nil (by simpa [Terminal.begins] using h)
    simp [Terminal.scan, scanNewlines, hrun]
  | endOfText => rfl
  | _ => exact scanLiteral_eq_none h _ cs

theorem toNat_of_isLower {c : Char} (h : c.isLower) : 97 ≤ c.toNat ∧ c.toNat ≤ 122 := by
  have hc : decide (97 ≤ c.val) ∧ decide (c.val ≤ 122) := Bool.and_eq_true_iff.mp h
  rw [decide_eq_true_eq, decide_eq_true_eq] at hc
  exact ⟨UInt32.le_iff_toNat_le.mp hc.1, UInt32.le_iff_toNat_le.mp hc.2⟩

theorem toNat_of_isUpper {c : Char} (h : c.isUpper) : 65 ≤ c.toNat ∧ c.toNat ≤ 90 := by
  have hc : 65 ≤ c.val ∧ c.val ≤ 90 := of_decide_eq_true h
  exact ⟨UInt32.le_iff_toNat_le.mp hc.1, UInt32.le_iff_toNat_le.mp hc.2⟩

theorem isLower_of_isUpper {c : Char} (h : c.isUpper) : c.isLower = false := by
  rw [Bool.eq_false_iff]
  intro hlower
  have hc := toNat_of_isUpper h
  have hc' := toNat_of_isLower hlower
  omega

theorem isLower_of_isDigit {c : Char} (h : c.isDigit) : c.isLower = false := by
  rw [Bool.eq_false_iff]
  intro hlower
  have hc := Text.toNat_of_isDigit h
  have hc' := toNat_of_isLower hlower
  omega

theorem isUpper_of_isDigit {c : Char} (h : c.isDigit) : c.isUpper = false := by
  rw [Bool.eq_false_iff]
  intro hupper
  have hc := Text.toNat_of_isDigit h
  have hc' := toNat_of_isUpper hupper
  omega

/-- The first terminal that matches is the token. -/
theorem scan_eq {allowed : List Terminal} {t : Terminal} {cs : List Char} {m : Match}
    (ht : t ∈ Terminal.tried) (hallowed : allowed.contains t) (hscan : t.scan cs = some m)
    (hbefore : ∀ u ∈ Terminal.tried.takeWhile (· != t), allowed.contains u → u.scan cs = none) :
    scan allowed cs = some (reserve allowed t m.lexeme, m) := by
  unfold scan
  generalize Terminal.tried = tried at ht hbefore
  induction tried with
  | nil => simp at ht
  | cons u tried ih =>
    by_cases hu : u = t
    · subst hu
      rw [List.findSome?_cons, if_pos hallowed, hscan]
      rfl
    · have htake : (u :: tried).takeWhile (· != t) = u :: tried.takeWhile (· != t) :=
        List.takeWhile_cons_of_pos (by simpa using hu)
      rw [htake, List.forall_mem_cons] at hbefore
      have hskip : (if allowed.contains u then
          (u.scan cs).map fun m => (reserve allowed u m.lexeme, m) else none) = none := by
        split
        · rw [hbefore.1 ‹_›]
          rfl
        · rfl
      rw [List.findSome?_cons, hskip]
      exact ih ((List.mem_cons.mp ht).resolve_left (Ne.symm hu)) hbefore.2

end FirstCharacter

section Tokens

variable {allowed : List Terminal}

/-- A text is read as a token, whatever comes after it. -/
def Reads (allowed : List Terminal) (lexeme : String) (t : Terminal) : Prop :=
  ∀ rest, Boundary rest → scan allowed (lexeme.toList ++ rest) = some (t, ⟨lexeme.toList, rest⟩)

theorem scanWord_append {first more : Char → Bool} {c : Char} {cs rest : List Char}
    (hc : first c) (hcs : ∀ x ∈ cs, more x) (hrest : ∀ x ∈ rest.head?, more x = false) :
    scanWord first more (c :: cs ++ rest) = some ⟨c :: cs, rest⟩ := by
  have hstop : rest.takeWhile more = [] ∧ rest.dropWhile more = rest := by
    cases rest with
    | nil => simp
    | cons x rest => simp_all
  rw [List.cons_append, scanWord, if_pos hc, List.takeWhile_append_of_pos hcs,
    List.dropWhile_append_of_pos hcs, hstop.1, hstop.2, List.append_nil]

theorem scanNumber_append {cs rest : List Char} (hne : cs ≠ []) (hcs : ∀ c ∈ cs, Text.isDigit c)
    (hrest : Boundary rest) : scanNumber (cs ++ rest) = some ⟨cs, rest⟩ := by
  have hstop : rest.takeWhile Text.isDigit = [] ∧ rest.dropWhile Text.isDigit = rest := by
    cases rest with
    | nil => simp
    | cons x rest =>
      have hx : Text.isDigit x = false := by
        rcases hrest x rfl with rfl | rfl <;> decide
      simp [hx]
  have hfraction : scanFraction cs rest = ⟨cs, rest⟩ := by
    unfold scanFraction
    split
    · rcases hrest '.' rfl with h | h <;> simp at h
    · rfl
  rw [scanNumber, List.takeWhile_append_of_pos hcs, List.dropWhile_append_of_pos hcs, hstop.1,
    hstop.2, List.append_nil, hfraction]
  simp [hne]

theorem reserve_eq {t : Terminal} (ht : t ≠ .name) (lexeme : List Char) :
    reserve allowed t lexeme = t := by
  simp [reserve, ht]

/-- No terminal that is tried before a literal begins like it. -/
theorem literal_first {t : Terminal} {lexeme : String} (h : t.literal? = some lexeme) :
    ∃ c cs, lexeme.toList = c :: cs ∧ t ∈ Terminal.tried ∧ t ≠ .name ∧
      t.scan = scanLiteral (c :: cs) ∧
      ∀ u ∈ Terminal.tried.takeWhile (· != t), u.begins c = false := by
  cases t <;> cases h <;> exact ⟨_, _, rfl, by decide, by decide, rfl, by decide⟩

theorem scanLiteral_append (literal rest : List Char) :
    scanLiteral literal (literal ++ rest) = some ⟨literal, rest⟩ := by
  simp [scanLiteral]

theorem reads_literal {t : Terminal} {lexeme : String} (h : t.literal? = some lexeme)
    (hallowed : allowed.contains t) : Reads allowed lexeme t := by
  intro rest _
  obtain ⟨c, cs, hlexeme, htried, hname, hscan, hbefore⟩ := literal_first h
  rw [hlexeme]
  have hfound : t.scan (c :: cs ++ rest) = some ⟨c :: cs, rest⟩ := by
    rw [hscan, scanLiteral_append]
  rw [scan_eq htried hallowed hfound fun u hu _ => Terminal.scan_eq_none (hbefore u hu) _,
    reserve_eq hname]

theorem reads_name {s : String} (hs : isName s) (hallowed : allowed.contains .name)
    (hif : allowed.contains .ifWord = false) (helse : allowed.contains .elseWord = false) :
    Reads allowed s (reserve allowed .name s.toList) := by
  intro rest hrest
  unfold isName at hs
  split at hs
  · simp at hs
  · rename_i c cs hlist
    obtain ⟨hc, hcs⟩ : c.isLower = true ∧ ∀ x ∈ cs, isNameChar x := by simpa using hs
    rw [hlist]
    have hstop : ∀ x ∈ rest.head?, isNameChar x = false := by
      intro x hx
      rcases hrest x hx with rfl | rfl <;> decide
    have hfound : Terminal.name.scan (c :: cs ++ rest) = some ⟨c :: cs, rest⟩ :=
      scanWord_append hc hcs hstop
    refine scan_eq (by decide) hallowed hfound fun u hu hallow => ?_
    -- only `if` and `else` are tried before a name, and would match a longer one that begins so
    have hword : u = .ifWord ∨ u = .elseWord := by
      simpa [Terminal.tried] using hu
    rcases hword with rfl | rfl
    · rw [hif] at hallow
      cases hallow
    · rw [helse] at hallow
      cases hallow

theorem reads_gateName {s : String} (hs : isGateName s) (hallowed : allowed.contains .upperName) :
    Reads allowed s .upperName := by
  intro rest hrest
  unfold isGateName at hs
  split at hs
  · simp at hs
  · rename_i c cs hlist
    obtain ⟨hc, hcs⟩ : c.isUpper = true ∧ ∀ x ∈ cs, isUpperNameChar x := by simpa using hs
    rw [hlist]
    have hstop : ∀ x ∈ rest.head?, isUpperNameChar x = false := by
      intro x hx
      rcases hrest x hx with rfl | rfl <;> decide
    have hfound : Terminal.upperName.scan (c :: cs ++ rest) = some ⟨c :: cs, rest⟩ :=
      scanWord_append hc hcs hstop
    rw [scan_eq (by decide) hallowed hfound fun u hu _ => ?_, reserve_eq (by decide)]
    have hword : u = .ifWord ∨ u = .elseWord ∨ u = .name := by
      simpa [Terminal.tried] using hu
    refine Terminal.scan_eq_none ?_ _
    rcases hword with rfl | rfl | rfl
    · exact beq_eq_false_iff_ne.mpr (by rintro rfl; simp at hc)
    · exact beq_eq_false_iff_ne.mpr (by rintro rfl; simp at hc)
    · exact isLower_of_isUpper hc

theorem reads_number (n : Nat) (hallowed : allowed.contains .number) :
    Reads allowed (toString n) .number := by
  intro rest hrest
  rw [Nat.toString_eq_ofList_toDigits, String.toList_ofList]
  have hdigit : ∀ c ∈ Nat.toDigits 10 n, Text.isDigit c := fun c hc => by
    rw [Text.isDigit, Text.digitValue?_of_isDigit (Decimal.isDigit_toDigits n c hc)]
    rfl
  have hfound : Terminal.number.scan (Nat.toDigits 10 n ++ rest) = some ⟨Nat.toDigits 10 n, rest⟩ :=
    scanNumber_append Nat.toDigits_ne_nil hdigit hrest
  rw [scan_eq (by decide) hallowed hfound fun u hu _ => ?_, reserve_eq (by decide)]
  have hword : u = .ifWord ∨ u = .elseWord ∨ u = .name ∨ u = .upperName := by
    simpa [Terminal.tried] using hu
  obtain ⟨c, cs, hcs⟩ := List.exists_cons_of_ne_nil (Nat.toDigits_ne_nil : Nat.toDigits 10 n ≠ [])
  have hc := Decimal.isDigit_toDigits n c (by rw [hcs]; exact List.mem_cons_self)
  rw [hcs]
  refine Terminal.scan_eq_none ?_ _
  rcases hword with rfl | rfl | rfl | rfl
  · exact beq_eq_false_iff_ne.mpr (by rintro rfl; simp at hc)
  · exact beq_eq_false_iff_ne.mpr (by rintro rfl; simp at hc)
  · exact isLower_of_isDigit hc
  · exact isUpper_of_isDigit hc

/-- Where a line ends, no other terminal matches. -/
theorem Terminal.scan_lineEnd {t : Terminal} (ht : t ≠ .newline) {cs : List Char}
    (hrun : newlineRun cs ≠ []) : t.scan cs = none := by
  have hbegins : t.begins '\n' = false ∧ t.begins '\r' = false := by
    cases t <;> first | exact absurd rfl ht | decide
  unfold newlineRun at hrun
  split at hrun
  · exact Terminal.scan_eq_none hbegins.1 _
  · exact Terminal.scan_eq_none hbegins.2 _
  · exact absurd rfl hrun

/-- Line ends are read together, where a newline is allowed. -/
theorem scan_newlines {cs : List Char} (hallowed : allowed.contains .newline)
    (hrun : newlineRun cs ≠ []) :
    scan allowed cs =
      some (.newline, ⟨newlineRun cs, cs.drop (newlineRun cs).length⟩) := by
  have hbefore : ∀ u ∈ Terminal.tried.takeWhile (· != .newline), u ≠ .newline := by decide
  have hfound : Terminal.newline.scan cs =
      some ⟨newlineRun cs, cs.drop (newlineRun cs).length⟩ := by
    simp [Terminal.scan, scanNewlines, hrun]
  rw [scan_eq (by decide) hallowed hfound fun u hu _ => Terminal.scan_lineEnd (hbefore u hu) hrun,
    reserve_eq (by decide)]

/-- A single line feed is read as a newline where the next line begins with a token. -/
theorem scan_newline {rest : List Char} (hallowed : allowed.contains .newline)
    (hrest : ∀ c ∈ rest.head?, c ≠ '\n' ∧ c ≠ '\r') :
    scan allowed ('\n' :: rest) = some (.newline, ⟨['\n'], rest⟩) := by
  have hrun : newlineRun ('\n' :: rest) = ['\n'] := by
    rw [newlineRun, newlineRun_eq_nil hrest]
  rw [scan_newlines hallowed (by simp [hrun]), hrun]
  rfl

end Tokens

end GateScript.Source
