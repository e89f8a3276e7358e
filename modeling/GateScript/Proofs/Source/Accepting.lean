import GateScript.Proofs.Program.Printing
import GateScript.Proofs.Source.Spelling
import GateScript.Source.Parse

/-!
Reading back operands, items and pipelines.

`Accepts` says what reading on from a point in a text comes to, whatever the positions are. Each
construct has a lemma that reads its tokens and leaves the rest of the text; the lemma of a larger
construct is made of those of its parts.
-/
namespace GateScript.Source

open Program (Argument Part)

section Steps

/-- Reading on gives statements with a property, wherever the text stands. -/
def Accepts (r : Reader) (cs : List Char) (P : List Statement → Prop) : Prop :=
  ∀ last start, ∃ statements, readFrom r last start cs = .ok statements ∧ P statements

variable {r : Reader} {P : List Statement → Prop} {rest : List Char}

theorem accepts_blank (h : Accepts r rest P) : Accepts r (' ' :: rest) P := by
  intro last start
  obtain ⟨statements, hread, hP⟩ := h last (start.next ' ')
  refine ⟨statements, ?_, hP⟩
  rw [readFrom] at hread ⊢
  exact hread

section Reading

variable {last : Option Token} {start p : Position} {cs cs' : List Char}

theorem readFrom_end {statements : List Statement} (hskip : skip false start cs = (p, []))
    (hfeed : r.feed (endToken last) = .whole statements) :
    readFrom r last start cs = .ok statements := by
  rw [readFrom]
  split
  · simp only [hfeed]
  · rename_i heq
    rw [hskip] at heq
    simp at heq

theorem readFrom_token {t : Terminal} {m : Match} {r' : Reader}
    (hskip : skip false start cs = (p, cs')) (hscan : scan r.stage.follow cs' = some (t, m))
    (hfeed : r.feed (m.token t p) = .reading r') :
    readFrom r last start cs = readFrom r' (some (m.token t p)) (p.after m.lexeme) m.rest := by
  rw [readFrom]
  split
  · rename_i heq
    rw [hskip] at heq
    cases heq
    exact absurd (scan_shorter hscan) (by simp)
  · rename_i heq
    rw [hskip] at heq
    cases heq
    split
    · rename_i hm
      rw [hscan] at hm
      cases hm
      simp only [hfeed]
      rfl
    · rename_i hm
      rw [hscan] at hm
      cases hm

end Reading

theorem accepts_end {statements : List Statement}
    (h : ∀ t : Token, t.terminal = .endOfText → r.feed t = .whole statements) (hP : P statements) :
    Accepts r [] P := by
  intro last start
  have hfeed : r.feed (endToken last) = .whole statements := h _ (by cases last <;> rfl)
  exact ⟨statements, readFrom_end rfl hfeed, hP⟩

/-- A token is no blank and no comment. -/
theorem skip_of_scan {allowed : List Terminal} {cs : List Char} {t : Terminal} {m : Match}
    (h : scan allowed cs = some (t, m)) (p : Position) : skip false p cs = (p, cs) := by
  obtain ⟨u, hu, hscan⟩ := List.exists_of_findSome?_eq_some h
  cases cs with
  | nil => rfl
  | cons c rest =>
    have hbegins : u.begins c = true := by
      rw [← Bool.not_eq_false]
      intro hfalse
      rw [Terminal.scan_eq_none hfalse rest] at hscan
      simp at hscan
    have hblank : c ≠ ' ' ∧ c ≠ '\t' ∧ c ≠ '#' := by
      refine ⟨?_, ?_, ?_⟩ <;> (rintro rfl; cases u <;> exact absurd hbegins (by decide))
    simp_all [skip]

theorem accepts_scan {cs lexeme : List Char} {t : Terminal}
    (hscan : scan r.stage.follow cs = some (t, ⟨lexeme, rest⟩))
    (h : ∀ start stop, ∃ r', r.feed ⟨t, String.ofList lexeme, start, stop⟩ = .reading r' ∧
      Accepts r' rest P) : Accepts r cs P := by
  intro last start
  obtain ⟨r', hfeed, hrest⟩ := h start (start.after lexeme)
  rw [readFrom_token (skip_of_scan hscan start) hscan hfeed]
  exact hrest _ _

/-- Tokens with a blank before each. -/
def spell : List String → List Char → List Char
  | [], rest => rest
  | s :: ss, rest => ' ' :: (s.toList ++ spell ss rest)

theorem boundary_spell (ss : List String) (hrest : Boundary rest) : Boundary (spell ss rest) := by
  cases ss with
  | nil => exact hrest
  | cons s ss => exact .blank _

/-- The tokens of a line. -/
def line : List String → List Char → List Char
  | [], rest => rest
  | s :: ss, rest => s.toList ++ spell ss rest

/-- Reads the first token of a line. -/
theorem accepts_first {s : String} {ss : List String} {t : Terminal} (hrest : Boundary rest)
    (hreads : Reads r.stage.follow s t)
    (h : ∀ start stop, ∃ r', r.feed ⟨t, s, start, stop⟩ = .reading r' ∧
      Accepts r' (spell ss rest) P) : Accepts r (line (s :: ss) rest) P := by
  refine accepts_scan (hreads _ (boundary_spell ss hrest)) ?_
  rwa [String.ofList_toList]

/-- Reads one token. -/
theorem accepts_lexeme {s : String} {ss : List String} {t : Terminal} (hrest : Boundary rest)
    (hreads : Reads r.stage.follow s t)
    (h : ∀ start stop, ∃ r', r.feed ⟨t, s, start, stop⟩ = .reading r' ∧
      Accepts r' (spell ss rest) P) : Accepts r (spell (s :: ss) rest) P :=
  accepts_blank (accepts_first hrest hreads h)

theorem accepts_literal (t : Terminal) {s : String} {ss : List String} (hs : t.literal? = some s)
    (hrest : Boundary rest) (hfollow : r.stage.follow.contains t)
    (h : ∀ start stop, ∃ r', r.feed ⟨t, s, start, stop⟩ = .reading r' ∧
      Accepts r' (spell ss rest) P) : Accepts r (spell (s :: ss) rest) P :=
  accepts_lexeme hrest (reads_literal hs hfollow) h

theorem feed_extend {t : Token} {stage : Stage} (hfollow : r.stage.follow.contains t.terminal)
    (h : r.stage.extend t = some stage) : r.feed t = .reading ⟨r.statements, stage⟩ := by
  rw [Reader.feed, if_pos hfollow, h]

theorem not_word {allowed : List Terminal} {s word : String} {t : Terminal}
    (h : s ≠ word ∨ allowed.contains t = false) :
    (s.toList = word.toList && allowed.contains t) = false := by
  rcases h with h | h
  · rw [decide_eq_false fun heq => h (String.toList_inj.mp heq), Bool.false_and]
  · rw [h, Bool.and_false]

theorem reserve_name {allowed : List Terminal} {s : String}
    (hq : s ≠ "q" ∨ allowed.contains .q = false) (hb : s ≠ "b" ∨ allowed.contains .b = false) :
    reserve allowed .name s.toList = .name := by
  have hqword : (s.toList = ['q'] && allowed.contains .q) = false := not_word hq
  have hbword : (s.toList = ['b'] && allowed.contains .b) = false := not_word hb
  simp only [reserve, Bool.and_assoc, hqword, hbword]
  simp

end Steps

section Operands

variable {done : List Statement} {P : List Statement → Prop} {rest : List Char} {ss : List String}

/-- A stage that goes on with an operand, a name or a number. -/
structure StartsOperand (stage : Stage) (written : Operand → Stage) : Prop where
  name : stage.follow.contains .name
  number : stage.follow.contains .number
  ifWord : stage.follow.contains .ifWord = false
  elseWord : stage.follow.contains .elseWord = false
  b : stage.follow.contains .b = false
  extendName : ∀ t : Token, t.terminal = .name → stage.extend t = some (written (.name t))
  extendNumber : ∀ t : Token, t.terminal = .number → stage.extend t = some (written (.number t))

theorem startsOperand_list (site : ListSite) :
    StartsOperand (.listOpen site) (.firstOperand (.list site)) := by
  refine ⟨rfl, rfl, rfl, rfl, rfl, ?_, ?_⟩ <;> intro t ht <;> simp [Stage.extend, startOperand, ht]

theorem startsOperand_args (site : ItemSite) (gate : Token) :
    StartsOperand (.argsOpen site gate) (.firstOperand (.args site gate)) := by
  refine ⟨rfl, rfl, rfl, rfl, rfl, ?_, ?_⟩ <;> intro t ht <;> simp [Stage.extend, startOperand, ht]

theorem startsOperand_comma (site : OperandsSite) (before : List Operand) :
    StartsOperand (.comma site before) (.laterOperand site before) := by
  refine ⟨rfl, rfl, rfl, rfl, rfl, ?_, ?_⟩ <;> intro t ht <;> simp [Stage.extend, startOperand, ht]

theorem accepts_operand {stage : Stage} {written : Operand → Stage}
    (hstage : StartsOperand stage written) (hrest : Boundary rest) {arg : Argument}
    (harg : arg.Writable)
    (h : ∀ operand : Operand, operand.Spells arg →
      Accepts ⟨done, written operand⟩ (spell ss rest) P) :
    Accepts ⟨done, stage⟩ (spell (arg.lexeme :: ss) rest) P := by
  cases arg with
  | name s =>
    have hreads := reads_name harg.1 hstage.name hstage.ifWord hstage.elseWord
    rw [reserve_name (.inl harg.2) (.inr hstage.b)] at hreads
    refine accepts_lexeme hrest hreads fun start stop => ?_
    refine ⟨_, ?_, h (.name ⟨.name, s, start, stop⟩) ?_⟩
    · exact feed_extend hstage.name (hstage.extendName _ rfl)
    · exact .name ⟨rfl, rfl⟩
  | number n =>
    cases n with
    | real x => exact harg.elim
    | int n =>
      obtain ⟨k, rfl⟩ := Int.eq_ofNat_of_zero_le harg
      refine accepts_lexeme hrest (reads_number k hstage.number) fun start stop =>
        ⟨_, ?_, h (.number ⟨.number, toString k, start, stop⟩) ?_⟩
      · exact feed_extend hstage.number (hstage.extendNumber _ rfl)
      · exact .number ⟨rfl, rfl⟩

/-- The token that ends a run of operands, as it is written. -/
def OperandsSite.closingText : OperandsSite → String
  | .list _ => "]"
  | .args _ _ => ")"

theorem OperandsSite.literal_closing (site : OperandsSite) :
    site.closing.literal? = some site.closingText := by
  cases site <;> rfl

/-- The stage after a run of operands. -/
def OperandsSite.closed : OperandsSite → List Operand → Stage
  | .list site, operands => .listEnd site operands
  | .args site gate, operands => .itemEnd site (.gate gate operands)

/-- The stage after one operand of a run, with those before it. -/
inductive AfterOperand (site : OperandsSite) : Stage → List Operand → Prop
  | first (operand : Operand) : AfterOperand site (.firstOperand site operand) [operand]
  | later (before : List Operand) (operand : Operand) :
    AfterOperand site (.laterOperand site before operand) (before ++ [operand])

section

variable {site : OperandsSite} {stage : Stage} {operands : List Operand}

theorem AfterOperand.comma_follow (h : AfterOperand site stage operands) :
    stage.follow.contains .comma := by
  cases h <;> rfl

theorem AfterOperand.closing_follow (h : AfterOperand site stage operands) :
    stage.follow.contains site.closing := by
  cases h <;> cases site <;> rfl

theorem AfterOperand.feed_comma (h : AfterOperand site stage operands) {t : Token}
    (ht : t.terminal = .comma) :
    Reader.feed ⟨done, stage⟩ t = .reading ⟨done, .comma site operands⟩ := by
  rw [Reader.feed, ht, if_pos h.comma_follow]
  cases h <;> simp [Stage.extend, Stage.close, endOperand, ht]

theorem AfterOperand.feed_closing (h : AfterOperand site stage operands) {t : Token}
    (ht : t.terminal = site.closing) :
    Reader.feed ⟨done, stage⟩ t = .reading ⟨done, site.closed operands⟩ := by
  rw [Reader.feed, ht, if_pos h.closing_follow]
  cases h <;> cases site <;>
    simp [Stage.extend, Stage.close, endOperand, ht, OperandsSite.closing, OperandsSite.closed]

end

/-- Reads the operands of a run that come after others, and the end of the run. -/
theorem accepts_more_operands (hrest : Boundary rest) {site : OperandsSite} {args : List Argument}
    (hargs : ∀ arg ∈ args, arg.Writable) {stage : Stage} {operands : List Operand}
    (hstage : AfterOperand site stage operands)
    (h : ∀ more, List.Forall₂ Operand.Spells more args →
      Accepts ⟨done, site.closed (operands ++ more)⟩ (spell ss rest) P) :
    Accepts ⟨done, stage⟩
      (spell ((args.flatMap fun arg => [",", arg.lexeme]) ++ site.closingText :: ss) rest) P := by
  -- on the operands still to be read; the stage holds those that were
  induction args generalizing stage operands with
  | nil =>
    refine accepts_literal site.closing site.literal_closing hrest hstage.closing_follow ?_
    refine fun start stop => ⟨_, hstage.feed_closing rfl, ?_⟩
    simpa using h [] .nil
  | cons arg args ih =>
    obtain ⟨harg, hargs⟩ := List.forall_mem_cons.mp hargs
    refine accepts_literal .comma rfl hrest hstage.comma_follow fun start stop => ?_
    refine ⟨_, hstage.feed_comma rfl, ?_⟩
    refine accepts_operand (startsOperand_comma site operands) hrest harg fun operand hoperand => ?_
    refine ih hargs (.later operands operand) fun more hmore => ?_
    simpa using h (operand :: more) (.cons hoperand hmore)

theorem commaSeparated_cons (arg : Argument) (args : List Argument) :
    Program.commaSeparated ((arg :: args).map Argument.lexeme) =
      arg.lexeme :: args.flatMap fun arg => [",", arg.lexeme] := by
  simp [Program.commaSeparated, Program.separated, List.flatMap_map]

/-- Reads a run of operands. -/
theorem accepts_operands (hrest : Boundary rest) {site : OperandsSite} {args : List Argument}
    (hne : args ≠ []) (hargs : ∀ arg ∈ args, arg.Writable) {stage : Stage}
    (hstage : StartsOperand stage (.firstOperand site))
    (h : ∀ operands, List.Forall₂ Operand.Spells operands args →
      Accepts ⟨done, site.closed operands⟩ (spell ss rest) P) :
    Accepts ⟨done, stage⟩
      (spell (Program.commaSeparated (args.map Argument.lexeme) ++ site.closingText :: ss) rest)
      P := by
  obtain ⟨arg, args, rfl⟩ := List.exists_cons_of_ne_nil hne
  obtain ⟨harg, hargs⟩ := List.forall_mem_cons.mp hargs
  rw [commaSeparated_cons]
  refine accepts_operand hstage hrest harg fun operand hoperand => ?_
  refine accepts_more_operands hrest hargs (.first operand) fun more hmore => ?_
  exact h (operand :: more) (.cons hoperand hmore)

end Operands

section Items

variable {done : List Statement} {P : List Statement → Prop} {rest : List Char} {ss : List String}

/-- A stage that goes on with an item. -/
structure StartsItem (stage : Stage) (site : ItemSite) : Prop where
  name : stage.follow.contains .name
  upperName : stage.follow.contains .upperName
  ifWord : stage.follow.contains .ifWord = false
  elseWord : stage.follow.contains .elseWord = false
  extend : ∀ t : Token, t.terminal = .name ∨ t.terminal = .upperName →
    stage.extend t = startItem site t

theorem startsItem_colon (x : Token) : StartsItem (.colon x) (.first (.declaration x)) := by
  refine ⟨rfl, rfl, rfl, rfl, ?_⟩
  rintro t (ht | ht) <;> simp [Stage.extend, startDeclaration, ht]

theorem startsItem_arrow (target : Target) : StartsItem (.arrow target) (.lead target) := by
  refine ⟨rfl, rfl, rfl, rfl, ?_⟩
  rintro t (ht | ht) <;> simp [Stage.extend, startAction, ht]

theorem startsItem_itemStart (site : ItemSite) : StartsItem (.itemStart site) site := by
  cases site with
  | elseBranch target branch flag =>
    refine ⟨rfl, rfl, rfl, rfl, ?_⟩
    rintro t (ht | ht) <;> simp [Stage.extend, ht]
  | _ => exact ⟨rfl, rfl, rfl, rfl, fun _ _ => rfl⟩

/-- The stage after an item. Some items could still go on. -/
inductive AfterItem (site : ItemSite) : Stage → Item → Prop
  | name (t : Token) : AfterItem site (.itemName site t) (.named t none)
  | gate (t : Token) : AfterItem site (.gateName site t) (.gate t [])
  | whole (item : Item) : AfterItem site (.itemEnd site item) item

/-- What can come after an item where it ends. -/
def itemEnds : List Terminal := [.bar, .ifWord, .closeParen, .newline, .endOfText]

theorem AfterItem.follow {site : ItemSite} {stage : Stage} {item : Item}
    (h : AfterItem site stage item) {t : Terminal} (ht : t ∈ itemEnds) :
    stage.follow.contains t := by
  simp only [itemEnds, List.mem_cons, List.not_mem_nil, or_false] at ht
  rcases ht with rfl | rfl | rfl | rfl | rfl <;> cases h <;> rfl

theorem AfterItem.feed {site : ItemSite} {stage : Stage} {item : Item}
    (h : AfterItem site stage item) {t : Token} (ht : t.terminal ∈ itemEnds) :
    Reader.feed ⟨done, stage⟩ t = endItem done site item t := by
  have hne : t.terminal ≠ .reverseArrow ∧ t.terminal ≠ .openParen := by
    constructor <;> (intro heq; rw [heq] at ht; simp [itemEnds] at ht)
  rw [Reader.feed, if_pos (h.follow ht)]
  cases h <;> simp [Stage.extend, Stage.close, hne]

/-- Reads an item. -/
theorem accepts_part (hrest : Boundary rest) {stage : Stage} {site : ItemSite}
    (hstage : StartsItem stage site) {part : Part} (hpart : part.Writable)
    (hword : ∀ r, part = .named r → reserve stage.follow .name r.name.toList = .name)
    (h : ∀ stage' item, Item.Spells item part → AfterItem site stage' item →
      Accepts ⟨done, stage'⟩ (spell ss rest) P) :
    Accepts ⟨done, stage⟩ (spell (part.lexemes ++ ss) rest) P := by
  cases part with
  | gate call =>
    obtain ⟨name, args⟩ := call
    obtain ⟨hname, hargs⟩ := hpart
    have hgate : ∀ start stop, Reader.feed ⟨done, stage⟩ ⟨.upperName, name, start, stop⟩ =
        .reading ⟨done, .gateName site ⟨.upperName, name, start, stop⟩⟩ := fun start stop =>
      feed_extend hstage.upperName (hstage.extend _ (.inr rfl))
    cases args with
    | nil =>
      refine accepts_lexeme hrest (reads_gateName hname hstage.upperName) fun start stop => ?_
      exact ⟨_, hgate start stop, h _ _ (.gate ⟨rfl, rfl⟩ .nil) (.gate _)⟩
    | cons arg args =>
      have hlexemes : (Part.gate ⟨name, arg :: args⟩).lexemes ++ ss = name :: "(" ::
          (Program.commaSeparated ((arg :: args).map Argument.lexeme) ++ ")" :: ss) := by
        simp [Part.lexemes]
      rw [hlexemes]
      refine accepts_lexeme hrest (reads_gateName hname hstage.upperName) fun start stop => ?_
      refine ⟨_, hgate start stop, ?_⟩
      refine accepts_literal .openParen rfl hrest rfl fun _ _ => ⟨_, rfl, ?_⟩
      refine accepts_operands hrest (by simp) hargs (startsOperand_args site _) ?_
      exact fun operands hoperands => h _ _ (.gate ⟨rfl, rfl⟩ hoperands) (.whole _)
  | named r =>
    obtain ⟨name, reversed⟩ := r
    have hreads := reads_name hpart hstage.name hstage.ifWord hstage.elseWord
    rw [hword _ rfl] at hreads
    have hnamed : ∀ start stop, Reader.feed ⟨done, stage⟩ ⟨.name, name, start, stop⟩ =
        .reading ⟨done, .itemName site ⟨.name, name, start, stop⟩⟩ := fun start stop =>
      feed_extend hstage.name (hstage.extend _ (.inl rfl))
    cases reversed with
    | false =>
      refine accepts_lexeme hrest hreads fun start stop => ⟨_, hnamed start stop, ?_⟩
      exact h _ _ (.named ⟨rfl, rfl⟩) (.name _)
    | true =>
      refine accepts_lexeme hrest hreads fun start stop => ⟨_, hnamed start stop, ?_⟩
      refine accepts_literal .reverseArrow rfl hrest rfl fun _ _ => ⟨_, rfl, ?_⟩
      exact h _ _ (.backwards ⟨rfl, rfl⟩ ⟨rfl, rfl⟩) (.whole _)

/-- The stage after an item of a pipeline, with the items before it. -/
inductive AfterItems : PipelineSite → Stage → List Item → Prop
  | lead {target : Target} {stage : Stage} {item : Item} (h : AfterItem (.lead target) stage item) :
    AfterItems (.action target none) stage [item]
  | first {site : PipelineSite} {stage : Stage} {item : Item}
      (h : AfterItem (.first site) stage item) :
    AfterItems site stage [item]
  | later {site : PipelineSite} {stage : Stage} {before : List Item} {item : Item}
      (h : AfterItem (.later site before) stage item) : AfterItems site stage (before ++ [item])

section

variable {site : PipelineSite} {stage : Stage} {items : List Item}

theorem AfterItems.follow (h : AfterItems site stage items) {t : Terminal} (ht : t ∈ itemEnds) :
    stage.follow.contains t := by
  cases h with
  | lead h => exact h.follow ht
  | first h => exact h.follow ht
  | later h => exact h.follow ht

theorem AfterItems.feed_bar (h : AfterItems site stage items) {t : Token}
    (ht : t.terminal = .bar) :
    Reader.feed ⟨done, stage⟩ t = .reading ⟨done, .itemStart (.later site items)⟩ := by
  have hends : t.terminal ∈ itemEnds := by rw [ht]; decide
  cases h with
  | lead h => rw [h.feed hends, endItem, if_pos ht]
  | first h => rw [h.feed hends, endItem, if_pos ht]
  | later h => rw [h.feed hends, endItem, if_pos ht]

/-- A pipeline ends where a statement does. -/
theorem AfterItems.feed_end (h : AfterItems site stage items) {t : Token}
    (ht : t.terminal = .newline ∨ t.terminal = .endOfText) :
    Reader.feed ⟨done, stage⟩ t = endPipeline done site items t := by
  have hends : t.terminal ∈ itemEnds := by rcases ht with ht | ht <;> (rw [ht]; decide)
  cases h with
  | lead h => rcases ht with ht | ht <;> simp [h.feed hends, endItem, endPipeline, ht]
  | first h => rcases ht with ht | ht <;> simp [h.feed hends, endItem, ht]
  | later h => rcases ht with ht | ht <;> simp [h.feed hends, endItem, ht]

/-- A pipeline in parentheses ends where they are closed. -/
theorem AfterItems.feed_closeParen (h : AfterItems site stage items)
    (hsite : ∀ target count, site ≠ .action target count) {t : Token}
    (ht : t.terminal = .closeParen) :
    Reader.feed ⟨done, stage⟩ t = endPipeline done site items t := by
  have hends : t.terminal ∈ itemEnds := by rw [ht]; decide
  cases h with
  | lead h => exact absurd rfl (hsite _ _)
  | first h => simp [h.feed hends, endItem, ht]
  | later h => simp [h.feed hends, endItem, ht]

end

/-- Reads the parts of a pipeline that come after others. -/
theorem accepts_more_parts (hrest : Boundary rest) {site : PipelineSite} {parts : List Part}
    (hparts : ∀ part ∈ parts, part.Writable) {stage : Stage} {items : List Item}
    (hstage : AfterItems site stage items)
    (h : ∀ stage' more, List.Forall₂ Item.Spells more parts →
      AfterItems site stage' (items ++ more) → Accepts ⟨done, stage'⟩ (spell ss rest) P) :
    Accepts ⟨done, stage⟩
      (spell ((parts.flatMap fun part => "|" :: part.lexemes) ++ ss) rest) P := by
  induction parts generalizing stage items with
  | nil => exact h stage [] .nil (by simpa using hstage)
  | cons part parts ih =>
    obtain ⟨hpart, hparts⟩ := List.forall_mem_cons.mp hparts
    have hlexemes : ((part :: parts).flatMap fun part => "|" :: part.lexemes) ++ ss =
        "|" :: (part.lexemes ++ ((parts.flatMap fun part => "|" :: part.lexemes) ++ ss)) := by
      simp
    rw [hlexemes]
    refine accepts_literal .bar rfl hrest (hstage.follow (by decide)) fun _ _ => ?_
    refine ⟨_, hstage.feed_bar rfl, ?_⟩
    refine accepts_part hrest (startsItem_itemStart _) hpart (fun r _ => ?_) ?_
    · exact reserve_name (.inr rfl) (.inr rfl)
    · intro stage' item hitem hafter
      refine ih hparts (.later hafter) fun stage'' more hmore hafter' => ?_
      rw [List.append_assoc] at hafter'
      exact h stage'' (item :: more) (.cons hitem hmore) hafter'

theorem pipelineLexemes_cons (part : Part) (parts : List Part) :
    Program.pipelineLexemes (part :: parts) =
      part.lexemes ++ parts.flatMap fun part => "|" :: part.lexemes := by
  simp [Program.pipelineLexemes, Program.separated, List.flatMap_map]

/-- Reads a pipeline from its first item on. -/
theorem accepts_pipeline (hrest : Boundary rest) {stage : Stage} {itemSite : ItemSite}
    {site : PipelineSite} {parts : List Part} (hparts : Program.PipelineWritable parts)
    (hstage : StartsItem stage itemSite)
    (hsite : ∀ stage' item, AfterItem itemSite stage' item → AfterItems site stage' [item])
    (hword : ∀ r, parts.head? = some (.named r) → reserve stage.follow .name r.name.toList = .name)
    (h : ∀ stage' items, List.Forall₂ Item.Spells items parts → AfterItems site stage' items →
      Accepts ⟨done, stage'⟩ (spell ss rest) P) :
    Accepts ⟨done, stage⟩ (spell (Program.pipelineLexemes parts ++ ss) rest) P := by
  obtain ⟨hne, hparts⟩ := hparts
  obtain ⟨part, parts, rfl⟩ := List.exists_cons_of_ne_nil hne
  obtain ⟨hpart, hparts⟩ := List.forall_mem_cons.mp hparts
  rw [pipelineLexemes_cons, List.append_assoc]
  refine accepts_part hrest hstage hpart (fun r hr => hword r (by rw [hr]; rfl)) ?_
  intro stage' item hitem hafter
  refine accepts_more_parts hrest hparts (hsite stage' item hafter) fun stage'' more hmore => ?_
  exact h stage'' (item :: more) (.cons hitem hmore)

end Items

end GateScript.Source
