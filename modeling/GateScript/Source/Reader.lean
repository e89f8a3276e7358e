import GateScript.Source.Statement

/-!
Reading statements token by token.

A `Stage` is the point reached inside a statement, with what was read of it. `Stage.follow` lists
the terminals that the stage takes notice of; they decide what the scanner tries next. A stage
that ends a gate, a list or an operand does not yet look at what surrounds it, so it takes notice
of every terminal that could follow it anywhere; whether the token fits is settled when the piece
is closed, and a refusal then names what the surroundings would have taken.
-/
namespace GateScript.Source

/-- What a pipeline belongs to. -/
inductive PipelineSite where
  | declaration (name : Token)
  | action (target : Target) (count : Option Token)
  | ifGroup (target : Target)
  | elseGroup (target : Target) (branch : Branch) (bit : Token)
  deriving DecidableEq, Repr

/-- What an item belongs to. -/
inductive ItemSite where
  /-- Right after the arrow, where a pipeline or a branch may begin. -/
  | lead (target : Target)
  | first (pipeline : PipelineSite)
  | later (pipeline : PipelineSite) (before : List Item)
  | elseBranch (target : Target) (branch : Branch) (bit : Token)
  deriving DecidableEq, Repr

/-- What a list in brackets belongs to. -/
inductive ListSite where
  | declaration (name : Token)
  | target
  deriving DecidableEq, Repr

/-- What a run of operands with commas belongs to. -/
inductive OperandsSite where
  | list (site : ListSite)
  | args (site : ItemSite) (gate : Token)
  deriving DecidableEq, Repr

/-- What an operand belongs to. -/
inductive OperandSite where
  | target
  | first (operands : OperandsSite)
  | later (operands : OperandsSite) (before : List Operand)
  deriving DecidableEq, Repr

inductive Stage where
  /-- Nothing but newlines so far. -/
  | start
  /-- Newlines after a statement. -/
  | between
  /-- A name at the start of a statement. -/
  | name (name : Token)
  /-- A whole target, save one that ends like an operand or a list. -/
  | target (target : Target)
  /-- The word `q` in place of an operand. -/
  | qubitWord (site : OperandSite)
  /-- The word `q` and a number in place of an operand. -/
  | qubit (site : OperandSite) (index : Token)
  | listOpen (site : ListSite)
  /-- The first operand, a name or a number. -/
  | firstOperand (site : OperandsSite) (operand : Operand)
  | comma (site : OperandsSite) (before : List Operand)
  /-- A later operand, a name or a number. -/
  | laterOperand (site : OperandsSite) (before : List Operand) (operand : Operand)
  | listEnd (site : ListSite) (items : List Operand)
  | colon (name : Token)
  | qubitDeclaration (name : Token)
  | qubitRegister (name register : Token)
  | bitDeclaration (name : Token)
  | bitRegister (name register : Token)
  /-- A statement that ends in a number. -/
  | declared (statement : Statement)
  | arrow (target : Target)
  | itemStart (site : ItemSite)
  | itemName (site : ItemSite) (name : Token)
  | gateName (site : ItemSite) (name : Token)
  | argsOpen (site : ItemSite) (gate : Token)
  /-- An item that cannot go on. -/
  | itemEnd (site : ItemSite) (item : Item)
  | ifGroupEnd (target : Target) (items : List Item)
  | elseGroupEnd (target : Target) (branch : Branch) (bit : Token) (items : List Item)
  | ifWord (target : Target) (branch : Branch)
  | condition (target : Target) (branch : Branch) (bit : Token)
  deriving DecidableEq, Repr

/-- What may come after a whole statement. -/
def afterStatement : List Terminal := [.endOfText, .all, .openBracket, .name, .number, .q, .newline]

/-- What may come after a whole pipeline whose surroundings are not known. -/
def afterPipeline : List Terminal :=
  [.endOfText, .all, .openBracket, .name, .number, .q, .closeParen, .bar, .newline]

/-- What may come after the first item of an action. -/
def afterLead : List Terminal :=
  [.endOfText, .all, .openBracket, .name, .number, .q, .bar, .ifWord, .newline]

/-- What may come after an item whose surroundings are not known. -/
def afterItem : List Terminal :=
  [.endOfText, .all, .openBracket, .name, .number, .q, .closeParen, .bar, .ifWord, .newline]

/-- What may come after a list whose surroundings are not known. -/
def afterList : List Terminal :=
  [.endOfText, .all, .openBracket, .name, .number, .q, .newline, .arrow]

/-- The terminal that ends a run of operands. -/
def OperandsSite.closing : OperandsSite → Terminal
  | .list _ => .closeBracket
  | .args _ _ => .closeParen

/-- What may come after an operand of a run. -/
def OperandsSite.follow (site : OperandsSite) : List Terminal := [.comma, site.closing]

/-- Terminals in the order of their labels. -/
def Stage.follow : Stage → List Terminal
  | .start => [.all, .openBracket, .name, .number, .q, .newline]
  | .between => afterStatement
  | .name _ => [.colon, .arrow]
  | .target _ => [.arrow]
  | .qubitWord _ => [.number]
  | .qubit _ _ => [.comma, .closeParen, .closeBracket, .arrow]
  | .listOpen _ => [.name, .number, .q]
  | .firstOperand site _ => site.follow
  | .comma _ _ => [.name, .number, .q]
  | .laterOperand _ _ _ => [.comma, .closeParen, .closeBracket]
  | .listEnd _ _ => afterList
  | .colon _ => [.b, .openBracket, .name, .number, .q, .upperName]
  | .qubitDeclaration _ => [.name, .number]
  | .qubitRegister _ _ => [.number]
  | .bitDeclaration _ => [.name, .number]
  | .bitRegister _ _ => [.number]
  | .declared _ => afterStatement
  | .arrow _ => [.openParen, .name, .number, .upperName]
  | .itemStart (.elseBranch _ _ _) => [.openParen, .name, .upperName]
  | .itemStart _ => [.name, .upperName]
  | .itemName _ _ =>
    [.endOfText, .all, .openBracket, .name, .number, .q, .reverseArrow, .closeParen, .bar, .ifWord,
      .newline]
  | .gateName _ _ =>
    [.endOfText, .all, .openParen, .openBracket, .name, .number, .q, .closeParen, .bar, .ifWord,
      .newline]
  | .argsOpen _ _ => [.name, .number, .q, .closeParen]
  | .itemEnd _ _ => afterItem
  | .ifGroupEnd _ _ => [.endOfText, .all, .openBracket, .name, .number, .q, .ifWord, .newline]
  | .elseGroupEnd _ _ _ _ => [.endOfText, .all, .openBracket, .name, .number, .q, .ifWord, .newline]
  | .ifWord _ _ => [.name]
  | .condition _ _ _ => [.endOfText, .all, .openBracket, .name, .number, .q, .elseWord, .newline]

/-- The statements read, and the stage of the one being read. -/
structure Reader where
  statements : List Statement
  stage : Stage
  deriving DecidableEq, Repr

/-- What a token leads to. A refusal lists what would have been taken in its place. -/
inductive Progress where
  | reading (reader : Reader)
  | whole (statements : List Statement)
  | refused (expected : List Terminal)
  deriving DecidableEq, Repr

/-- Begins a statement, after whole ones. -/
def startStatement (done : List Statement) (stage : Stage) (t : Token) : Progress :=
  match t.terminal with
  | .all => .reading ⟨done, .target (.all t)⟩
  | .openBracket => .reading ⟨done, .listOpen .target⟩
  | .name => .reading ⟨done, .name t⟩
  | .number => .reading ⟨done, .target (.operand (.number t))⟩
  | .q => .reading ⟨done, .qubitWord .target⟩
  | .newline => .reading ⟨done, stage⟩
  | _ => .refused stage.follow

/-- Ends a statement before the token. -/
def endStatement (done : List Statement) (s : Statement) (t : Token) : Progress :=
  if t.terminal = .endOfText then .whole (done ++ [s])
  else startStatement (done ++ [s]) .between t

/-- Ends a pipeline before the token, which is not a bar. -/
def endPipeline (done : List Statement) (site : PipelineSite) (items : List Item) (t : Token) :
    Progress :=
  match site with
  | .declaration name => endStatement done (.instruction name items) t
  | .action target count => endStatement done (.action target count items) t
  | .ifGroup target =>
    if t.terminal = .closeParen then .reading ⟨done, .ifGroupEnd target items⟩
    else .refused [.closeParen]
  | .elseGroup target branch bit =>
    if t.terminal = .closeParen then .reading ⟨done, .elseGroupEnd target branch bit items⟩
    else .refused [.closeParen]

/-- Ends an item before the token. -/
def endItem (done : List Statement) (site : ItemSite) (item : Item) (t : Token) : Progress :=
  match site with
  | .lead target =>
    if t.terminal = .bar then
      .reading ⟨done, .itemStart (.later (.action target none) [item])⟩
    else if t.terminal = .ifWord then .reading ⟨done, .ifWord target (.item item)⟩
    else if t.terminal = .closeParen then .refused afterLead
    else endStatement done (.action target none [item]) t
  | .first pipeline =>
    if t.terminal = .bar then .reading ⟨done, .itemStart (.later pipeline [item])⟩
    else if t.terminal = .ifWord then .refused afterPipeline
    else endPipeline done pipeline [item] t
  | .later pipeline before =>
    if t.terminal = .bar then .reading ⟨done, .itemStart (.later pipeline (before ++ [item]))⟩
    else if t.terminal = .ifWord then .refused afterPipeline
    else endPipeline done pipeline (before ++ [item]) t
  | .elseBranch target branch bit =>
    endStatement done (.conditional target branch bit (some (.item item))) t

/-- Goes on after the operands of a run. -/
def endOperand (done : List Statement) (site : OperandsSite) (operands : List Operand) (t : Token) :
    Progress :=
  if t.terminal = .comma then .reading ⟨done, .comma site operands⟩
  else if t.terminal = site.closing then
    match site with
    | .list list => .reading ⟨done, .listEnd list operands⟩
    | .args item gate => .reading ⟨done, .itemEnd item (.gate gate operands)⟩
  else .refused site.follow

/-- Reads an operand of a run. -/
def startOperand (site : OperandSite) (written : Operand → Stage) (t : Token) : Option Stage :=
  match t.terminal with
  | .name => some (written (.name t))
  | .number => some (written (.number t))
  | .q => some (.qubitWord site)
  | _ => none

/-- Reads the name of a gate or of a pipeline. -/
def startItem (site : ItemSite) (t : Token) : Option Stage :=
  match t.terminal with
  | .name => some (.itemName site t)
  | .upperName => some (.gateName site t)
  | _ => none

/-- Reads what a name is declared as. -/
def startDeclaration (name t : Token) : Option Stage :=
  match t.terminal with
  | .q => some (.qubitDeclaration name)
  | .b => some (.bitDeclaration name)
  | .number => some (.declared (.plainQubit name t))
  | .openBracket => some (.listOpen (.declaration name))
  | _ => startItem (.first (.declaration name)) t

/-- Reads what is done to a target. -/
def startAction (target : Target) (t : Token) : Option Stage :=
  match t.terminal with
  | .openParen => some (.itemStart (.first (.ifGroup target)))
  | .number => some (.itemStart (.first (.action target (some t))))
  | _ => startItem (.lead target) t

/-- Reads the index of a declared unit, or the register before it. -/
def startIndex (register : Token → Stage) (declared : Token → Statement) (t : Token) :
    Option Stage :=
  match t.terminal with
  | .name => some (register t)
  | .number => some (.declared (declared t))
  | _ => none

/-- The stage after a token that goes on with the piece being read. -/
def Stage.extend (s : Stage) (t : Token) : Option Stage :=
  match s with
  | .name x =>
    match t.terminal with
    | .colon => some (.colon x)
    | .arrow => some (.arrow (.operand (.name x)))
    | _ => none
  | .target aim => if t.terminal = .arrow then some (.arrow aim) else none
  | .qubitWord site => if t.terminal = .number then some (.qubit site t) else none
  | .listOpen site => startOperand (.first (.list site)) (.firstOperand (.list site)) t
  | .comma site before => startOperand (.later site before) (.laterOperand site before) t
  | .colon x => startDeclaration x t
  | .qubitDeclaration x => startIndex (.qubitRegister x) (.qubit x none) t
  | .qubitRegister x register =>
    if t.terminal = .number then some (.declared (.qubit x (some register) t)) else none
  | .bitDeclaration x => startIndex (.bitRegister x) (.bit x none) t
  | .bitRegister x register =>
    if t.terminal = .number then some (.declared (.bit x (some register) t)) else none
  | .arrow aim => startAction aim t
  | .itemStart (.elseBranch aim branch bit) =>
    if t.terminal = .openParen then some (.itemStart (.first (.elseGroup aim branch bit)))
    else startItem (.elseBranch aim branch bit) t
  | .itemStart site => startItem site t
  | .itemName site x =>
    if t.terminal = .reverseArrow then some (.itemEnd site (.named x (some t))) else none
  | .gateName site x => if t.terminal = .openParen then some (.argsOpen site x) else none
  | .argsOpen site gate =>
    if t.terminal = .closeParen then some (.itemEnd site (.gate gate []))
    else startOperand (.first (.args site gate)) (.firstOperand (.args site gate)) t
  | .ifWord aim branch => if t.terminal = .name then some (.condition aim branch t) else none
  | .condition aim branch bit =>
    if t.terminal = .elseWord then some (.itemStart (.elseBranch aim branch bit)) else none
  | _ => none

/-- What a token leads to that ends the piece being read. -/
def Stage.close (done : List Statement) (s : Stage) (t : Token) : Progress :=
  match s with
  | .start => startStatement done .start t
  | .between =>
    if t.terminal = .endOfText then .whole done else startStatement done .between t
  | .qubit .target index =>
    if t.terminal = .arrow then .reading ⟨done, .arrow (.operand (.qubit index))⟩
    else .refused [.arrow]
  | .qubit (.first site) index => endOperand done site [.qubit index] t
  | .qubit (.later site before) index =>
    if t.terminal = .arrow then .refused [.comma, .closeParen, .closeBracket]
    else endOperand done site (before ++ [.qubit index]) t
  | .firstOperand site operand => endOperand done site [operand] t
  | .laterOperand site before operand => endOperand done site (before ++ [operand]) t
  | .listEnd (.declaration x) items => endStatement done (.list x items) t
  | .listEnd .target items =>
    if t.terminal = .arrow then .reading ⟨done, .arrow (.list items)⟩ else .refused [.arrow]
  | .declared statement => endStatement done statement t
  | .itemName site x => endItem done site (.named x none) t
  | .gateName site x => endItem done site (.gate x []) t
  | .itemEnd site item => endItem done site item t
  | .ifGroupEnd aim items =>
    if t.terminal = .ifWord then .reading ⟨done, .ifWord aim (.group items)⟩
    else .refused [.ifWord]
  | .elseGroupEnd aim branch bit items =>
    endStatement done (.conditional aim branch bit (some (.group items))) t
  | .condition aim branch bit => endStatement done (.conditional aim branch bit none) t
  | s => .refused s.follow

/-- Takes one token. The end of the text is a token of its own. -/
def Reader.feed (r : Reader) (t : Token) : Progress :=
  if r.stage.follow.contains t.terminal then
    match r.stage.extend t with
    | some stage => .reading ⟨r.statements, stage⟩
    | none => r.stage.close r.statements t
  else .refused r.stage.follow

end GateScript.Source
