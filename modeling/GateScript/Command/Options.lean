import GateScript.Text.Digit

/-!
Options of a command line.

A long option may be cut short as long as it stays unique, and takes its value after `=` or from
the next argument. The value of a short option may follow it directly. After `--` nothing is an
option. What begins with a dash is a value all the same if it is a dash alone, looks like a
negative number or holds a blank.
-/
namespace GateScript.Command

/-- After this argument nothing is an option. -/
def separator : String := "--"

inductive OptionKind where
  | value
  | switch
  | help
  deriving DecidableEq, Repr

/-- An option: the names it goes by, and which values it takes. -/
structure OptionRule where
  key : String
  flags : List String
  kind : OptionKind
  accepts : String → Bool

/-- A command line: its options, and whether it takes an argument that is no option. -/
structure OptionRules where
  options : List OptionRule
  takesOperand : Bool

/-- An option as it was written, with what is attached to it in the same argument. -/
structure Flagged where
  rule : OptionRule
  flag : String
  attached : Option (List Char)

/-- What an argument is taken for. -/
inductive Shape where
  | operand
  | separator
  | option (flagged : Flagged)
  | unknownOption
  /-- Several options go by what was written. -/
  | ambiguous

def Shape.isAmbiguous : Shape → Bool
  | .ambiguous => true
  | _ => false

namespace OptionRules

/-- All flags with their options. -/
def flags (rules : OptionRules) : List (String × OptionRule) :=
  rules.options.flatMap fun rule => rule.flags.map (·, rule)

def find? (rules : OptionRules) (flag : String) : Option OptionRule := rules.flags.lookup flag

end OptionRules

/-- What stands before the first equals sign, and what follows. -/
def splitEquals (cs : List Char) : List Char × Option (List Char) :=
  match cs.dropWhile (· ≠ '=') with
  | [] => (cs, none)
  | _ :: value => (cs.takeWhile (· ≠ '='), some value)

/-- Digits, or digits after a point. A newline may end them. -/
def looksUnsigned (cs : List Char) : Bool :=
  let digitsOnly (ds : List Char) :=
    let run := ds.takeWhile Text.isDigit
    let rest := ds.dropWhile Text.isDigit
    !run.isEmpty && (rest.isEmpty || rest == ['\n'])
  digitsOnly cs ||
    match cs.dropWhile Text.isDigit with
    | '.' :: fraction => digitsOnly fraction
    | _ => false

def looksNegative : List Char → Bool
  | '-' :: cs => looksUnsigned cs
  | _ => false

/-- The options that an argument may stand for, by a part of their names or with a value attached. -/
def candidates (rules : OptionRules) (cs : List Char) : List Flagged :=
  match cs with
  | '-' :: '-' :: _ =>
    let (written, attached) := splitEquals cs
    rules.flags.filterMap fun (flag, rule) =>
      if written.isPrefixOf flag.toList then some ⟨rule, flag, attached⟩ else none
  | _ =>
    rules.flags.filterMap fun (flag, rule) =>
      if flag.toList = cs.take 2 then some ⟨rule, flag, some (cs.drop 2)⟩
      else if cs.isPrefixOf flag.toList then some ⟨rule, flag, none⟩
      else none

/-- What an argument before any separator is taken for. -/
def shapeOf (rules : OptionRules) (arg : String) : Shape :=
  let cs := arg.toList
  if arg = separator then .separator
  else if cs.head? ≠ some '-' then .operand
  else
    match rules.find? arg with
    | some rule => .option ⟨rule, arg, none⟩
    | none =>
      if cs.length = 1 then .operand
      else
        let (written, attached) := splitEquals cs
        match rules.find? (String.ofList written) with
        | some rule => .option ⟨rule, String.ofList written, attached⟩
        | none =>
          match candidates rules cs with
          | [flagged] => .option flagged
          | _ :: _ :: _ => .ambiguous
          | [] => if looksNegative cs || cs.contains ' ' then .operand else .unknownOption

/-- All arguments with their shapes. After a separator all are operands. -/
def shapes (rules : OptionRules) : List String → List (String × Shape)
  | [] => []
  | arg :: args =>
    match shapeOf rules arg with
    | .separator => (arg, .separator) :: args.map (·, .operand)
    | shape => (arg, shape) :: shapes rules args

/-- The options that a command line sets, the latest first, and its operand. An option may be set to
nothing. -/
structure Settings where
  values : List (String × Option String)
  switches : List String
  operand : Option String
  /-- Is there an argument that nothing takes? -/
  leftOver : Bool
  deriving DecidableEq, Repr

/-- What a command line asks for. -/
inductive Parsed where
  | run (settings : Settings)
  | help
  | usage
  deriving DecidableEq, Repr

/-- What an option asks for once its value is known. -/
inductive Setting where
  | value (key : String) (value : Option String)
  | switch (key : String)
  | help
  | refused
  deriving DecidableEq, Repr

/-- What an option asks for with a value. A separator in place of the value sets the option to
nothing, which is never refused. -/
def OptionRule.setting (rule : OptionRule) (value : String) : Setting :=
  match rule.kind with
  | .value =>
    if value = separator then .value rule.key none
    else if rule.accepts value then .value rule.key (some value)
    else .refused
  | .switch => .switch rule.key
  | .help => .help

/-- What a written option comes to. -/
structure Reading where
  settings : List Setting
  /-- The option that still takes the next argument. -/
  pending : Option OptionRule

/-- Reads the letters that are attached to an option without a value: each is an option of its own,
and one that takes a value takes the rest. -/
def readLetters (rules : OptionRules) (rule : OptionRule) : List Char → Option Reading
  | [] => some ⟨[rule.setting ""], none⟩
  | c :: rest =>
    match rules.find? (String.ofList ['-', c]) with
    | none => none
    | some next =>
      match next.kind, rest with
      | .value, [] => some ⟨[rule.setting ""], some next⟩
      | .value, value => some ⟨[rule.setting "", next.setting (String.ofList value)], none⟩
      | _, rest =>
        (readLetters rules next rest).map fun r =>
          { r with settings := rule.setting "" :: r.settings }

def isLong (flag : String) : Bool := separator.toList.isPrefixOf flag.toList

/-- Reads an option as written. To a short one without a value more letters may be attached, also
after an equals sign. -/
def readOption (rules : OptionRules) (f : Flagged) : Option Reading :=
  match f.rule.kind, f.attached with
  | .value, none => some ⟨[], some f.rule⟩
  | .value, some value => some ⟨[f.rule.setting (String.ofList value)], none⟩
  | _, none => some ⟨[f.rule.setting ""], none⟩
  | _, some [] => none
  | _, some letters => if isLong f.flag then none else readLetters rules f.rule letters

/-- Takes settings in order. Help and a value that is refused end the reading. -/
def Settings.take (s : Settings) : List Setting → Except Parsed Settings
  | [] => .ok s
  | .value key value :: rest => take { s with values := (key, value) :: s.values } rest
  | .switch key :: rest => take { s with switches := key :: s.switches } rest
  | .help :: _ => .error .help
  | .refused :: _ => .error .usage

/-- Reads arguments with their shapes. A separator goes with the operand beside it. -/
def readArgs (rules : OptionRules) (s : Settings) : List (String × Shape) → Parsed
  | [] => .run s
  | (arg, .operand) :: rest =>
    if rules.takesOperand && s.operand.isNone then
      match rest with
      | (_, .separator) :: rest => readArgs rules { s with operand := some arg } rest
      | rest => readArgs rules { s with operand := some arg } rest
    else readArgs rules { s with leftOver := true } rest
  | (_, .separator) :: rest =>
    match rest with
    | (arg, .operand) :: rest =>
      if rules.takesOperand && s.operand.isNone then
        readArgs rules { s with operand := some arg } rest
      else readArgs rules { s with leftOver := true } rest
    | rest => readArgs rules { s with leftOver := true } rest
  | (_, .unknownOption) :: rest => readArgs rules { s with leftOver := true } rest
  | (_, .ambiguous) :: _ => .usage
  | (_, .option f) :: rest =>
    match readOption rules f with
    | none => .usage
    | some r =>
      match r.pending with
      | none =>
        match s.take r.settings with
        | .error p => p
        | .ok s => readArgs rules s rest
      | some rule =>
        match rest with
        | (value, .operand) :: rest =>
          match s.take (r.settings ++ [rule.setting value]) with
          | .error p => p
          | .ok s => readArgs rules s rest
        | _ => .usage

/-- Reads a command line. An ambiguous option is refused before anything else is looked at. -/
def parseArgs (rules : OptionRules) (args : List String) : Parsed :=
  let shaped := shapes rules args
  if shaped.any (·.2.isAmbiguous) then .usage
  else
    match readArgs rules ⟨[], [], none, false⟩ shaped with
    | .run s => if s.leftOver then .usage else .run s
    | p => p

end GateScript.Command
