/-! The terminals of the language. -/
namespace GateScript.Source

inductive Terminal where
  | name
  | upperName
  | number
  | newline
  | reverseArrow
  | all
  | ifWord
  | elseWord
  | colon
  | q
  | b
  | bar
  | openParen
  | closeParen
  | comma
  | arrow
  | openBracket
  | closeBracket
  | endOfText
  deriving DecidableEq, Repr

/-- The name under which a terminal is reported. -/
def Terminal.label : Terminal → String
  | .name => "NAME"
  | .upperName => "UPPER_NAME"
  | .number => "NUMBER"
  | .newline => "_NL"
  | .reverseArrow => "REVERSE_ARROW"
  | .all => "ALL"
  | .ifWord => "_IF_KW"
  | .elseWord => "_ELSE_KW"
  | .colon => "COLON"
  | .q => "Q"
  | .b => "B"
  | .bar => "VBAR"
  | .openParen => "LPAR"
  | .closeParen => "RPAR"
  | .comma => "COMMA"
  | .arrow => "__ANON_0"
  | .openBracket => "LSQB"
  | .closeBracket => "RSQB"
  | .endOfText => "$END"

/-- The order in which the terminals are tried at a position. Only the words `if` and `else` share
their beginnings with another terminal, the names, and they come first. The words `q` and `b` are
read as names. -/
def Terminal.tried : List Terminal :=
  [.ifWord, .elseWord, .name, .upperName, .number, .newline, .arrow, .reverseArrow, .all, .colon,
    .bar, .openParen, .closeParen, .comma, .openBracket, .closeBracket]

/-- Every terminal that can be read. -/
def Terminal.every : List Terminal := .q :: .b :: Terminal.tried

end GateScript.Source
