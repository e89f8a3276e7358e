import GateScript.Decimal.Binary64
import GateScript.Text.Blank
import GateScript.Text.Digit

/-! Reading numerals. Digits may be of any script, and single underscores may stand between them. -/
namespace GateScript.Decimal

/-- The digits at the front. `inside` says that a digit stands before. -/
def digitRun (inside : Bool) : List Char → List Nat × List Char
  | [] => ([], [])
  | '_' :: c :: cs =>
    match inside, Text.digitValue? c with
    | true, some d =>
      let (digits, rest) := digitRun true cs
      (d :: digits, rest)
    | _, _ => ([], '_' :: c :: cs)
  | c :: cs =>
    match Text.digitValue? c with
    | some d =>
      let (digits, rest) := digitRun true cs
      (d :: digits, rest)
    | none => ([], c :: cs)

def ofDigits (digits : List Nat) : Nat := digits.foldl (fun n d => 10 * n + d) 0

/-- A sign, if there is one. -/
def signed : List Char → Bool × List Char
  | '-' :: cs => (true, cs)
  | '+' :: cs => (false, cs)
  | cs => (false, cs)

def applySign (negative : Bool) (n : Nat) : Int := if negative then -(n : Int) else n

/-- Why a text is not read as an integer. -/
inductive IntegerFault where
  | malformed
  | tooManyDigits (count limit : Nat)
  deriving DecidableEq, Repr

/-- How many digits an integer may have, leading zeros included. -/
def digitLimit : Option Nat := some 4300

/-- An integer, with a sign if need be and blanks around it. The digits are counted before what
follows them is looked at, but an underscore out of place is found while counting. -/
def readInteger (limit : Option Nat) (cs : List Char) : Except IntegerFault Int :=
  let (negative, body) := signed (Text.trimBlanks cs)
  let (digits, rest) := digitRun false body
  if digits.isEmpty || rest.head? = some '_' then .error .malformed
  else
    match limit.filter (· < digits.length) with
    | some limit => .error (.tooManyDigits digits.length limit)
    | none =>
      if rest.isEmpty then .ok (applySign negative (ofDigits digits)) else .error .malformed

def readInt? (cs : List Char) : Option Int := (readInteger digitLimit cs).toOption

/-- An exponent after its mark, and nothing else. -/
def readExponent? : List Char → Option Int
  | [] => some 0
  | c :: cs =>
    if c = 'e' || c = 'E' then
      let (negative, body) := signed cs
      match digitRun false body with
      | (d :: ds, []) => some (applySign negative (ofDigits (d :: ds)))
      | _ => none
    else none

/-- A fraction after its point, if there is one. -/
def fractionRun : List Char → List Nat × List Char
  | '.' :: cs => digitRun false cs
  | cs => ([], cs)

/-- A decimal, with a digit on one side of the point at least. -/
def readDecimal? (cs : List Char) : Option Binary64 :=
  let (negative, body) := signed (Text.trimBlanks cs)
  let (whole, afterWhole) := digitRun false body
  let (fraction, afterFraction) := fractionRun afterWhole
  if whole.isEmpty && fraction.isEmpty then none
  else
    (readExponent? afterFraction).map fun e =>
      Binary64.ofDecimal negative (ofDigits (whole ++ fraction)) (e - fraction.length)

end GateScript.Decimal
