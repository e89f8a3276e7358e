import GateScript.Number
import GateScript.Ordered
import GateScript.Text.Quoted

/-! JSON values and their text: two blanks for each level, keys in order, ASCII only. -/
namespace GateScript.Output

inductive Json where
  | null
  | bool (value : Bool)
  | number (value : Number)
  | string (value : String)
  | array (items : List Json)
  | object (fields : List (String × Json))

namespace Json

/-- A code unit of four hexadecimal digits. -/
def escapeUnit (n : Nat) : List Char := '\\' :: 'u' :: Text.hex 4 n

/-- A character beyond four hexadecimal digits is written as two code units. -/
def escapeChar (c : Char) : List Char :=
  if c = '"' || c = '\\' then ['\\', c]
  else if c = '\n' then ['\\', 'n']
  else if c = '\r' then ['\\', 'r']
  else if c = '\t' then ['\\', 't']
  else if c = '\x08' then ['\\', 'b']
  else if c = '\x0c' then ['\\', 'f']
  else if 0x20 ≤ c.toNat && c.toNat < 0x7f then [c]
  else if c.toNat < 0x10000 then escapeUnit c.toNat
  else
    escapeUnit (0xd800 + (c.toNat - 0x10000) / 0x400) ++
      escapeUnit (0xdc00 + (c.toNat - 0x10000) % 0x400)

def quote (s : String) : List Char := '"' :: s.toList.flatMap escapeChar ++ ['"']

/-- Starts a line at a level. -/
def newLine (level : Nat) : List Char := '\n' :: List.replicate (2 * level) ' '

/-- Items in brackets, one to a line. -/
def block (opening closing : Char) (level : Nat) (items : List (List Char)) : List Char :=
  if items.isEmpty then [opening, closing]
  else
    opening :: newLine (level + 1) ++ (',' :: newLine (level + 1)).intercalate items ++
      newLine level ++ [closing]

/-- Numbers that are not finite have words of their own. -/
def numberText (n : Number) : String :=
  match n.text with
  | "inf" => "Infinity"
  | "-inf" => "-Infinity"
  | "nan" => "NaN"
  | s => s

def keyPrecedes (a b : String × List Char) : Bool := decide (a.1 < b.1)

mutual

def render (level : Nat) : Json → List Char
  | null => "null".toList
  | bool true => "true".toList
  | bool false => "false".toList
  | number n => (numberText n).toList
  | string s => quote s
  | array items => block '[' ']' level (renderItems (level + 1) items)
  | object fields =>
    block '\x7b' '\x7d' level <|
      ((renderFields (level + 1) fields).foldl
        (fun sorted f => insertOrdered keyPrecedes f sorted) []).map fun f =>
          quote f.1 ++ ':' :: ' ' :: f.2

def renderItems (level : Nat) : List Json → List (List Char)
  | [] => []
  | j :: js => render level j :: renderItems level js

def renderFields (level : Nat) : List (String × Json) → List (String × List Char)
  | [] => []
  | f :: fs => (f.1, render level f.2) :: renderFields level fs

end

def text (j : Json) : String := String.ofList (render 0 j)

end Json

end GateScript.Output
