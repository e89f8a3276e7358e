/-! Texts as bytes in UTF-8, with the place and the reason of a fault. -/
namespace GateScript.Text

/-- Why bytes are not the encoding of a text. -/
inductive Utf8Reason where
  | start
  | continuation
  | ended
  deriving DecidableEq, Repr

def Utf8Reason.text : Utf8Reason → String
  | .start => "invalid start byte"
  | .continuation => "invalid continuation byte"
  | .ended => "unexpected end of data"

/-- The first of the bytes at fault, where it stands and how many there are. -/
structure Utf8Fault where
  byte : Nat
  position : Nat
  length : Nat
  reason : Utf8Reason
  deriving DecidableEq, Repr

/-- A byte with two hexadecimal digits. -/
def byteText (n : Nat) : String :=
  String.ofList ['0', 'x', Nat.digitChar (n / 16), Nat.digitChar (n % 16)]

def Utf8Fault.message (f : Utf8Fault) : String :=
  "'utf-8' codec can't decode " ++
    (if f.length = 1 then "byte " ++ byteText f.byte ++ " in position " ++ toString f.position
      else
        "bytes in position " ++ toString f.position ++ "-" ++ toString (f.position + f.length - 1)) ++
    ": " ++ f.reason.text

def isContinuation (n : Nat) : Bool := 0x80 ≤ n && n < 0xc0

/-- May the second byte follow the first? It rules out forms that are too long, surrogates and code
points beyond the last. -/
def isSecond (first second : Nat) : Bool :=
  isContinuation second &&
    (if first = 0xe0 then 0xa0 ≤ second
      else if first = 0xed then second < 0xa0
      else if first = 0xf0 then 0x90 ≤ second
      else if first = 0xf4 then second < 0x90
      else true)

/-- The length of the encoding that a byte begins, and what it contributes to the code point. -/
def leader? (n : Nat) : Option (Nat × Nat) :=
  if n < 0x80 then some (1, n)
  else if n < 0xc2 then none
  else if n < 0xe0 then some (2, n - 0xc0)
  else if n < 0xf0 then some (3, n - 0xe0)
  else if n < 0xf5 then some (4, n - 0xf0)
  else none

/-- How many bytes after the first one are good, of those that belong to it. -/
def goodBytes (first : Nat) : List Nat → Nat
  | [] => 0
  | second :: rest =>
    if isSecond first second then 1 + (rest.takeWhile isContinuation).length else 0

/-- Decodes from a position on. The bytes still to be passed over belong to the character before. -/
def decodeFrom (position passed : Nat) : List Nat → Except Utf8Fault (List Char)
  | [] => .ok []
  | b :: bs =>
    if 0 < passed then decodeFrom (position + 1) (passed - 1) bs
    else
      match leader? b with
      | none => .error ⟨b, position, 1, .start⟩
      | some (length, lead) =>
        let tail := bs.take (length - 1)
        let good := goodBytes b tail
        if good = length - 1 then
          let code := tail.foldl (fun n t => 64 * n + (t - 0x80)) lead
          (decodeFrom (position + 1) (length - 1) bs).map (Char.ofNat code :: ·)
        else if good = tail.length then .error ⟨b, position, good + 1, .ended⟩
        else .error ⟨b, position, good + 1, .continuation⟩

def decodeUtf8 (bytes : List UInt8) : Except Utf8Fault (List Char) :=
  decodeFrom 0 0 (bytes.map UInt8.toNat)

def encodeUtf8 (text : String) : List UInt8 := text.toUTF8.toList

end GateScript.Text
