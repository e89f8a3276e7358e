/-! Upper case, as far as it leads to ASCII. -/
namespace GateScript.Text

/-- The characters outside ASCII whose upper case is in ASCII. -/
def upperOfForeign : List (Nat × List Char) :=
  [(0xdf, ['S', 'S']), (0x131, ['I']), (0x17f, ['S']), (0xfb00, ['F', 'F']), (0xfb01, ['F', 'I']),
    (0xfb02, ['F', 'L']), (0xfb03, ['F', 'F', 'I']), (0xfb04, ['F', 'F', 'L']),
    (0xfb05, ['S', 'T']), (0xfb06, ['S', 'T'])]

/-- The upper case of a character, if it is in ASCII. -/
def upperChar? (c : Char) : Option (List Char) :=
  if c.toNat < 0x80 then some [c.toUpper] else upperOfForeign.lookup c.toNat

/-- The upper case of a text, if it is in ASCII. -/
def upper? (cs : List Char) : Option String :=
  (cs.mapM upperChar?).map fun parts => String.ofList parts.flatten

end GateScript.Text
