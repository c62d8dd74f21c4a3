import ParticleAutomaton.Unicode.Property

namespace ParticleAutomaton.Text

/-- A character that can be seen on its own: a letter, a number, a sign or a spacing mark. -/
def isVisible (c : Char) : Bool :=
  !(Unicode.isIn ["Cc", "Cf", "Cs", "Co", "Cn", "Zl", "Zp", "Zs"] c ||
    Unicode.graphemeExtend.mem c || Unicode.ignorable.mem c)

/-- A character inside quotes: what cannot be seen is given by its number. -/
def quotedChar (c : Char) : List Char :=
  if c = '"' then ['\\', '"']
  else if c = '\\' then ['\\', '\\']
  else if c = '\n' then ['\\', 'n']
  else if c = '\r' then ['\\', 'r']
  else if c = '\t' then ['\\', 't']
  else if c.toNat = 0 then ['\\', '0']
  else if c = ' ' ∨ isVisible c then [c]
  else ['\\', 'u', '\x7b'] ++ Nat.toDigits 16 c.toNat ++ ['\x7d']

/-- A text between double quotes. -/
def quoted (s : String) : String :=
  String.ofList ('"' :: (s.toList.flatMap quotedChar ++ ['"']))

end ParticleAutomaton.Text
