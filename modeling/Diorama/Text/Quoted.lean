import Diorama.Text.Ranges

namespace Diorama.Text

-- Whether a character stands for itself between quotes, the quote and the backslash apart.
def isVisible (c : Char) : Bool :=
  !inRanges c.toNat unprintableRanges && !inRanges c.toNat extendingRanges

def codeEscape (c : Char) : List Char :=
  ['\\', 'u', '\x7b'] ++ Nat.toDigits 16 c.toNat ++ ['\x7d']

def escape (c : Char) : List Char :=
  if c = '\x22' || c = '\\' then ['\\', c]
  else if c = '\n' then ['\\', 'n']
  else if c = '\t' then ['\\', 't']
  else if c = '\r' then ['\\', 'r']
  else if c = '\x00' then ['\\', '0']
  else if isVisible c then [c]
  else codeEscape c

def quoted (s : String) : String :=
  String.ofList ('\x22' :: s.toList.flatMap escape ++ ['\x22'])

end Diorama.Text
