import Diorama.Text.Blank

namespace Diorama

structure Colour where
  r : UInt8
  g : UInt8
  b : UInt8
  a : UInt8
  deriving DecidableEq, Repr

namespace Colour

def rgb (r g b : UInt8) : Colour := ⟨r, g, b, 255⟩

def black : Colour := rgb 0 0 0
def white : Colour := rgb 255 255 255
def transparent : Colour := ⟨0, 0, 0, 0⟩

def ofName? : String → Option Colour
  | "black" => some black
  | "white" => some white
  | "red" => some (rgb 255 0 0)
  | "green" => some (rgb 0 128 0)
  | "lime" => some (rgb 0 255 0)
  | "blue" => some (rgb 0 0 255)
  | "yellow" => some (rgb 255 255 0)
  | "orange" => some (rgb 255 165 0)
  | "purple" => some (rgb 128 0 128)
  | "pink" => some (rgb 255 192 203)
  | "brown" => some (rgb 165 42 42)
  | "cyan" => some (rgb 0 255 255)
  | "magenta" => some (rgb 255 0 255)
  | "gray" => some (rgb 128 128 128)
  | "grey" => some (rgb 128 128 128)
  | "none" => some transparent
  | "transparent" => some transparent
  | _ => none

def hexDigit? (c : Char) : Option Nat :=
  if '0' ≤ c && c ≤ '9' then some (c.toNat - '0'.toNat)
  else if 'a' ≤ c && c ≤ 'f' then some (c.toNat - 'a'.toNat + 10)
  else if 'A' ≤ c && c ≤ 'F' then some (c.toNat - 'A'.toNat + 10)
  else none

-- A channel: two digits, or a plus sign and one.
def hexPair? (c d : Char) : Option UInt8 := do
  let high ← if c = '+' then some 0 else hexDigit? c
  let low ← hexDigit? d
  pure (UInt8.ofNat (16 * high + low))

def ofHex? : List Char → Option Colour
  | [r, r', g, g', b, b'] => do pure ⟨← hexPair? r r', ← hexPair? g g', ← hexPair? b b', 255⟩
  | [r, r', g, g', b, b', a, a'] =>
    do pure ⟨← hexPair? r r', ← hexPair? g g', ← hexPair? b b', ← hexPair? a a'⟩
  | _ => none

def parse? (s : String) : Option Colour :=
  match Text.trimmed s.toList with
  | '#' :: digits => ofHex? digits
  | name => ofName? (String.ofList (name.map Char.toLower))

end Colour
end Diorama
