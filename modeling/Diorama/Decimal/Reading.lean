import Diorama.Decimal.Shortest

namespace Diorama.Decimal

def digitValue (c : Char) : Nat := c.toNat - '0'.toNat

def digitsValue (seed : Nat) (cs : List Char) : Nat := cs.foldl (fun n c => 10 * n + digitValue c) seed

-- The double nearest to `m * 10 ^ k`. Beyond the range of doubles no power of ten is computed.
def nearest (m : Nat) (k : Int) : Float :=
  let top := digitCount m + k
  if m = 0 || top < -330 then 0
  else if 310 < top then 1 / 0
  else if 0 ≤ k then Float.ofScientific m false k.toNat
  else Float.ofScientific m true (-k).toNat

def splitSign : List Char → Bool × List Char
  | '-' :: cs => (true, cs)
  | '+' :: cs => (false, cs)
  | cs => (false, cs)

def readExponent? : List Char → Option Int
  | [] => some 0
  | e :: cs =>
    let (negative, digits) := splitSign cs
    if (e == 'e' || e == 'E') && !digits.isEmpty && digits.all Char.isDigit then
      let n : Int := digitsValue 0 digits
      some (if negative then -n else n)
    else none

def readUnsigned? (cs : List Char) : Option Float :=
  let whole := cs.takeWhile Char.isDigit
  let rest := cs.dropWhile Char.isDigit
  let (fraction, rest) := match rest with
    | '.' :: tail => (tail.takeWhile Char.isDigit, tail.dropWhile Char.isDigit)
    | _ => ([], rest)
  if whole.isEmpty && fraction.isEmpty then none
  else (readExponent? rest).map fun k =>
    nearest (digitsValue (digitsValue 0 whole) fraction) (k - fraction.length)

def readSpecial? (cs : List Char) : Option Float :=
  let word := String.ofList (cs.map Char.toLower)
  if word == "inf" || word == "infinity" then some (1 / 0)
  else if word == "nan" then some (0 / 0)
  else none

def read? (s : String) : Option Float :=
  let (negative, cs) := splitSign s.toList
  ((readUnsigned? cs).or (readSpecial? cs)).map fun x => if negative then -x else x

end Diorama.Decimal
