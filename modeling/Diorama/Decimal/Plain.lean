import Diorama.Decimal.Shortest

namespace Diorama.Decimal

def plain (d : Decimal) : String :=
  let digits := Nat.toDigits 10 d.digits
  match d.exponent with
  | .ofNat k => String.ofList (digits ++ List.replicate k '0')
  | .negSucc j =>
    let places := j + 1
    let padded := List.replicate (places + 1 - digits.length) '0' ++ digits
    let whole := padded.length - places
    String.ofList (padded.take whole ++ '.' :: padded.drop whole)

def Format.plain (f : Format) : Number → String
  | .nan => "NaN"
  | .infinite negative => if negative then "-inf" else "inf"
  | .finite negative m e => (if negative then "-" else "") ++ (f.shortest m e).plain

def text (x : Float) : String := double.plain (ofFloat x)

def text32 (x : Float32) : String := single.plain (ofFloat32 x)

end Diorama.Decimal
