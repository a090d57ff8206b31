import Diorama.Decimal.Binary

namespace Diorama

abbrev Duration := Nat

namespace Duration

-- One nanosecond short of `2 ^ 64` seconds.
def longest : Duration := 18446744073709551615999999999

def millisecond : Duration := 1000000

def plus (a b : Duration) : Duration := min (a + b) longest

def times (a : Duration) (n : Nat) : Duration := min (a * n) longest

def roundHalfEven (num den : Nat) : Nat :=
  let q := num / den
  let r := num % den
  if 2 * r < den then q
  else if den < 2 * r then q + 1
  else q + q % 2

-- Seconds as a span, to the nearest nanosecond. None for a negative number, for one that is not
-- finite and for `2 ^ 64` seconds or more.
def ofSeconds? (seconds : Float) : Option Duration :=
  match Decimal.ofFloat seconds with
  | .finite negative m e =>
    let num := m * Nat.pow 2 e.toNat
    let den := Nat.pow 2 (-e).toNat
    if (negative && m != 0) || 18446744073709551616 * den ≤ num then none
    else some (roundHalfEven (num * 1000000000) den)
  | _ => none

end Duration
end Diorama
