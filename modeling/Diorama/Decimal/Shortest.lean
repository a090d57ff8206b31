import Diorama.Decimal.Binary

namespace Diorama

structure Decimal where
  digits : Nat
  exponent : Int
  deriving DecidableEq, Repr

namespace Decimal

def digitCount (n : Nat) : Nat := if n = 0 then 0 else (Nat.toDigits 10 n).length

structure Interval where
  low : Nat
  value : Nat
  high : Nat
  den : Nat
  closed : Bool

-- Quarters of a unit in the last place, since the gap below a power of two is half as wide.
def Format.interval (f : Format) (m : Nat) (e : Int) : Interval :=
  let narrow := m == Nat.pow 2 (f.digits - 1) && f.least < e
  let scale := Nat.pow 2 (e - 2).toNat
  { low := (4 * m - if narrow then 1 else 2) * scale
    value := 4 * m * scale
    high := (4 * m + 2) * scale
    den := Nat.pow 2 (2 - e).toNat
    closed := m % 2 == 0 }

def Interval.holds (i : Interval) (num den : Nat) : Bool :=
  let x := num * i.den
  if i.closed then i.low * den ≤ x && x ≤ i.high * den else i.low * den < x && x < i.high * den

-- The `k` with `10 ^ k ≤ num / den < 10 ^ (k + 1)`, for a positive quotient.
def magnitude (num den : Nat) : Int :=
  if den ≤ num then (digitCount (num / den) : Int) - 1
  else -(digitCount ((den + num - 1) / num - 1) : Int)

-- The better of the number's two neighbours among the multiples of `10 ^ k`, if one rounds to it.
def Interval.nearest (i : Interval) (k : Int) : Option Decimal :=
  let up := Nat.pow 10 k.toNat
  let down := Nat.pow 10 (-k).toNat
  let q := i.value * down / (i.den * up)
  let lower := i.holds (q * up) down
  let upper := i.holds ((q + 1) * up) down
  let below := 2 * i.value * down < (2 * q + 1) * up * i.den
  if lower && (below || !upper) then some ⟨q, k⟩
  else if upper then some ⟨q + 1, k⟩
  else none

def Interval.search (i : Interval) (top : Int) : (tries n : Nat) → Option Decimal
  | 0, _ => none
  | tries + 1, n => (i.nearest (top + 1 - n)).or (i.search top tries (n + 1))

-- Only a nine that is raised to ten ends in a zero: any other multiple of ten lies on a coarser grid.
def trimmed (d : Decimal) : Decimal :=
  if d.digits % 10 = 0 then ⟨d.digits / 10, d.exponent + 1⟩ else d

-- The shortest decimal that reads back as `m * 2 ^ e`. Seventeen digits suffice for both formats.
def Format.shortest (f : Format) (m : Nat) (e : Int) : Decimal :=
  if m = 0 then ⟨0, 0⟩
  else
    let i := f.interval m e
    ((i.search (magnitude i.value i.den) 17 1).map trimmed).getD ⟨m, e⟩

end Decimal
end Diorama
