namespace Diorama.Decimal

structure Format where
  digits : Nat
  least : Int

def double : Format := ⟨53, -1074⟩
def single : Format := ⟨24, -149⟩

inductive Number where
  | nan
  | infinite (negative : Bool)
  | finite (negative : Bool) (m : Nat) (e : Int)
  deriving DecidableEq, Repr

-- The sign is the top bit, then `top` exponent bits, then the fraction. An all-ones exponent is
-- no finite number; a zero exponent leaves the leading bit of the significand out.
def Format.decode (f : Format) (top : Nat) (bits : Nat) : Number :=
  let width := f.digits - 1
  let fraction := bits % Nat.pow 2 width
  let exponent := bits / Nat.pow 2 width % Nat.pow 2 top
  let negative := bits / Nat.pow 2 (width + top) % 2 == 1
  if exponent == Nat.pow 2 top - 1 then
    if fraction == 0 then .infinite negative else .nan
  else if exponent == 0 then .finite negative fraction f.least
  else .finite negative (fraction + Nat.pow 2 width) (f.least + exponent - 1)

def ofFloat (x : Float) : Number := double.decode 11 x.toBits.toNat

def ofFloat32 (x : Float32) : Number := single.decode 8 x.toBits.toNat

end Diorama.Decimal
