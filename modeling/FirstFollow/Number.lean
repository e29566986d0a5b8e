/-!
Numbers compared by their exact value. A whole number keeps every digit; a numeral with a point or
an exponent stands for the nearest binary64 number, and the even one of two that are equally near.

A finite number is given in units of 2⁻¹⁰⁷⁴, the least positive binary64 number.
-/

namespace FirstFollow

inductive Number where
  | finite (units : Int)
  | infinite (negative : Bool)
  | undefined
  deriving DecidableEq

/-- The number `digits * 10 ^ (exponent - places)` as it is written. -/
structure Numeral where
  negative : Bool
  digits : Nat
  places : Option Nat
  exponent : Option Int
  deriving DecidableEq

namespace Numeral

/-- Neither point nor exponent. -/
def isWhole (n : Numeral) : Bool := n.places.isNone && n.exponent.isNone

def signed (n : Numeral) (magnitude : Nat) : Int :=
  if n.negative then -Int.ofNat magnitude else Int.ofNat magnitude

def scale (n : Numeral) : Int := n.exponent.getD 0 - Int.ofNat (n.places.getD 0)

end Numeral

namespace Number

/-- A quotient rounded to the nearest natural number, halves to the even one. -/
def roundHalfEven (num den : Nat) : Nat :=
  let q := num / den
  let twice := 2 * (num % den)
  if twice < den || (twice == den && q % 2 == 0) then q else q + 1

/-- A quotient rounded to 53 significant bits. -/
def roundBits (num den : Nat) : Nat :=
  let ulp := Nat.shiftLeft 1 (Nat.log2 (num / den) - 52)
  roundHalfEven num (den * ulp) * ulp

/-- The units of `2 ^ 1024`, below which finite numbers lie. -/
def bound : Nat := Nat.shiftLeft 1 (1024 + 1074)

/-- The units of the binary64 number nearest to `digits * 10 ^ scale`, if it is finite. Scales far
outside of what binary64 holds are settled without a power. -/
def nearestUnits? (digits : Nat) (scale : Int) : Option Nat :=
  if digits = 0 then some 0
  else if 400 < scale then none
  else if Int.ofNat (Nat.log2 digits + 1080) < -3 * scale then some 0
  else
    let units := roundBits (Nat.shiftLeft (digits * Nat.pow 10 scale.toNat) 1074)
      (Nat.pow 10 (-scale).toNat)
    if units < bound then some units else none

def ofInt (n : Int) : Number := .finite (n * Int.ofNat (Nat.shiftLeft 1 1074))

def nearest (n : Numeral) : Number :=
  match nearestUnits? n.digits n.scale with
  | some units => .finite (n.signed units)
  | none => .infinite n.negative

/-- The undefined number differs from itself. -/
def same : Number → Number → Bool
  | .undefined, _ => false
  | a, b => a == b

end Number

end FirstFollow
