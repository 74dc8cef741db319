/-!
Decimals and the double-precision values nearest to them. A non-negative value is known by its bit
pattern: patterns of finite values grow with the value, so the rounded significand and the exponent
add up to the pattern even when rounding carries into the next power of two.
-/
namespace Dialogue

/-- The number `digits * 10 ^ exponent`. -/
structure Decimal where
  digits : Nat
  exponent : Int
deriving DecidableEq, Repr, Inhabited

namespace Decimal

def signBit : Nat := 0x8000000000000000

def exponentBit : Nat := 0x10000000000000

def infinityBits : Nat := 0x7FF * exponentBit

/-- The integer nearest to `num / den`, the even one of two equally near. -/
def roundHalfEven (num den : Nat) : Nat :=
  let whole := num / den
  let rest := num % den
  if 2 * rest < den then whole
  else if den < 2 * rest then whole + 1
  else whole + whole % 2

/-- The greatest `e` with `2 ^ e ≤ num / den`, for positive `num` and `den`. -/
def floorLog2 (num den : Nat) : Int :=
  let e : Int := (num.log2 : Int) - den.log2
  if den * Nat.pow 2 e.toNat ≤ num * Nat.pow 2 (-e).toNat then e else e - 1

def nearestBits (num den : Nat) : Nat :=
  if num = 0 then 0
  else
    let unit := max (floorLog2 num den - 52) (-1074)
    let significand := roundHalfEven (num * Nat.pow 2 (-unit).toNat) (den * Nat.pow 2 unit.toNat)
    min ((unit + 1074).toNat * exponentBit + significand) infinityBits

def digitCount (n : Nat) : Nat :=
  (Nat.toDigits 10 n).length

/-- Far beyond either end of the range the powers of ten need not be formed. -/
def bits (d : Decimal) : Nat :=
  let point := (digitCount d.digits : Int) + d.exponent
  if d.digits = 0 then 0
  else if 400 < point then infinityBits
  else if point < -400 then 0
  else nearestBits (d.digits * Nat.pow 10 d.exponent.toNat) (Nat.pow 10 (-d.exponent).toNat)

def floatOfBits (negative : Bool) (magnitude : Nat) : Float :=
  Float.ofBits (UInt64.ofNat (magnitude + if negative then signBit else 0))

def toFloat (negative : Bool) (d : Decimal) : Float :=
  floatOfBits negative d.bits

end Decimal
end Dialogue
