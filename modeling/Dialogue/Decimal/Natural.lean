import Dialogue.Decimal.Shortest

/-!
Natural numbers among the doubles: the double nearest to a natural number, and the natural number
that a double is, if it is one.
-/
namespace Dialogue.Decimal

def floatOfNat (n : Nat) : Float :=
  floatOfBits false (nearestBits n 1)

/-- The number itself when it is finite, not below zero and has no fractional part. -/
def natural? (x : Float) : Option Nat :=
  let b := x.toBits.toNat
  let magnitude := b % signBit
  let m := significand magnitude
  let q := unitExponent magnitude
  if infinityBits ≤ magnitude then none
  else if magnitude = 0 then some 0
  else if signBit ≤ b then none
  else if 0 ≤ q then some (m * Nat.pow 2 q.toNat)
  else if m % Nat.pow 2 (-q).toNat = 0 then some (m / Nat.pow 2 (-q).toNat)
  else none

end Dialogue.Decimal
