import Dialogue.Decimal.Nearest

/-!
The decimal with the fewest digits that reads back to a given value. Cutting the exact decimal of
the value after one, two, three digits gives its two neighbours on ever finer grids; the first grid
with a neighbour that reads back wins, and of two such neighbours the nearer.
-/
namespace Dialogue.Decimal

/-- Which of two equally near candidates is taken. -/
inductive Tie where
  | up
  | toEven
deriving DecidableEq, Repr

def significand (b : Nat) : Nat :=
  if b < exponentBit then b else b % exponentBit + exponentBit

def unitExponent (b : Nat) : Int :=
  if b < exponentBit then -1074 else (b / exponentBit : Nat) - 1075

def exact (b : Nat) : Decimal :=
  let q := unitExponent b
  if 0 ≤ q then ⟨significand b * Nat.pow 2 q.toNat, 0⟩
  else ⟨significand b * Nat.pow 5 (-q).toNat, q⟩

def neighbour? (tie : Tie) (b : Nat) (d : Decimal) (cut : Nat) : Option Decimal :=
  let grid := Nat.pow 10 cut
  let below : Decimal := ⟨d.digits / grid, d.exponent + cut⟩
  let above : Decimal := ⟨d.digits / grid + 1, d.exponent + cut⟩
  let rest := d.digits % grid
  if below.bits = b then
    if above.bits = b then
      if 2 * rest < grid then some below
      else if grid < 2 * rest then some above
      else match tie with
        | .up => some above
        | .toEven => some (if below.digits % 2 = 0 then below else above)
    else some below
  else if above.bits = b then some above
  else none

def shortestFrom (tie : Tie) (b : Nat) (d : Decimal) : Nat → Decimal
  | 0 => d
  | cut + 1 => (neighbour? tie b d (cut + 1)).getD (shortestFrom tie b d cut)

def shortest (tie : Tie) (b : Nat) : Decimal :=
  let d := exact b
  shortestFrom tie b d (digitCount d.digits - 1)

theorem neighbour?_bits {tie : Tie} {b : Nat} {d c : Decimal} {cut : Nat}
    (h : neighbour? tie b d cut = some c) : c.bits = b := by
  simp only [neighbour?] at h
  repeat' split at h
  all_goals simp only [Option.some.injEq, reduceCtorEq] at h
  all_goals
    subst h
    assumption

theorem shortestFrom_bits {tie : Tie} {b : Nat} {d : Decimal} (h : d.bits = b) (cut : Nat) :
    (shortestFrom tie b d cut).bits = b := by
  induction cut with
  | zero => exact h
  | succ cut ih =>
    simp only [shortestFrom]
    cases hn : neighbour? tie b d (cut + 1) with
    | none => simpa using ih
    | some c => simpa using neighbour?_bits hn

end Dialogue.Decimal
