import BicepForge.Decimal.Binary64

/-!
# Shortest decimals

The decimal with the fewest digits that rounds back to a given floating point number, and of those
the nearest. A number stands for the interval of reals that round to it; for one digit, two digits
and so on the two neighbours of the number on that decimal grid are tried.
-/

namespace BicepForge

/-- `digits * 10 ^ exponent`. -/
structure Decimal where
  digits : Nat
  exponent : Int
deriving DecidableEq, Repr

namespace Decimal

/-- The same decimal without zeros at the end of its digits. -/
def strip : (fuel : Nat) → Decimal → Decimal
  | 0, d => d
  | fuel + 1, d =>
    if d.digits ≠ 0 ∧ d.digits % 10 = 0 then strip fuel ⟨d.digits / 10, d.exponent + 1⟩ else d

/-- `10 ^ e` as numerator and denominator. -/
def powerOfTen (e : Int) : Nat × Nat :=
  if 0 ≤ e then (tenTo e.toNat, 1) else (1, tenTo (-e).toNat)

/-- The exponent `k` with `10 ^ (k - 1) ≤ num / den < 10 ^ k`, for a positive quotient. -/
def decimalWidth (num den : Nat) : Int :=
  let guess : Int := (Nat.toDigits 10 num).length - (Nat.toDigits 10 den).length
  let (p, q) := powerOfTen guess
  if num * q < p * den then guess else guess + 1

end Decimal

namespace Binary64

/-- Whether `d` rounds to the positive number `x`. Distances are compared in quarters of the unit,
since below a power of two the next number is only half a unit away. -/
def admits (x : Binary64) (d : Decimal) : Bool :=
  let (p, q) := Decimal.powerOfTen d.exponent
  let lowGap := if x.significand = twoTo 52 ∧ x.unit ≠ 0 then 1 else 2
  let low := (4 * x.significand - lowGap) * twoTo x.unit * q
  let high := (4 * x.significand + 2) * twoTo x.unit * q
  let point := 4 * d.digits * p * one
  if x.significand % 2 = 0 then low ≤ point && point ≤ high else low < point && point < high

/-- The neighbours of `x` on the grid `10 ^ exponent`, the nearer one first. -/
def neighbours (x : Binary64) (exponent : Int) : List Decimal :=
  let (p, q) := Decimal.powerOfTen exponent
  let num := x.magnitude * q
  let den := p * one
  let below := num / den
  let near := roundHalfEven num den
  let far := if near = below then below + 1 else below
  [⟨near, exponent⟩, ⟨far, exponent⟩]

/-- Tries grids of ever more digits. -/
def shortestFrom (x : Binary64) (width : Int) : (grids : Nat) → Int → Option Decimal
  | 0, _ => none
  | grids + 1, count =>
    match (x.neighbours (width - count)).find? x.admits with
    | some d => some d
    | none => shortestFrom x width grids (count + 1)

/-- The shortest decimal that reads back as the magnitude of `x`; seventeen digits always do. -/
def shortest (x : Binary64) : Decimal :=
  if x.magnitude = 0 then ⟨0, 0⟩
  else
    let width := Decimal.decimalWidth x.magnitude one
    (((shortestFrom x width 17 1).getD ⟨0, 0⟩)).strip 20

end Binary64

end BicepForge
