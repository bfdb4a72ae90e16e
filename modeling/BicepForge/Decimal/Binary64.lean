import BicepForge.Decimal.Power

/-!
# Binary floating point numbers

The finite numbers of the IEEE 754 format `binary64`, held as sign, significand and unit, and the
operations on them, each the exact result rounded to the nearest number with ties to an even
significand. Every number is a whole multiple of `2 ^ -1074`; `scaled` is that multiple, so that
comparisons and remainders are those of integers.
-/

namespace BicepForge

namespace Binary64

/-- The one form of each magnitude `significand * 2 ^ unit`: a full significand, or the least
unit. -/
def Canonical (significand unit : Nat) : Prop :=
  significand < twoTo 53 ∧ (twoTo 52 ≤ significand ∨ unit = 0) ∧ unit ≤ 2045

instance (m p : Nat) : Decidable (Canonical m p) :=
  inferInstanceAs (Decidable (_ ∧ _ ∧ _))

end Binary64

/-- A finite double: `± significand * 2 ^ unit` in units of `2 ^ -1074`. -/
structure Binary64 where
  negative : Bool
  significand : Nat
  unit : Nat
  canonical : Binary64.Canonical significand unit
deriving DecidableEq

namespace Binary64

/-- One in units of `2 ^ -1074`. -/
def one : Nat := twoTo 1074

/-- The magnitude in units of `2 ^ -1074`. -/
def magnitude (x : Binary64) : Nat :=
  x.significand * twoTo x.unit

/-- The value in units of `2 ^ -1074`. -/
def scaled (x : Binary64) : Int :=
  if x.negative then -x.magnitude else x.magnitude

/-- The number with the given parts, if they are in canonical form. -/
def ofParts (negative : Bool) (significand unit : Nat) : Option Binary64 :=
  if h : Canonical significand unit then some ⟨negative, significand, unit, h⟩ else none

/-- The whole number nearest to `num / den`, the even one of two. -/
def roundHalfEven (num den : Nat) : Nat :=
  let q := num / den
  let r := num % den
  if 2 * r < den then q
  else if den < 2 * r then q + 1
  else if q % 2 = 0 then q else q + 1

/-- The number nearest to `num / den` in units of `2 ^ -1074`; none where that is infinite. -/
def round (negative : Bool) (num den : Nat) : Option Binary64 :=
  let unit := Nat.log2 (num / den) - 52
  let q := roundHalfEven num (den * twoTo unit)
  if q = twoTo 53 then ofParts negative (twoTo 52) (unit + 1) else ofParts negative q unit

def zero (negative : Bool) : Binary64 :=
  ⟨negative, 0, 0, by decide⟩

def ofNat? (negative : Bool) (n : Nat) : Option Binary64 :=
  round negative (n * one) 1

def ofInt? (i : Int) : Option Binary64 :=
  ofNat? (decide (i < 0)) i.natAbs

def mul? (x y : Binary64) : Option Binary64 :=
  round (x.negative != y.negative) (x.magnitude * y.magnitude) one

/-- The rounded quotient; none when it is infinite or the divisor is zero. -/
def div? (x y : Binary64) : Option Binary64 :=
  if y.magnitude = 0 then none
  else round (x.negative != y.negative) (x.magnitude * one) y.magnitude

def neg (x : Binary64) : Binary64 :=
  { x with negative := !x.negative }

def isWhole (x : Binary64) : Bool :=
  x.magnitude % one = 0

@[simp] theorem scaled_zero (negative : Bool) : (zero negative).scaled = 0 := by
  cases negative <;> rfl

theorem ofParts_eq_some {negative : Bool} {m p : Nat} {x : Binary64} :
    ofParts negative m p = some x ↔ x.negative = negative ∧ x.significand = m ∧ x.unit = p := by
  rcases x with ⟨n, m', p', h⟩
  unfold ofParts
  split
  · simp only [Option.some.injEq, Binary64.mk.injEq]
    exact ⟨fun ⟨a, b, c⟩ => ⟨a.symm, b.symm, c.symm⟩, fun ⟨a, b, c⟩ => ⟨a.symm, b.symm, c.symm⟩⟩
  · next hn =>
    simp only [reduceCtorEq, false_iff]
    rintro ⟨_, rfl, rfl⟩
    exact hn h

end Binary64

end BicepForge
