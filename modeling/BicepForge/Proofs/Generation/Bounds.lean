import BicepForge.Generation.Parameter
import Mathlib.Tactic.Ring
import Mathlib.Tactic.Linarith

/-!
# Bounds from a schema

The bounds of a number become integers of 64 bits. Rounding inward loses nothing: an integer meets
the rounded bound exactly if it meets the number, and a bound is left out only where the number lies
outside of 64 bits. One case is off: a minimum just above the greatest integer is lowered to it, so
that this one integer gets in.
-/

namespace BicepForge

/-- Numbers as a document holds them: integers of 64 bits, with a sign or without, and floats. -/
def Number.Held : Number → Prop
  | .int i => -2 ^ 63 ≤ i ∧ i < 2 ^ 64
  | .float _ => True

/-- Whether a number lies in the range of signed integers of 64 bits. -/
def Number.InIntRange (m : Number) : Prop :=
  -2 ^ 63 * Binary64.one ≤ m.scaled ∧ m.scaled ≤ (2 ^ 63 - 1) * Binary64.one

/-! ## Rounding to a float -/

namespace Binary64

/-- The exponent of one is kept apart: as a number, one is too great to be computed with. -/
theorem exists_one_eq : ∃ unit, one = twoTo unit ∧ unit = 1074 := by
  unfold one
  exact ⟨_, rfl, rfl⟩

theorem one_pos : (0 : Int) < one := by
  obtain ⟨unit, power, -⟩ := exists_one_eq
  rw [power]
  exact_mod_cast Nat.two_pow_pos unit

/-- A quotient is rounded to one of the whole numbers around it. -/
theorem roundHalfEven_cases (num den : Nat) :
    roundHalfEven num den = num / den ∨ roundHalfEven num den = num / den + 1 := by
  unfold roundHalfEven
  dsimp only
  split_ifs
  · exact .inl rfl
  · exact .inr rfl
  · exact .inl rfl
  · exact .inr rfl

/-- Rounding a magnitude between two powers of two does not take it below the lesser one. -/
theorem exists_round {num unit : Nat} (low : 2 ^ (52 + unit) ≤ num) (high : num < 2 ^ (53 + unit))
    (finite : unit ≤ 2044) (negative : Bool) :
    ∃ x, round negative num 1 = some x ∧ x.negative = negative ∧ 2 ^ (52 + unit) ≤ x.magnitude := by
  have positive : num ≠ 0 := by
    have := Nat.two_pow_pos (52 + unit)
    omega
  have log : num.log2 = 52 + unit := by
    apply Nat.le_antisymm
    · have below := (Nat.log2_lt positive).mpr high
      omega
    · exact (Nat.le_log2 positive).mpr low
  have scale : Nat.log2 (num / 1) - 52 = unit := by
    rw [Nat.div_one, log]
    omega
  have unitPos : 0 < 2 ^ unit := Nat.two_pow_pos unit
  have least : 2 ^ 52 ≤ num / 2 ^ unit := by
    rw [Nat.le_div_iff_mul_le unitPos, ← Nat.pow_add]
    exact low
  have greatest : num / 2 ^ unit < 2 ^ 53 := by
    rw [Nat.div_lt_iff_lt_mul unitPos, ← Nat.pow_add]
    exact high
  have near : roundHalfEven num (twoTo unit) = num / 2 ^ unit ∨
      roundHalfEven num (twoTo unit) = num / 2 ^ unit + 1 := roundHalfEven_cases num (2 ^ unit)
  unfold round
  rw [scale]
  dsimp only
  rw [Nat.one_mul]
  generalize roundHalfEven num (twoTo unit) = q at near ⊢
  have bounds : 2 ^ 52 ≤ q ∧ q ≤ 2 ^ 53 := by omega
  by_cases top : q = twoTo 53
  · -- the significand is full, and the unit goes up
    have canonical : Canonical (twoTo 52) (unit + 1) :=
      ⟨by decide, .inl (Nat.le_refl _), by omega⟩
    refine ⟨⟨negative, twoTo 52, unit + 1, canonical⟩, ?_, rfl, ?_⟩
    · rw [if_pos top]
      exact ofParts_eq_some.mpr ⟨rfl, rfl, rfl⟩
    · rw [Nat.pow_add]
      exact Nat.mul_le_mul_left _ (Nat.pow_le_pow_right (by decide) (Nat.le_succ unit))
  · have canonical : Canonical q unit :=
      ⟨Nat.lt_of_le_of_ne bounds.2 top, .inl bounds.1, by omega⟩
    refine ⟨⟨negative, q, unit, canonical⟩, ?_, rfl, ?_⟩
    · rw [if_neg top]
      exact ofParts_eq_some.mpr ⟨rfl, rfl, rfl⟩
    · rw [Nat.pow_add]
      exact Nat.mul_le_mul_right _ bounds.1

end Binary64

/-- An integer beyond the greatest signed one of 64 bits is not taken below it by rounding. -/
theorem Number.le_scaled_toFloat {i : Int} (low : 2 ^ 63 ≤ i) (high : i < 2 ^ 64) :
    2 ^ 63 * Binary64.one ≤ (Number.int i).toFloat.scaled := by
  obtain ⟨n, rfl⟩ := Int.eq_ofNat_of_zero_le (by omega : 0 ≤ i)
  obtain ⟨unit, power, exponent⟩ := Binary64.exists_one_eq
  have least : 2 ^ (52 + (11 + unit)) ≤ n * Binary64.one := by
    rw [power, ← Nat.add_assoc, Nat.pow_add]
    exact Nat.mul_le_mul_right _ (by omega)
  have greatest : n * Binary64.one < 2 ^ (53 + (11 + unit)) := by
    rw [power, ← Nat.add_assoc, Nat.pow_add]
    exact Nat.mul_lt_mul_of_pos_right (by omega) (Nat.two_pow_pos unit)
  obtain ⟨x, rounded, positive, magnitude⟩ :=
    Binary64.exists_round least greatest (by omega) false
  have float : (Number.int n).toFloat = x := by
    have sign : decide ((n : Int) < 0) = false := by simp
    rw [Number.toFloat, Binary64.ofInt?, Binary64.ofNat?, sign, Int.natAbs_natCast, rounded]
    rfl
  have large : 2 ^ 63 * Binary64.one ≤ x.magnitude := by
    rw [← Nat.add_assoc, Nat.pow_add] at magnitude
    rw [power]
    exact magnitude
  rw [float, Binary64.scaled, positive, if_neg Bool.false_ne_true]
  exact_mod_cast large

theorem Number.scaled_int_le_iff (i j : Int) :
    (Number.int i).scaled ≤ (Number.int j).scaled ↔ i ≤ j :=
  mul_le_mul_iff_of_pos_right Binary64.one_pos

namespace Generation

open Bicep

/-! ## Rounding inward -/

/-- Whether a number meets a bound, on any scale that they share. -/
def Inward.Admits (way : Inward) (bound x : Int) : Prop :=
  match way with
  | .up => bound ≤ x
  | .down => x ≤ bound

/-- An integer meets a rounded float exactly if it meets the float. -/
theorem admits_round_iff (way : Inward) (f : Binary64) (x : Int) :
    way.Admits (way.round f) x ↔ way.Admits f.scaled (Number.int x).scaled := by
  cases way with
  | up =>
    show -(-f.scaled / Binary64.one) ≤ x ↔ f.scaled ≤ x * Binary64.one
    rw [neg_le, Int.le_ediv_iff_mul_le Binary64.one_pos, Int.neg_mul, neg_le_neg_iff]
  | down =>
    show x ≤ f.scaled / Binary64.one ↔ x * Binary64.one ≤ f.scaled
    rw [Int.le_ediv_iff_mul_le Binary64.one_pos]

theorem inIntRange_iff (x : Int) : Value.inIntRange x = true ↔ -2 ^ 63 ≤ x ∧ x ≤ 2 ^ 63 - 1 := by
  have power : ((twoTo 63 : Nat) : Int) = 2 ^ 63 := rfl
  rw [Value.inIntRange, power, Bool.and_eq_true, decide_eq_true_eq, decide_eq_true_eq]
  omega

/-- A rounded number: integers of 64 bits meet it exactly if they meet the number, and it is one of
them if the number lies among them. -/
structure RoundsInward (way : Inward) (m : Number) (r : Int) : Prop where
  admits : ∀ x, Value.inIntRange x = true →
    (way.Admits r x ↔ way.Admits m.scaled (Number.int x).scaled)
  inside : m.InIntRange → Value.inIntRange r = true

theorem roundsInward_int (way : Inward) (i : Int) : RoundsInward way (.int i) i where
  admits x _ := by
    cases way with
    | up => exact (Number.scaled_int_le_iff i x).symm
    | down => exact (Number.scaled_int_le_iff x i).symm
  inside := by
    rintro ⟨low, high⟩
    rw [inIntRange_iff]
    exact ⟨(Number.scaled_int_le_iff _ _).mp low, (Number.scaled_int_le_iff _ _).mp high⟩

theorem roundsInward_float (way : Inward) (f : Binary64) :
    RoundsInward way (.float f) (way.round f) where
  admits x _ := admits_round_iff way f x
  inside := by
    rintro ⟨low, high⟩
    have round := admits_round_iff way f
    rw [inIntRange_iff]
    -- the end that is not met inward is passed only by an integer that lies beyond it
    cases way with
    | up =>
      refine ⟨?_, (round _).mpr high⟩
      by_contra below
      have past : Inward.up.round f ≤ -2 ^ 63 - 1 := by omega
      have beyond := low.trans ((round _).mp past)
      exact absurd ((Number.scaled_int_le_iff (-2 ^ 63) (-2 ^ 63 - 1)).mp beyond) (by decide)
    | down =>
      refine ⟨(round _).mpr low, ?_⟩
      by_contra above
      have past : 2 ^ 63 ≤ Inward.down.round f := by omega
      have beyond := ((round _).mp past).trans high
      exact absurd ((Number.scaled_int_le_iff (2 ^ 63) (2 ^ 63 - 1)).mp beyond) (by decide)

/-- Beyond the greatest signed integer nothing is met or everything is, before and after
rounding. -/
theorem roundsInward_large (way : Inward) {i : Int} (low : 2 ^ 63 ≤ i) (high : i < 2 ^ 64) :
    RoundsInward way (.int i) (way.round (Number.int i).toFloat) where
  admits x range := by
    have least := Number.le_scaled_toFloat low high
    have small : x < 2 ^ 63 := by
      rw [inIntRange_iff] at range
      omega
    rw [admits_round_iff]
    cases way with
    | up =>
      constructor
      · intro met
        exact absurd ((Number.scaled_int_le_iff (2 ^ 63) x).mp (least.trans met)) (by omega)
      · intro met
        exact absurd ((Number.scaled_int_le_iff i x).mp met) (by omega)
    | down =>
      constructor
      · intro _
        exact (Number.scaled_int_le_iff x i).mpr (by omega)
      · intro _
        exact ((Number.scaled_int_le_iff x (2 ^ 63)).mpr (by omega)).trans least
  inside := by
    rintro ⟨-, least⟩
    exact absurd ((Number.scaled_int_le_iff i _).mp least) (by omega)

/-- The integer bound for a number is the rounded number, lowered to the greatest integer of 64 bits
where it is one more; what lies further outside gives no bound. -/
theorem exists_integerBound?_eq (way : Inward) {m : Number} (held : m.Held) :
    ∃ r, RoundsInward way m r ∧ integerBound? way m =
      if r < -2 ^ 63 ∨ 2 ^ 63 < r then none else some (min r (2 ^ 63 - 1)) := by
  have power : ((twoTo 63 : Nat) : Int) = 2 ^ 63 := rfl
  cases m with
  | float f =>
    refine ⟨way.round f, roundsInward_float way f, ?_⟩
    rw [integerBound?, integerBound?.ofFloat, power]
  | int i =>
    obtain ⟨low, high⟩ := held
    by_cases range : Value.inIntRange i = true
    · refine ⟨i, roundsInward_int way i, ?_⟩
      rw [integerBound?, if_pos range]
      rw [inIntRange_iff] at range
      rw [if_neg (by omega), min_eq_left range.2]
    · have large : 2 ^ 63 ≤ i := by
        rw [inIntRange_iff] at range
        omega
      refine ⟨_, roundsInward_large way large high, ?_⟩
      rw [integerBound?, if_neg range, integerBound?.ofFloat, power]

/-- What meets the bound for a number meets the number; only for a lower bound that lies beyond all
integers of 64 bits the greatest one gets in. -/
theorem admits_integerBound? {way : Inward} {m : Number} (held : m.Held) {n : Int}
    (bound : integerBound? way m = some n) {x : Int} (range : Value.inIntRange x = true) :
    way.Admits n x ↔ way.Admits m.scaled (Number.int x).scaled ∨
      way = .up ∧ x = 2 ^ 63 - 1 ∧ (Number.int (2 ^ 63 - 1)).scaled < m.scaled := by
  obtain ⟨r, rounds, made⟩ := exists_integerBound?_eq way held
  rw [made] at bound
  split_ifs at bound
  obtain rfl := Option.some.inj bound
  rw [← rounds.admits x range]
  have limits := (inIntRange_iff x).mp range
  cases way with
  | up =>
    have top := rounds.admits (2 ^ 63 - 1) (by decide)
    have last : r ≤ 2 ^ 63 - 1 ↔ ¬ (Number.int (2 ^ 63 - 1)).scaled < m.scaled := by
      rw [not_lt]
      exact top
    show min r (2 ^ 63 - 1) ≤ x ↔ r ≤ x ∨ _
    rw [min_le_iff]
    constructor
    · rintro (met | greatest)
      · exact .inl met
      · by_cases inner : r ≤ 2 ^ 63 - 1
        · exact .inl (by omega)
        · exact .inr ⟨rfl, by omega, not_not.mp (mt last.mpr inner)⟩
    · rintro (met | ⟨-, rfl, -⟩)
      · exact .inl met
      · exact .inr le_rfl
  | down =>
    show x ≤ min r (2 ^ 63 - 1) ↔ x ≤ r ∨ _
    rw [le_min_iff]
    constructor
    · exact fun met => .inl met.1
    · rintro (met | ⟨other, -⟩)
      · exact ⟨met, limits.2⟩
      · cases other

/-- A number that gives no bound lies outside of 64 bits. -/
theorem not_inIntRange_of_integerBound? {way : Inward} {m : Number} (held : m.Held)
    (none : integerBound? way m = none) : ¬ m.InIntRange := by
  obtain ⟨r, rounds, made⟩ := exists_integerBound?_eq way held
  intro inside
  have limits := (inIntRange_iff r).mp (rounds.inside inside)
  rw [made, if_neg (by omega)] at none
  cases none

/-! ## The bounds of a parameter -/

theorem minValue_mem_iff (name : String) (schema : Json) (n : Int) :
    .minValue n ∈ (parameterOfSchema name schema).decorators ↔
      bound? .up "minimum" schema = some n := by
  simp [parameterOfSchema, decorators, Option.bind_eq_some_iff]

theorem maxValue_mem_iff (name : String) (schema : Json) (n : Int) :
    .maxValue n ∈ (parameterOfSchema name schema).decorators ↔
      bound? .down "maximum" schema = some n := by
  simp [parameterOfSchema, decorators, Option.bind_eq_some_iff]

/-- The bounds of a derived parameter are those of its schema, for every integer of 64 bits, and one
is left out only where the schema has it outside of 64 bits. The one exception is a minimum beyond
all integers of 64 bits: where it becomes a bound, the greatest integer gets in. -/
theorem parameterOfSchema_bounds (name : String) (schema : Json) {m : Number} (held : m.Held) :
    (schema.get? "minimum" = some (.num m) →
      (∀ n, .minValue n ∈ (parameterOfSchema name schema).decorators →
        ∀ x, Value.inIntRange x = true → (n ≤ x ↔ m.scaled ≤ (Number.int x).scaled ∨
          x = 2 ^ 63 - 1 ∧ (Number.int (2 ^ 63 - 1)).scaled < m.scaled)) ∧
      ((∀ n, .minValue n ∉ (parameterOfSchema name schema).decorators) → ¬ m.InIntRange)) ∧
    (schema.get? "maximum" = some (.num m) →
      (∀ n, .maxValue n ∈ (parameterOfSchema name schema).decorators →
        ∀ x, Value.inIntRange x = true → (x ≤ n ↔ (Number.int x).scaled ≤ m.scaled)) ∧
      ((∀ n, .maxValue n ∉ (parameterOfSchema name schema).decorators) → ¬ m.InIntRange)) := by
  simp only [minValue_mem_iff, maxValue_mem_iff]
  constructor
  · intro minimum
    rw [bound?, minimum]
    refine ⟨fun n bound x range => ?_, fun absent => ?_⟩
    · have met := admits_integerBound? held bound range
      rwa [and_iff_right rfl] at met
    · exact not_inIntRange_of_integerBound? held (Option.eq_none_iff_forall_ne_some.mpr absent)
  · intro maximum
    rw [bound?, maximum]
    refine ⟨fun n bound x range => ?_, fun absent => ?_⟩
    · have met := admits_integerBound? held bound range
      rwa [or_iff_left fun other => Inward.noConfusion other.1] at met
    · exact not_inIntRange_of_integerBound? held (Option.eq_none_iff_forall_ne_some.mpr absent)

def half : Binary64 :=
  ⟨false, twoTo 52, 1021, by decide⟩

/-- A minimum of one half is a minimum of one, and as a maximum it is one of zero. -/
theorem parameterOfSchema_bounds_half :
    let schema : Json := .obj [("minimum", .num (.float half)), ("maximum", .num (.float half))]
    .minValue 1 ∈ (parameterOfSchema "wear" schema).decorators ∧
      .maxValue 0 ∈ (parameterOfSchema "wear" schema).decorators ∧
      ¬ half.scaled ≤ (Number.int 0).scaled ∧ ¬ (Number.int 1).scaled ≤ half.scaled := by
  intro schema
  have lower : .minValue 1 ∈ (parameterOfSchema "wear" schema).decorators :=
    (minValue_mem_iff _ _ _).mpr (by decide +kernel)
  have upper : .maxValue 0 ∈ (parameterOfSchema "wear" schema).decorators :=
    (maxValue_mem_iff _ _ _).mpr (by decide +kernel)
  have held : (Number.float half).Held := trivial
  obtain ⟨minimum, maximum⟩ := parameterOfSchema_bounds "wear" schema held
  have low := (minimum rfl).1 1 lower 0 (by decide)
  have high := (maximum rfl).1 0 upper 1 (by decide)
  refine ⟨lower, upper, fun met => ?_, fun met => ?_⟩
  · exact absurd (low.mpr (.inl met)) (by decide)
  · exact absurd (high.mpr met) (by decide)

/-- A minimum of one more than the greatest integer becomes that integer, which does not meet it. -/
theorem greatest_integer_admitted :
    let m : Number := .int (2 ^ 63)
    let schema : Json := .obj [("minimum", .num m)]
    m.Held ∧ .minValue (2 ^ 63 - 1) ∈ (parameterOfSchema "wear" schema).decorators ∧
      Value.inIntRange (2 ^ 63 - 1) = true ∧ ¬ m.scaled ≤ (Number.int (2 ^ 63 - 1)).scaled := by
  intro m schema
  refine ⟨⟨by decide, by decide⟩, ?_, by decide, ?_⟩
  · exact (minValue_mem_iff _ _ _).mpr (by decide +kernel)
  · rw [Number.scaled_int_le_iff]
    decide

end Generation

end BicepForge
