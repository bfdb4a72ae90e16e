import BicepForge.JsonSchema.Validation
import BicepForge.Proofs.Bicep.Denotation
import BicepForge.Proofs.Generation.Bounds
import Mathlib.Data.List.Forall2

/-!
# Types of derived parameters

A property with a type becomes a parameter of the type that Bicep has for it, and what the property
says of its values becomes literals of that type. Numbers of all kinds become integers. One whose
value is no integer of 64 bits has no literal, and its own text stands in its place. A floating point
number whose value is such an integer has one, but its text stands there all the same, although a
bound of the same value becomes an integer. What stands for it is left open here.
-/

namespace BicepForge

/-- The number has the value of an integer of 64 bits. -/
def Number.IsIntegral (n : Number) : Prop :=
  ∃ i, Bicep.Value.inIntRange i = true ∧ n.scaled = (Number.int i).scaled

theorem Number.isIntegral_int_iff {i : Int} :
    (Number.int i).IsIntegral ↔ Bicep.Value.inIntRange i = true := by
  constructor
  · rintro ⟨j, range, same⟩
    obtain rfl : i = j := mul_right_cancel₀ Binary64.one_pos.ne' same
    exact range
  · exact fun range => ⟨i, range, rfl⟩

namespace Generation

open Bicep JsonSchema

/-- The type of a parameter for the values of a type. A value that can only be null has none. -/
def parameterType? : PrimitiveType → Option Ty
  | .string => some .string
  | .integer | .number => some .int
  | .boolean => some .bool
  | .array => some .array
  | .object => some .object
  | .null => none

/-! ## What stands for a value -/

mutual
/-- What stands for a JSON value in a document. -/
inductive Stands : Json → Value → Prop
  | null : Stands .null .null
  | bool (b : Bool) : Stands (.bool b) (.bool b)
  | str (text : String) : Stands (.str text) (.str text)
  | int {i : Int} (range : Value.inIntRange i = true) : Stands (.num (.int i)) (.int i)
  /-- A number that has no literal stands there as its text. -/
  | text {n : Number} (noInteger : ¬ n.IsIntegral) : Stands (.num n) (.expr n.text)
  /-- Nothing is said of a floating point number that could be written as an integer. -/
  | unsettled {x : Binary64} (integral : (Number.float x).IsIntegral) (w : Value) :
      Stands (.num (.float x)) w
  | array {vs : List Json} {ws : List Value} (each : StandItems vs ws) :
      Stands (.arr vs) (.array ws)
  | object {entries : List (String × Json)} {body : Body} (each : StandEntries entries body) :
      Stands (.obj entries) (.object body)
inductive StandItems : List Json → List Value → Prop
  | nil : StandItems [] []
  | cons {v : Json} {w : Value} {vs : List Json} {ws : List Value} (first : Stands v w)
      (others : StandItems vs ws) : StandItems (v :: vs) (w :: ws)
inductive StandEntries : List (String × Json) → Body → Prop
  | nil : StandEntries [] []
  | cons (key : String) {v : Json} {w : Value} {entries : List (String × Json)} {body : Body}
      (first : Stands v w) (others : StandEntries entries body) :
      StandEntries ((key, v) :: entries) (.property key w :: body)
end

theorem stands_ofNumber (n : Number) : Stands (.num n) (Value.ofNumber n) := by
  cases n with
  | int i =>
    by_cases range : Value.inIntRange i = true
    · rw [Value.ofNumber, if_pos range]
      exact .int range
    · rw [Value.ofNumber, if_neg range]
      exact .text (Number.isIntegral_int_iff.not.mpr range)
  | float x =>
    by_cases integral : (Number.float x).IsIntegral
    · exact .unsettled integral _
    · exact .text integral

mutual
theorem stands_ofJson : ∀ v : Json, Stands v (Value.ofJson v)
  | .null => .null
  | .bool b => .bool b
  | .num n => stands_ofNumber n
  | .str text => .str text
  | .arr items => .array (standItems_ofItems items)
  | .obj entries => .object (standEntries_ofEntries entries)
theorem standItems_ofItems : ∀ vs : List Json, StandItems vs (Value.ofItems vs)
  | [] => .nil
  | v :: vs => .cons (stands_ofJson v) (standItems_ofItems vs)
theorem standEntries_ofEntries : ∀ entries : List (String × Json),
    StandEntries entries (Value.ofEntries entries)
  | [] => .nil
  | (key, v) :: entries => .cons key (stands_ofJson v) (standEntries_ofEntries entries)
end

/-- An integer of 64 bits has its literal and nothing else. -/
theorem Stands.eq_int {i : Int} (range : Value.inIntRange i = true) {w : Value}
    (h : Stands (.num (.int i)) w) : w = .int i := by
  cases h with
  | int => rfl
  | text noInteger => exact absurd (Number.isIntegral_int_iff.mpr range) noInteger

/-- A number without a literal has its text and nothing else. -/
theorem Stands.eq_text {n : Number} (noInteger : ¬ n.IsIntegral) {w : Value}
    (h : Stands (.num n) w) : w = .expr n.text := by
  cases h with
  | text => rfl
  | int range => exact absurd (Number.isIntegral_int_iff.mpr range) noInteger
  | unsettled integral => exact absurd integral noInteger

/-! ## Values of a type -/

inductive LiteralOf : Ty → Value → Prop
  | string (text : String) : LiteralOf .string (.str text)
  | int {i : Int} (range : Value.inIntRange i = true) : LiteralOf .int (.int i)
  | bool (b : Bool) : LiteralOf .bool (.bool b)
  | array (items : List Value) : LiteralOf .array (.array items)
  | object (body : Body) : LiteralOf .object (.object body)

/-- How a value is taken over for a parameter of a type. -/
structure TakenOver (type : Ty) (v : Json) (w : Value) : Prop where
  stands : Stands v w
  /-- Only a number that is not held as an integer of 64 bits need not become a literal. -/
  literal : (∀ n, v = .num n → n.isInteger = true) → LiteralOf type w

/-- The type of a parameter is made without its values, and its values without the type; they agree
where the values are of the type that the schema asks for. -/
theorem takenOver_ofJson {t : PrimitiveType} {type : Ty} (known : parameterType? t = some type)
    {wholeFloats : Bool} {v : Json} (conforms : hasType wholeFloats v t = true) :
    TakenOver type v (Value.ofJson v) := by
  refine ⟨stands_ofJson v, fun integer => ?_⟩
  cases t with
  | null => cases known
  | string =>
    cases known
    cases v with
    | str text => exact .string text
    | null | bool | num | arr | obj => cases conforms
  | boolean =>
    cases known
    cases v with
    | bool b => exact .bool b
    | null | num | str | arr | obj => cases conforms
  | array =>
    cases known
    cases v with
    | arr items => exact .array _
    | null | bool | num | str | obj => cases conforms
  | object =>
    cases known
    cases v with
    | obj entries => exact .object _
    | null | bool | num | str | arr => cases conforms
  | integer | number =>
    cases known
    cases v with
    | num n =>
      have range := integer n rfl
      cases n with
      | float x => cases range
      | int i =>
        have literal : Value.ofJson (.num (.int i)) = .int i := if_pos range
        rw [literal]
        exact .int range
    | null | bool | str | arr | obj => cases conforms

/-! ## Parameters -/

theorem ofSchema_of_type {t : PrimitiveType} {type : Ty} (known : parameterType? t = some type)
    {schema : Json} (typed : schema.get? "type" = some (.str t.name)) :
    Ty.ofSchema schema = type := by
  rw [Ty.ofSchema, Json.string?, typed]
  cases t with
  | null => cases known
  | string | integer | number | boolean | array | object =>
    cases known
    rfl

theorem allowed_mem_iff (name : String) (schema : Json) (ws : List Value) :
    .allowed ws ∈ (parameterOfSchema name schema).decorators ↔
      ∃ vs, schema.array? "enum" = some vs ∧ vs.map Value.ofJson = ws := by
  simp [parameterOfSchema, decorators, Option.bind_eq_some_iff]

/-- A parameter is of a type, and takes its default and its choices over from a schema. -/
structure TakesOver (ty : Ty) (schema : Json) (p : Param) : Prop where
  type : p.type = ty
  default : Option.Rel (TakenOver ty) (schema.get? "default") p.default?
  /-- The choices are in one list, in their order. -/
  choices : ∀ vs, schema.array? "enum" = some vs →
    ∃ ws, List.Forall₂ (TakenOver ty) vs ws ∧ ∀ ws', .allowed ws' ∈ p.decorators ↔ ws' = ws
  noChoices : schema.array? "enum" = none → ∀ ws, .allowed ws ∉ p.decorators

theorem TakesOver.exists_default {ty : Ty} {schema : Json} {p : Param} (h : TakesOver ty schema p)
    {v : Json} (found : schema.get? "default" = some v) :
    ∃ w, p.default? = some w ∧ TakenOver ty v w := by
  have taken := h.default
  rw [found] at taken
  generalize p.default? = default at taken
  cases taken with
  | some taken => exact ⟨_, rfl, taken⟩

/-- A property of one of the types becomes a parameter of the corresponding type. If its default and
its choices are of its type, then the default and the choices of the parameter are those, as literals
of the parameter's type. Only a number whose value is no integer of 64 bits stands there as its text,
and one that is held as a floating point number but has such a value is left open. -/
theorem parameterOfSchema_typed (name : String) {schema : Json} {t : PrimitiveType} {type : Ty}
    (known : parameterType? t = some type) (typed : schema.get? "type" = some (.str t.name))
    {wholeFloats : Bool}
    (default : ∀ v, schema.get? "default" = some v → hasType wholeFloats v t = true)
    (choices : ∀ vs, schema.array? "enum" = some vs → ∀ v ∈ vs, hasType wholeFloats v t = true) :
    TakesOver type schema (parameterOfSchema name schema) where
  type := ofSchema_of_type known typed
  default := by
    rw [parameterOfSchema]
    cases found : schema.get? "default" with
    | none => exact .none
    | some v => exact .some (takenOver_ofJson known (default v found))
  choices := by
    intro vs found
    refine ⟨vs.map Value.ofJson, ?_, fun ws => ?_⟩
    · rw [List.forall₂_map_right_iff, List.forall₂_same]
      exact fun v mem => takenOver_ofJson known (choices vs found v mem)
    · rw [allowed_mem_iff, found]
      simp [eq_comm]
  noChoices := by
    intro none ws mem
    obtain ⟨vs, found, -⟩ := (allowed_mem_iff name schema ws).mp mem
    rw [none] at found
    cases found

/-- Numbers to choose from: of three, a half and one beyond 64 bits, only three is an integer. -/
def wearSchema : Json :=
  .obj [("type", .str "number"), ("default", .num (.int 3)),
    ("enum", .arr [.num (.int 3), .num (.float half), .num (.int (2 ^ 63))])]

theorem hasType_wearSchema :
    (∀ v, wearSchema.get? "default" = some v → hasType true v .number = true) ∧
      ∀ vs, wearSchema.array? "enum" = some vs → ∀ v ∈ vs, hasType true v .number = true := by
  constructor
  · rintro v ⟨⟩
    rfl
  · rintro vs ⟨⟩
    simp [hasType]

theorem not_isIntegral_half : ¬ (Number.float half).IsIntegral := by
  rintro ⟨i, -, same⟩
  have halved : half.scaled = i * Binary64.one := same
  have twice : 2 * half.scaled = Binary64.one := by decide +kernel
  have value : 2 * i * Binary64.one = 1 * Binary64.one := by
    rw [Int.mul_assoc, ← halved, twice, Int.one_mul]
  have even : 2 * i = 1 := mul_right_cancel₀ Binary64.one_pos.ne' value
  omega

theorem not_isIntegral_large : ¬ (Number.int (2 ^ 63)).IsIntegral :=
  Number.isIntegral_int_iff.not.mpr (by decide)

/-- The integer is a literal, and the other two numbers are not. -/
theorem parameterOfSchema_typed_wear :
    let p := parameterOfSchema "wear" wearSchema
    p.type = .int ∧ p.default? = some (.int 3) ∧
      .allowed [.int 3, .expr (Number.float half).text, .expr (Number.int (2 ^ 63)).text] ∈
        p.decorators := by
  intro p
  have taken : TakesOver .int wearSchema p := parameterOfSchema_typed "wear" (t := .number) rfl rfl
    hasType_wearSchema.1 hasType_wearSchema.2
  obtain ⟨w, default, three⟩ := taken.exists_default rfl
  obtain rfl := three.stands.eq_int (by decide)
  obtain ⟨ws, each, only⟩ := taken.choices _ rfl
  have choices : ws =
      [.int 3, .expr (Number.float half).text, .expr (Number.int (2 ^ 63)).text] := by
    obtain _ | ⟨first, _ | ⟨second, _ | ⟨third, ⟨⟩⟩⟩⟩ := each
    rw [first.stands.eq_int (by decide), second.stands.eq_text not_isIntegral_half,
      third.stands.eq_text not_isIntegral_large]
  exact ⟨taken.type, default, (only _).mpr choices.symm⟩

def unity : Binary64 :=
  ⟨false, twoTo 52, 1022, by decide⟩

def numberProperty (t : PrimitiveType) (n : Number) : Json :=
  .obj [("type", .str t.name), ("default", .num n)]

/-- An integer beyond 64 bits and a number with a fraction are no integers as a default, though they
are of the type that is asked for. Nor is one with a zero for a fraction, though as a bound it is. -/
theorem default_without_literal :
    let large := parameterOfSchema "wear" (numberProperty .integer (.int (2 ^ 63)))
    let small := parameterOfSchema "wear" (numberProperty .number (.float half))
    let whole := parameterOfSchema "wear" (numberProperty .integer (.float unity))
    (hasType false (.num (.int (2 ^ 63))) .integer = true ∧ large.type = .int ∧
        large.default? = some (.expr "9223372036854775808")) ∧
      (hasType false (.num (.float half)) .number = true ∧ small.type = .int ∧
        small.default? = some (.expr "0.5")) ∧
      hasType true (.num (.float unity)) .integer = true ∧ whole.type = .int ∧
        whole.default? = some (.expr "1.0") ∧ integerBound? .up (.float unity) = some 1 ∧
      ∀ text, ¬ LiteralOf .int (.expr text) := by
  have digits : (Number.int (2 ^ 63)).text = "9223372036854775808" := by decide +kernel
  have fraction : (Number.float half).text = "0.5" := by decide +kernel
  have zero : (Number.float unity).text = "1.0" := by decide +kernel
  have large : Value.ofNumber (.int (2 ^ 63)) = .expr "9223372036854775808" :=
    digits ▸ (stands_ofNumber _).eq_text not_isIntegral_large
  have small : Value.ofNumber (.float half) = .expr "0.5" := congrArg Value.expr fraction
  have whole : Value.ofNumber (.float unity) = .expr "1.0" := congrArg Value.expr zero
  refine ⟨⟨rfl, rfl, congrArg some large⟩, ⟨rfl, rfl, congrArg some small⟩, ?_, rfl,
    congrArg some whole, ?_, fun text h => by cases h⟩
  · decide +kernel
  · decide +kernel

end Generation

end BicepForge
