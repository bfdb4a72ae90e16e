import BicepForge.Bicep.Declaration
import BicepForge.Generation.Naming

/-!
# Parameters from schema properties

A property schema becomes a parameter: its type, description, bounds, choices and default are taken
over as far as Bicep can say them.
-/

namespace BicepForge.Generation

open Bicep

/-- The value of a non-negative integer. -/
def natural? : Json → Option Nat
  | .num (.int i) => if 0 ≤ i then some i.toNat else none
  | _ => none

/-- Which way a bound moves to the next integer: a lower bound up, an upper bound down. -/
inductive Inward where
  | up
  | down
deriving DecidableEq

/-- The next integer of a float in a direction. -/
def Inward.round (way : Inward) (x : Binary64) : Int :=
  match way with
  | .up => -(-x.scaled / Binary64.one)
  | .down => x.scaled / Binary64.one

/-- The integer bound for a number. Integers stay; a float is rounded inward, and one that lies
outside of 64 bits gives no bound. -/
def integerBound? (way : Inward) (n : Number) : Option Int :=
  match n with
  | .int i => if Value.inIntRange i then some i else ofFloat n.toFloat
  | .float x => ofFloat x
where
  ofFloat (x : Binary64) : Option Int :=
    let rounded := way.round x
    if rounded < -(twoTo 63 : Int) ∨ (twoTo 63 : Int) < rounded then none
    else some (min rounded (twoTo 63 - 1))

def bound? (way : Inward) (keyword : String) (schema : Json) : Option Int :=
  match schema.get? keyword with
  | some (.num n) => integerBound? way n
  | _ => none

/-- The decorators of a property, in the order in which they are written. -/
def decorators (name : String) (schema : Json) : List Decorator :=
  [.description ((schema.string? "description").getD ("Parameter for " ++ name))] ++
    (((schema.get? "minLength").bind natural?).map .minLength).toList ++
    (((schema.get? "maxLength").bind natural?).map .maxLength).toList ++
    ((bound? .up "minimum" schema).map .minValue).toList ++
    ((bound? .down "maximum" schema).map .maxValue).toList ++
    ((schema.array? "enum").map fun choices => .allowed (choices.map Value.ofJson)).toList ++
    ((schema.string? "pattern").map fun p => .note ("Pattern validation: " ++ p)).toList ++
    (if isSensitive name then [.secure] else [])

def parameterOfSchema (name : String) (schema : Json) : Param :=
  { name
    type := Ty.ofSchema schema
    decorators := decorators name schema
    default? := (schema.get? "default").map Value.ofJson }

/-- Whether a parameter can be derived from a property: it has an object for a schema, does not
identify the resource, and its name is an identifier that nobody else has taken. -/
def isUsable (taken : List String) (name : String) (schema : Json) : Bool :=
  schema.isObject && !identityFields.contains name && !taken.contains name &&
    Value.isIdentifier name

/-- The parameters for those properties from which one can be derived. -/
def parametersOfProperties (taken : List String) (properties : List (String × Json)) : List Param :=
  (properties.filter fun p => isUsable taken p.1 p.2).map fun p => parameterOfSchema p.1 p.2

end BicepForge.Generation
