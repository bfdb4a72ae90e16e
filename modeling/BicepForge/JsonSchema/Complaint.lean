import BicepForge.Json.Printer
import BicepForge.JsonSchema.Uri

/-!
# Complaints

What a value can be blamed for by a schema, with its wording, and where in a document it was found.
-/

namespace BicepForge.JsonSchema

/-- The types of values, in the order in which they are listed. -/
inductive PrimitiveType where
  | array
  | boolean
  | integer
  | null
  | number
  | object
  | string
deriving DecidableEq, Repr

namespace PrimitiveType

def all : List PrimitiveType :=
  [array, boolean, integer, null, number, object, string]

def name : PrimitiveType → String
  | array => "array"
  | boolean => "boolean"
  | integer => "integer"
  | null => "null"
  | number => "number"
  | object => "object"
  | string => "string"

def ofName? (name : String) : Option PrimitiveType :=
  all.find? (·.name == name)

end PrimitiveType

/-- A lower or an upper bound. -/
inductive Side where
  | least
  | most
deriving DecidableEq, Repr

/-- What a bound on a size counts. -/
inductive Measure where
  | characters
  | items
  | properties
deriving DecidableEq, Repr

/-- The reason why a value is refused. -/
inductive Complaint where
  | type (value : Json) (types : List PrimitiveType)
  | choice (value : Json) (choices : List Json)
  | constant (expected : Json)
  | bound (value : Json) (side : Side) (exclusive : Bool) (limit : Number)
  | size (value : Json) (measure : Measure) (side : Side) (limit : Nat)
  | multiple (value : Json) (divisor : Binary64)
  | pattern (value : Json) (source : String)
  | format (value : Json) (name : String)
  | unique (value : Json)
  | required (name : String)
  | unexpectedProperties (names : List String)
  | unexpectedItems (items : List Json)
  | contains (value : Json)
  | anyOf (value : Json)
  | oneOf (value : Json)
  | severalOf (value : Json)
  | not (schema value : Json)
  | never (value : Json)
  | reference (address : String)
  | uri (fault : UriFault)
deriving DecidableEq

/-- A float as a plain decimal, without a point where it is whole. -/
def plainDecimal (x : Binary64) : String :=
  let text := x.shortest.positional.toList
  let trimmed := if ['.', '0'].isSuffixOf text then text.take (text.length - 2) else text
  (if x.negative then "-" else "") ++ String.ofList trimmed

namespace Measure

def count (m : Measure) (n : Nat) : String :=
  let one := n = 1
  toString n ++ match m with
    | characters => if one then " character" else " characters"
    | items => if one then " item" else " items"
    | properties => if one then " property" else " properties"

/-- How a size misses its bound. -/
def relation (m : Measure) (side : Side) : String :=
  match m, side with
  | characters, .least => " is shorter than "
  | characters, .most => " is longer than "
  | _, .least => " has less than "
  | _, .most => " has more than "

end Measure

/-- How a number misses its bound. -/
def boundRelation (side : Side) (exclusive : Bool) : String :=
  match side, exclusive with
  | .least, false => " is less than the minimum of "
  | .least, true => " is less than or equal to the minimum of "
  | .most, false => " is greater than the maximum of "
  | .most, true => " is greater than or equal to the maximum of "

def quotedName (name : String) : String :=
  "\"" ++ name ++ "\""

/-- The verb for one or for several. -/
def wasOrWere {α : Type} (l : List α) : String :=
  if l.length = 1 then "was" else "were"

namespace Complaint

def message : Complaint → String
  | type v [t] => v.compact ++ " is not of type " ++ quotedName t.name
  | type v types =>
    let listed := PrimitiveType.all.filter fun t => types.contains t
    v.compact ++ " is not of types " ++
      String.intercalate ", " (listed.map fun t => quotedName t.name)
  | choice v choices => v.compact ++ " is not one of " ++ (Json.arr choices).compact
  | constant expected => expected.compact ++ " was expected"
  | bound v side exclusive limit => v.compact ++ boundRelation side exclusive ++ limit.text
  | size v measure side limit => v.compact ++ measure.relation side ++ measure.count limit
  | multiple v divisor => v.compact ++ " is not a multiple of " ++ plainDecimal divisor
  | pattern v source => v.compact ++ " does not match " ++ quotedName source
  | format v name => v.compact ++ " is not a " ++ quotedName name
  | unique v => v.compact ++ " has non-unique elements"
  | required name => Json.quoted name ++ " is a required property"
  | unexpectedProperties names =>
    "Additional properties are not allowed (" ++
      String.intercalate ", " (names.map fun n => "'" ++ n ++ "'") ++ " " ++ wasOrWere names ++
      " unexpected)"
  | unexpectedItems items =>
    "Additional items are not allowed (" ++ String.intercalate ", " (items.map Json.compact) ++
      " " ++ wasOrWere items ++ " unexpected)"
  | contains v => "None of " ++ v.compact ++ " are valid under the given schema"
  | anyOf v =>
    v.compact ++ " is not valid under any of the schemas listed in the 'anyOf' keyword"
  | oneOf v =>
    v.compact ++ " is not valid under any of the schemas listed in the 'oneOf' keyword"
  | severalOf v =>
    v.compact ++ " is valid under more than one of the schemas listed in the 'oneOf' keyword"
  | not schema v => schema.compact ++ " is not allowed for " ++ v.compact
  | never v => "False schema does not allow " ++ v.compact
  | reference shown => "Invalid reference: " ++ shown
  | uri fault => fault.message

end Complaint

/-- A complaint with the keys and indices that lead to the value. -/
structure Violation where
  path : List String
  complaint : Complaint
deriving DecidableEq

namespace Violation

/-- A key in a pointer: tildes and slashes are written by number. -/
def pointerChar (c : Char) : List Char :=
  if c = '/' then ['~', '1'] else if c = '~' then ['~', '0'] else [c]

/-- The pointer of a path; the whole document has a name of its own. -/
def place (v : Violation) : String :=
  if v.path.isEmpty then "(root)"
  else String.ofList (v.path.flatMap fun key => '/' :: key.toList.flatMap pointerChar)

def message (v : Violation) : String :=
  v.place ++ ": " ++ v.complaint.message

end Violation

end BicepForge.JsonSchema
