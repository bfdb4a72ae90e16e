import BicepForge.JsonSchema.Schema

/-!
# Checking values against schemas

The violations of a value are those of the rules of its schema, in their order and depth first. A
schema is checked against the meta-schema of its draft before it is used.
-/

namespace BicepForge.JsonSchema

/-! ## Equality of values -/

mutual
/-- Equality as schemas see it: numbers by value, objects entry by entry in their order. -/
def equal : Json → Json → Bool
  | .null, .null => true
  | .bool a, .bool b => a == b
  | .num a, .num b => a.toFloat.scaled == b.toFloat.scaled
  | .str a, .str b => a == b
  | .arr as, .arr bs => equalItems as bs
  | .obj as, .obj bs => equalEntries as bs
  | _, _ => false
def equalItems : List Json → List Json → Bool
  | [], [] => true
  | a :: as, b :: bs => equal a b && equalItems as bs
  | _, _ => false
def equalEntries : List (String × Json) → List (String × Json) → Bool
  | [], [] => true
  | (k, a) :: as, (l, b) :: bs => k == l && equal a b && equalEntries as bs
  | _, _ => false
end

/-- The distance from one to the next float, in units of `2 ^ -1074`. -/
def epsilon : Nat := twoTo 1022

/-- Equality with a constant: a number may miss it by less than `epsilon`. -/
def equalsConstant (expected v : Json) : Bool :=
  match expected, v with
  | .num a, .num b => (a.toFloat.scaled - b.toFloat.scaled).natAbs < epsilon
  | _, _ => equal expected v

def allDistinct : List Json → Bool
  | [] => true
  | v :: vs => vs.all (fun w => !equal v w) && allDistinct vs

/-! ## Single rules -/

def hasType (wholeFloats : Bool) (v : Json) (t : PrimitiveType) : Bool :=
  match v, t with
  | .arr _, .array | .bool _, .boolean | .null, .null | .num _, .number | .obj _, .object
  | .str _, .string => true
  | .num (.int _), .integer => true
  | .num (.float x), .integer => wholeFloats && x.isWhole
  | _, _ => false

/-- Whether a number is a multiple of a divisor. A whole divisor divides exactly; for any other
the rest of the rounded quotient must be small, and where the quotient is infinite the numbers
themselves decide. -/
def isMultiple (x divisor : Binary64) : Bool :=
  if divisor.isWhole then
    x.isWhole && divisor.magnitude != 0 && x.magnitude % divisor.magnitude == 0
  else
    match x.div? divisor with
    | some quotient => Int.tmod quotient.scaled Binary64.one < epsilon
    | none => x.magnitude % divisor.magnitude == 0

/-- The size that a measure takes of a value; none where it does not apply. -/
def sizeBy? : Measure → Json → Option Nat
  | .characters, .str s => some s.toList.length
  | .items, .arr items => some items.length
  | .properties, .obj entries => some entries.length
  | _, _ => none

def keepsBound (side : Side) (exclusive : Bool) (limit n : Number) : Bool :=
  match side, exclusive with
  | .least, false => limit.scaled ≤ n.scaled
  | .least, true => limit.scaled < n.scaled
  | .most, false => n.scaled ≤ limit.scaled
  | .most, true => n.scaled < limit.scaled

/-! ## References -/

/-- Bytes written as percent signs and two digits turned back into themselves. -/
def percentDecoded : List Char → List UInt8
  | '%' :: a :: b :: cs =>
    match Json.Reader.hexDigit? a, Json.Reader.hexDigit? b with
    | some a, some b => UInt8.ofNat (a * 16 + b) :: percentDecoded cs
    | _, _ => 37 :: percentDecoded (a :: b :: cs)
  | c :: cs => (String.singleton c).toUTF8.toList ++ percentDecoded cs
  | [] => []

/-- A byte as a percent sign and two digits. -/
def percentByte (b : UInt8) : List Char :=
  ['%', (Nat.digitChar (b.toNat / 16)).toUpper, (Nat.digitChar (b.toNat % 16)).toUpper]

/-- A fragment as addresses show it: controls, blanks, some signs and all beyond ASCII are written
as percent signs and digits. -/
def shownFragment (cs : List Char) : List Char :=
  cs.flatMap fun c =>
    if c.toNat ≤ 0x20 || c.toNat ≥ 0x7F || "\"<>`".toList.contains c then
      (String.singleton c).toUTF8.toList.flatMap percentByte
    else [c]

/-- A key of a pointer with its numbered signs turned back. -/
def pointerKey : List Char → List Char
  | '~' :: '1' :: cs => '/' :: pointerKey cs
  | '~' :: '0' :: cs => '~' :: pointerKey cs
  | c :: cs => c :: pointerKey cs
  | [] => []

/-- The pieces between slashes. -/
def pointerKeys (cs : List Char) : List (List Char) :=
  cs.foldr (fun c pieces =>
    match pieces with
    | [] => [[c]]
    | piece :: rest => if c = '/' then [] :: piece :: rest else (c :: piece) :: rest) [[]]

/-- An array index without needless signs or zeros. -/
def pointerIndex? (key : List Char) : Option Nat :=
  if key.isEmpty || !key.all Char.isDigit || (key.head? == some '0' && key.length != 1) then none
  else some (key.foldl (fun n c => n * 10 + (c.toNat - 48)) 0)

/-- The value one key further in. -/
def pointerStep (v : Json) (key : List Char) : Option Json :=
  match v with
  | .obj entries => entries.lookup (String.ofList key)
  | .arr items => (pointerIndex? key).bind (items[·]?)
  | _ => none

def atPointer? (root : Json) (pointer : List Char) : Option Json :=
  match pointer with
  | [] => some root
  | '/' :: rest => (pointerKeys rest).foldlM (fun v key => pointerStep v (pointerKey key)) root
  | _ => none

/-- The document that references are resolved in. -/
structure Scope where
  draft : Draft
  root : Json
  /-- The address of the document. -/
  address : String

/-- The address of a document that names none. -/
def ownAddress : String := "json-schema:///"

def withoutFragment (s : String) : String :=
  String.ofList (s.toList.takeWhile (· != '#'))

/-- The schema that a reference names. -/
def Scope.resolve (scope : Scope) (target : String) : Except Complaint Schema :=
  let fragment := (target.toList.dropWhile (· != '#')).drop 1
  let shown := shownFragment fragment
  let decoded := String.fromUTF8? (ByteArray.mk (percentDecoded fragment).toArray)
  match decoded.bind fun s => atPointer? scope.root s.toList with
  | none => .error (.reference (scope.address ++ "#" ++ String.ofList shown))
  | some v => Schema.ofJson scope.draft v

/-! ## All rules -/

/-- How the schemas inside a rule are applied: to the value at a path. -/
abbrev Checker := List String → Schema → Json → List Violation

namespace Rule

/-- A violation unless a condition holds. -/
def demand (path : List String) (holds : Bool) (complaint : Complaint) : List Violation :=
  if holds then [] else [⟨path, complaint⟩]

/-- Items with their indices as path keys, from a first index on. -/
def numbered (first : Nat) : List Json → List (String × Json)
  | [] => []
  | v :: vs => (toString first, v) :: numbered (first + 1) vs

/-- The violations of a property under the schemas whose patterns match its name. -/
def matching (again : Checker) (path : List String) (patterns : List (Regex × Schema))
    (key : String) (v : Json) : List (List Violation) :=
  (patterns.filter fun p => p.1.search key).map fun p => again (path ++ [key]) p.2 v

/-- The violations of the properties of an object, and the names that nothing was said about. -/
def settle (again : Checker) (path : List String) (members : List (String × Schema))
    (patterns : List (Regex × Schema)) (others : Option Schema) :
    List (String × Json) → List Violation × List String
  | [] => ([], [])
  | (key, v) :: rest =>
    let (later, unexpected) := settle again path members patterns others rest
    let byPattern := matching again path patterns key v
    match members.lookup key with
    | some schema => (again (path ++ [key]) schema v ++ byPattern.flatten ++ later, unexpected)
    | none =>
      if !byPattern.isEmpty then (byPattern.flatten ++ later, unexpected)
      else
        match others with
        | some schema => (again (path ++ [key]) schema v ++ later, unexpected)
        | none => (later, key :: unexpected)

def check (scope : Scope) (again : Checker) (path : List String) (v : Json) :
    Rule → List Violation
  | reference target =>
    match scope.resolve target with
    | .error complaint => [⟨[], complaint⟩]
    | .ok schema => again path schema v
  | type types wholeFloats => demand path (types.any (hasType wholeFloats v)) (.type v types)
  | choices values => demand path (values.any (equal v)) (.choice v values)
  | constant value => demand path (equalsConstant value v) (.constant value)
  | bound side exclusive limit =>
    match v with
    | .num n => demand path (keepsBound side exclusive limit n) (.bound v side exclusive limit)
    | _ => []
  | size measure side limit =>
    match sizeBy? measure v with
    | some n =>
      demand path (match side with | .least => limit ≤ n | .most => n ≤ limit)
        (.size v measure side limit)
    | none => []
  | multipleOf divisor =>
    match v with
    | .num n => demand path (isMultiple n.toFloat divisor) (.multiple v divisor)
    | _ => []
  | pattern source regex =>
    match v with
    | .str s => demand path (regex.search s) (.pattern v source)
    | _ => []
  | format name f =>
    match v with
    | .str s => demand path (f.admits s) (.format v name)
    | _ => []
  | uniqueItems =>
    match v with
    | .arr values => demand path (allDistinct values) (.unique v)
    | _ => []
  | required names =>
    match v with
    | .obj entries =>
      names.flatMap fun name => demand path (entries.lookup name).isSome (.required name)
    | _ => []
  | properties members =>
    match v with
    | .obj entries => members.flatMap fun (key, schema) =>
      match entries.lookup key with
      | some w => again (path ++ [key]) schema w
      | none => []
    | _ => []
  | patternProperties patterns =>
    match v with
    | .obj entries => patterns.flatMap fun (regex, schema) =>
      (entries.filter fun e => regex.search e.1).flatMap fun (key, w) =>
        again (path ++ [key]) schema w
    | _ => []
  | noProperties =>
    match v with
    | .obj ((_, w) :: _) => [⟨path, .never w⟩]
    | _ => []
  | allProperties members patterns others =>
    match v with
    | .obj entries =>
      let (found, unexpected) := settle again path members patterns others entries
      found ++ demand path unexpected.isEmpty (.unexpectedProperties unexpected)
    | _ => []
  | items schema =>
    match v with
    | .arr values => (numbered 0 values).flatMap fun (key, w) => again (path ++ [key]) schema w
    | _ => []
  | tuple schemas =>
    match v with
    | .arr values => ((numbered 0 values).zip schemas).flatMap fun ((key, w), schema) =>
      again (path ++ [key]) schema w
    | _ => []
  | laterItems count schema =>
    match v with
    | .arr values => ((numbered 0 values).drop count).flatMap fun (key, w) =>
      again (path ++ [key]) schema w
    | _ => []
  | noLaterItems count =>
    match v with
    | .arr values =>
      demand path (values.length ≤ count) (.unexpectedItems (values.drop count))
    | _ => []
  | contains schema =>
    match v with
    | .arr values =>
      demand path (values.any fun w => (again path schema w).isEmpty) (.contains v)
    | _ => []
  | propertyNames schema =>
    match v with
    | .obj entries =>
      match schema with
      | .never => demand path entries.isEmpty (.never v)
      | schema => entries.flatMap fun (key, _) =>
        (again path schema (.str key)).map fun found => { found with path }
    | _ => []
  | dependencies members =>
    match v with
    | .obj entries => members.flatMap fun (key, schema) =>
      if (entries.lookup key).isSome then again path schema v else []
    | _ => []
  | conditional test yes no =>
    match if (again path test v).isEmpty then yes else no with
    | some schema => again path schema v
    | none => []
  | allOf schemas => schemas.flatMap fun schema => again path schema v
  | anyOf schemas =>
    demand path (schemas.any fun schema => (again path schema v).isEmpty) (.anyOf v)
  | oneOf schemas =>
    match (schemas.filter fun schema => (again path schema v).isEmpty).length with
    | 0 => [⟨path, .oneOf v⟩]
    | 1 => []
    | _ => [⟨path, .severalOf v⟩]
  | not schema source => demand path (!(again path schema v).isEmpty) (.not source v)

end Rule

/-- The violations of a value, following at most `fuel` schemas inside each other. -/
def violations (scope : Scope) : (fuel : Nat) → Checker
  | 0, _, _, _ => []
  | fuel + 1, path, schema, v =>
    match schema with
    | .always => []
    | .never => [⟨path, .never v⟩]
    | .rules rules => rules.flatMap (Rule.check scope (violations scope fuel) path v)

/-- A schema ready to be used. -/
structure Compiled where
  scope : Scope
  schema : Schema

namespace Compiled

/-- The violations of a value. A schema inside a schema is reached at most once for each value
inside the value, or its references go round in a circle. -/
def validate (c : Compiled) (v : Json) : List Violation :=
  violations c.scope ((size c.scope.root + 2) * (depth v + 2)) [] c.schema v

def ofDraft (draft : Draft) : Compiled where
  scope := ⟨draft, draft.metaSchema, draft.address⟩
  schema := match Schema.ofJson draft draft.metaSchema with
    | .ok schema => schema
    | .error _ => .always

end Compiled

/-- The address of a schema, which must be absolute where it gives one. -/
def addressOf (draft : Draft) (v : Json) : Except Complaint String :=
  match v.string? draft.idKeyword with
  | none => .ok ownAddress
  | some id =>
    match Uri.check id with
    | .ok _ => .ok (withoutFragment id)
    | .error fault => .error (.uri fault)

/-- Makes a schema ready, or says what is wrong with it. The first complaint counts: about its
address, then those of the meta-schema, then those of single keywords. -/
def compile (v : Json) : Except Complaint Compiled := do
  let draft := Draft.ofSchema v
  let address ← addressOf draft v
  match (Compiled.ofDraft draft).validate v with
  | first :: _ => .error first.complaint
  | [] => return ⟨⟨draft, v, address⟩, ← Schema.ofJson draft v⟩

end BicepForge.JsonSchema
