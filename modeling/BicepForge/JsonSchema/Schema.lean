import BicepForge.JsonSchema.Complaint
import BicepForge.JsonSchema.Format
import BicepForge.JsonSchema.MetaSchema

/-!
# Schemas

A schema as a list of rules in the order of its keywords, and how it is read from JSON. Some rules
take in several keywords: what is said about further properties settles the named ones too.
-/

namespace BicepForge.JsonSchema

mutual
/-- What a value has to satisfy. -/
inductive Schema where
  | always
  | never
  | rules (rules : List Rule)
/-- One demand on a value. -/
inductive Rule where
  /-- The schema at another place of the document, looked up when it is needed. -/
  | reference (target : String)
  | type (types : List PrimitiveType) (wholeFloats : Bool)
  | choices (values : List Json)
  | constant (value : Json)
  | bound (side : Side) (exclusive : Bool) (limit : Number)
  | size (measure : Measure) (side : Side) (limit : Nat)
  | multipleOf (divisor : Binary64)
  | pattern (source : String) (regex : Regex)
  | format (name : String) (format : Format)
  | uniqueItems
  | required (names : List String)
  | properties (members : List (String × Schema))
  | patternProperties (members : List (Regex × Schema))
  /-- No properties at all. -/
  | noProperties
  /-- Named properties, those whose names match, and a schema for all others; without one there
  must be no others. -/
  | allProperties (members : List (String × Schema)) (patterns : List (Regex × Schema))
      (others : Option Schema)
  | items (schema : Schema)
  | tuple (schemas : List Schema)
  | laterItems (count : Nat) (schema : Schema)
  | noLaterItems (count : Nat)
  | contains (schema : Schema)
  | propertyNames (schema : Schema)
  | dependencies (members : List (String × Schema))
  | conditional (test : Schema) (yes no : Option Schema)
  | allOf (schemas : List Schema)
  | anyOf (schemas : List Schema)
  | oneOf (schemas : List Schema)
  | not (schema : Schema) (source : Json)
end

namespace Rule

/-- How keywords are read: in which draft, and by which reader for the schemas inside. -/
structure Context where
  draft : Draft
  schema : Json → Except Complaint Schema

/-- A rule, nothing, or a complaint about the keyword. -/
abbrev Reading := Except Complaint (Option Rule)

def mistyped (v : Json) (types : List PrimitiveType) : Reading :=
  .error (.type v types)

def members (c : Context) : List (String × Json) → Except Complaint (List (String × Schema)) :=
  List.mapM fun (key, v) => do return (key, ← c.schema v)

/-- The members of an object of schemas under patterns. -/
def patterned (c : Context) : List (String × Json) → Except Complaint (List (Regex × Schema)) :=
  List.mapM fun (source, v) =>
    match Regex.parse? source with
    | none => .error (.format (.str source) "regex")
    | some regex => do return (regex, ← c.schema v)

/-- A bound on a size: a natural number, which later drafts may write as a float. -/
def sizeBound (c : Context) (measure : Measure) (side : Side) (v : Json) : Reading :=
  match v with
  | .num (.int i) =>
    if 0 ≤ i then .ok (some (.size measure side i.toNat))
    else .error (.bound v .least false (.int 0))
  | .num (.float x) =>
    if c.draft.wholeFloats ∧ x.isWhole then
      .ok (some (.size measure side (x.scaled / Binary64.one).toNat))
    else mistyped v [.integer]
  | _ => mistyped v [.integer]

def numberBound (side : Side) (exclusive : Bool) (v : Json) : Reading :=
  match v with
  | .num n => .ok (some (.bound side exclusive n))
  | _ => mistyped v [.number]

/-- The type keyword: one name, or several. -/
def typeRule (c : Context) (v : Json) : Reading :=
  let named (t : Json) : Except Complaint PrimitiveType :=
    match t with
    | .str name =>
      match PrimitiveType.ofName? name with
      | some t => .ok t
      | none => .error (.choice t (PrimitiveType.all.map fun t => .str t.name))
    | other => .error (.type other [.string])
  match v with
  | .arr names => do return some (.type (← names.mapM named) c.draft.wholeFloats)
  | .str _ => do return some (.type [← named v] c.draft.wholeFloats)
  | _ => mistyped v [.array, .string]

/-- Whether the keyword for further properties settles the named ones too. -/
def settlesProperties (parent : List (String × Json)) : Bool :=
  match parent.lookup "additionalProperties" with
  | some (.bool false) | some (.obj _) => true
  | _ => false

def additionalProperties (c : Context) (parent : List (String × Json)) (v : Json) : Reading := do
  let patterns ← match parent.lookup "patternProperties" with
    | none => .ok []
    | some (.obj entries) => patterned c entries
    | some other => .error (.type other [.object])
  let named ← match v, parent.lookup "properties" with
    | .bool true, _ => .ok []
    | _, none => .ok []
    | _, some (.obj entries) => members c entries
    | _, some other => .error (.type other [.object])
  match v with
  | .bool true => return none
  | .bool false =>
    if (parent.lookup "properties").isNone ∧ (parent.lookup "patternProperties").isNone then
      return some .noProperties
    else return some (.allProperties named patterns none)
  | _ => return some (.allProperties named patterns (some (← c.schema v)))

def itemsRule (c : Context) (v : Json) : Reading :=
  match v with
  | .arr schemas => do return some (.tuple (← schemas.mapM c.schema))
  | _ => do return some (.items (← c.schema v))

def additionalItems (c : Context) (parent : List (String × Json)) (v : Json) : Reading :=
  match parent.lookup "items", v with
  | some (.arr schemas), .obj _ => do return some (.laterItems schemas.length (← c.schema v))
  | some (.arr schemas), .bool false => .ok (some (.noLaterItems schemas.length))
  | _, _ => .ok none

/-- One dependency: names that must be there too, or a schema for the whole object. -/
def dependency (c : Context) (v : Json) : Except Complaint Schema :=
  match v with
  | .arr names => do
    let names ← names.mapM fun n =>
      match n with
      | .str name => Except.ok name
      | other => .error (.type other [.string])
    return .rules [.required names]
  | _ => c.schema v

def schemaList (c : Context) (make : List Schema → Rule) (v : Json) : Reading :=
  match v with
  | .arr schemas => do return some (make (← schemas.mapM c.schema))
  | _ => mistyped v [.array]

/-- A keyword that holds one schema, if it is there. -/
def branch (c : Context) (parent : List (String × Json)) (key : String) :
    Except Complaint (Option Schema) :=
  match parent.lookup key with
  | none => .ok none
  | some v => do return some (← c.schema v)

/-- The keywords of draft 4, where bounds are made exclusive by another keyword. -/
def boundOfDraft4 (parent : List (String × Json)) (side : Side) (exclusive : String) (v : Json) :
    Reading :=
  match parent.lookup exclusive with
  | some (.bool true) => numberBound side true v
  | _ => numberBound side false v

/-- The rule of a keyword in an object of keywords; none where the keyword asks nothing. -/
def ofKeyword (c : Context) (parent : List (String × Json)) (key : String) (v : Json) : Reading :=
  let later := c.draft ≠ .draft4
  match key with
  | "type" => typeRule c v
  | "enum" =>
    match v with
    | .arr values => .ok (some (.choices values))
    | _ => mistyped v [.array]
  | "const" => .ok (if later then some (.constant v) else none)
  | "minimum" =>
    if later then numberBound .least false v
    else boundOfDraft4 parent .least "exclusiveMinimum" v
  | "maximum" =>
    if later then numberBound .most false v
    else boundOfDraft4 parent .most "exclusiveMaximum" v
  | "exclusiveMinimum" => if later then numberBound .least true v else .ok none
  | "exclusiveMaximum" => if later then numberBound .most true v else .ok none
  | "multipleOf" =>
    match v with
    | .num n => .ok (some (.multipleOf n.toFloat))
    | _ => mistyped v [.number]
  | "minLength" => sizeBound c .characters .least v
  | "maxLength" => sizeBound c .characters .most v
  | "minItems" => sizeBound c .items .least v
  | "maxItems" => sizeBound c .items .most v
  | "minProperties" => sizeBound c .properties .least v
  | "maxProperties" => sizeBound c .properties .most v
  | "pattern" =>
    match v with
    | .str source =>
      match Regex.parse? source with
      | some regex => .ok (some (.pattern source regex))
      | none => .error (.format v "regex")
    | _ => mistyped v [.string]
  | "format" =>
    match v with
    | .str name => .ok ((Format.ofName? name).map fun f => .format name f)
    | _ => mistyped v [.string]
  | "uniqueItems" => .ok (if v = .bool true then some .uniqueItems else none)
  | "required" =>
    match v with
    | .arr names => do
      return some (.required (← names.mapM fun n =>
        match n with
        | .str name => Except.ok name
        | other => .error (.type other [.string])))
    | _ => mistyped v [.array]
  | "properties" =>
    if settlesProperties parent then .ok none
    else match v with
    | .obj entries => do return some (.properties (← members c entries))
    | _ => mistyped v [.object]
  | "patternProperties" =>
    if settlesProperties parent then .ok none
    else match v with
    | .obj entries => do return some (.patternProperties (← patterned c entries))
    | _ => mistyped v [.object]
  | "additionalProperties" => additionalProperties c parent v
  | "items" => itemsRule c v
  | "additionalItems" => additionalItems c parent v
  | "contains" => if later then do return some (.contains (← c.schema v)) else .ok none
  | "propertyNames" =>
    if later then
      match v with
      | .bool true => .ok none
      | _ => do return some (.propertyNames (← c.schema v))
    else .ok none
  | "dependencies" =>
    match v with
    | .obj entries => do
      return some (.dependencies (← entries.mapM fun (key, d) => do
        return (key, ← dependency c d)))
    | _ => mistyped v [.object]
  | "if" =>
    if c.draft ≠ .draft7 then .ok none
    else do
      let yes ← branch c parent "then"
      let no ← branch c parent "else"
      if yes.isNone ∧ no.isNone then return none
      else return some (.conditional (← c.schema v) yes no)
  | "allOf" => schemaList c .allOf v
  | "anyOf" => schemaList c .anyOf v
  | "oneOf" => schemaList c .oneOf v
  | "not" => do return some (.not (← c.schema v) v)
  | _ => .ok none

end Rule

namespace Schema

/-- The rules of an object of keywords, in their order. A reference stands alone. -/
def ofKeywords (c : Rule.Context) (entries : List (String × Json)) : Except Complaint Schema :=
  match entries.lookup "$ref" with
  | some (.str target) => .ok (.rules [.reference target])
  | some _ => .ok (.rules [])
  | none => do
    let rules ← entries.mapM fun (key, v) => Rule.ofKeyword c entries key v
    return .rules (rules.filterMap id)

/-- Reads a schema that is nested no deeper than `fuel` levels. -/
def read (draft : Draft) : (fuel : Nat) → Json → Except Complaint Schema
  | 0, v => .error (.type v [.object])
  | fuel + 1, v =>
    match v with
    | .bool true => .ok .always
    | .bool false => .ok .never
    | .obj entries => ofKeywords ⟨draft, read draft fuel⟩ entries
    | _ => .error (.type v [.object])

end Schema

mutual
/-- The levels of nesting of a value. -/
def depth : Json → Nat
  | .arr items => depthOfItems items + 1
  | .obj entries => depthOfEntries entries + 1
  | .null | .bool _ | .num _ | .str _ => 1
def depthOfItems : List Json → Nat
  | [] => 0
  | v :: vs => max (depth v) (depthOfItems vs)
def depthOfEntries : List (String × Json) → Nat
  | [] => 0
  | (_, v) :: es => max (depth v) (depthOfEntries es)
end

mutual
/-- The number of values in a value, itself included. -/
def size : Json → Nat
  | .arr items => sizeOfItems items + 1
  | .obj entries => sizeOfEntries entries + 1
  | .null | .bool _ | .num _ | .str _ => 1
def sizeOfItems : List Json → Nat
  | [] => 0
  | v :: vs => size v + sizeOfItems vs
def sizeOfEntries : List (String × Json) → Nat
  | [] => 0
  | (_, v) :: es => size v + sizeOfEntries es
end

def Schema.ofJson (draft : Draft) (v : Json) : Except Complaint Schema :=
  Schema.read draft (depth v + 1) v

end BicepForge.JsonSchema
