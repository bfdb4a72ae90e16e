import BicepForge.Entries
import BicepForge.Yaml.Token.Lexer

/-!
# YAML documents

The tree of values that a YAML text describes. A reference stands for the value that it names; one
from inside of that value cannot, and stays a loop.
-/

namespace BicepForge.Yaml

inductive Node where
  | scalar (tag? : Option String) (style : ScalarStyle) (text : String)
  | sequence (items : List Node)
  | mapping (entries : List (Node × Node))
  /-- A reference to a collection that holds it. -/
  | loop

namespace Node

def empty : Node :=
  scalar none .plain ""

/-- What is known while a document is read. -/
structure Reading where
  tokens : List Token
  /-- The values that can be referred to, the last one of a name first. -/
  anchors : Entries Node := []
  /-- What the handles of tags stand for. -/
  handles : Entries String := []

abbrev Read := StateT Reading (Except YamlError)

/-- The next token, which stays. -/
def peek : Read (Option Token) := do
  return (← get).tokens.head?

def advance : Read Unit :=
  modify fun r => { r with tokens := r.tokens.drop 1 }

/-- Steps over a token if it is the one. -/
def accept (t : Token) : Read Bool := do
  if (← peek) = some t then
    advance
    return true
  return false

def seesAny (ts : List Token) : Read Bool := do
  return (← peek).any ts.contains

/-- Gives a value a name to refer to. -/
def bind (anchor? : Option String) (n : Node) : Read Unit :=
  match anchor? with
  | none => pure ()
  | some name => modify fun r => { r with anchors := (name, n) :: r.anchors }

/-! ## Properties -/

/-- What stands in front of a value. -/
structure Properties where
  anchor? : Option String := none
  tag? : Option (String × String) := none

/-- The properties ahead: an anchor and a tag in either order. -/
def properties : (fuel : Nat) → Properties → Read Properties
  | 0, p => pure p
  | fuel + 1, p => do
    match ← peek with
    | some (.anchor name) =>
      if p.anchor?.isSome then return p
      advance
      properties fuel { p with anchor? := some name }
    | some (.tag handle suffix) =>
      if p.tag?.isSome then return p
      advance
      properties fuel { p with tag? := some (handle, suffix) }
    | _ => return p

def resolveTag (tag? : Option (String × String)) : Read (Option String) := do
  match tag? with
  | none => return none
  | some ("", suffix) => return some suffix
  | some (handle, suffix) =>
    match (← get).handles.lookup handle with
    | some start => return some (start ++ suffix)
    | none => throw .undefinedHandle

/-- The tag of a scalar; a lone exclamation mark says nothing. -/
def scalarTag? (tag? : Option String) : Option String :=
  tag?.filter fun tag => tag ≠ "" ∧ tag ≠ "!"

/-! ## Values -/

mutual
/-- A value. Block collections are allowed where a block may stand; the entries of a sequence that is
the value of a key need not be indented. -/
def value : (fuel : Nat) → (block unindented : Bool) → Read Node
  | 0, _, _ => throw .tooDeep
  | fuel + 1, block, unindented => do
    if let some (.reference name) ← peek then
      advance
      match (← get).anchors.lookup name with
      | some n => return n
      | none => throw .unknownAnchor
    let p ← properties 2 {}
    let tag? ← resolveTag p.tag?
    let collection {α : Type} (make : List α → Node) (read : Read (List α)) : Read Node := do
      bind p.anchor? loop
      let n := make (← read)
      bind p.anchor? n
      return n
    match ← peek with
    | some (.scalar style text) =>
      advance
      let n := scalar (scalarTag? tag?) style text
      bind p.anchor? n
      return n
    | some .flowSequenceStart =>
      advance
      collection sequence (flowItems fuel true)
    | some .flowMappingStart =>
      advance
      collection mapping (flowEntries fuel true)
    | some .blockEntry =>
      if unindented then collection sequence (unindentedItems fuel)
      else bare p tag?
    | some .blockSequenceStart =>
      if block then
        advance
        collection sequence (blockItems fuel)
      else bare p tag?
    | some .blockMappingStart =>
      if block then
        advance
        collection mapping (blockEntries fuel)
      else bare p tag?
    | _ => bare p tag?
where
  /-- Properties of nothing make an empty value. -/
  bare (p : Properties) (tag? : Option String) : Read Node := do
    if p.anchor?.isNone ∧ tag?.isNone then throw .unexpectedToken
    let n := scalar (scalarTag? tag?) .plain ""
    bind p.anchor? n
    return n
def blockItems : (fuel : Nat) → Read (List Node)
  | 0 => throw .tooDeep
  | fuel + 1 => do
    if ← accept .blockEnd then return []
    if !(← accept .blockEntry) then throw .unexpectedToken
    let item ← if ← seesAny [.blockEntry, .blockEnd] then pure empty else value fuel true false
    return item :: (← blockItems fuel)
/-- The items of a sequence that is not indented. -/
def unindentedItems : (fuel : Nat) → Read (List Node)
  | 0 => throw .tooDeep
  | fuel + 1 => do
    if !(← accept .blockEntry) then return []
    let item ← if ← seesAny [.blockEntry, .key, .value, .blockEnd] then pure empty
      else value fuel true false
    return item :: (← unindentedItems fuel)
def blockEntries : (fuel : Nat) → Read (List (Node × Node))
  | 0 => throw .tooDeep
  | fuel + 1 => do
    if ← accept .blockEnd then return []
    if !(← accept .key) then throw .unexpectedToken
    let k ← blockPart fuel
    let v ← if ← accept .value then blockPart fuel else pure empty
    return (k, v) :: (← blockEntries fuel)
/-- A key or a value of a block mapping. -/
def blockPart : (fuel : Nat) → Read Node
  | 0 => throw .tooDeep
  | fuel + 1 => do
    if ← seesAny [.key, .value, .blockEnd] then return empty
    value fuel true true
def flowItems : (fuel : Nat) → (first : Bool) → Read (List Node)
  | 0, _ => throw .tooDeep
  | fuel + 1, first => do
    if ← accept .flowSequenceEnd then return []
    if !first then
      if !(← accept .flowEntry) then throw .unexpectedToken
      if ← accept .flowSequenceEnd then return []
    let item ← if ← accept .key then singleEntry fuel else value fuel false false
    return item :: (← flowItems fuel false)
/-- A mapping with one entry that stands in a flow sequence without braces. A missing key takes the
colon with it. -/
def singleEntry : (fuel : Nat) → Read Node
  | 0 => throw .tooDeep
  | fuel + 1 => do
    let k ← if ← seesAny [.value, .flowEntry, .flowSequenceEnd] then
        advance
        pure empty
      else value fuel false false
    let v ← if ← accept .value then flowPart fuel .flowSequenceEnd else pure empty
    return mapping [(k, v)]
def flowEntries : (fuel : Nat) → (first : Bool) → Read (List (Node × Node))
  | 0, _ => throw .tooDeep
  | fuel + 1, first => do
    if ← accept .flowMappingEnd then return []
    if !first then
      if !(← accept .flowEntry) then throw .unexpectedToken
      if ← accept .flowMappingEnd then return []
    if ← accept .key then
      let k ← if ← seesAny [.value] then pure empty else flowPart fuel .flowMappingEnd
      let v ← if ← accept .value then flowPart fuel .flowMappingEnd else pure empty
      return (k, v) :: (← flowEntries fuel false)
    else
      let k ← value fuel false false
      return (k, empty) :: (← flowEntries fuel false)
/-- A key or a value inside of brackets that end with a token. -/
def flowPart : (fuel : Nat) → (last : Token) → Read Node
  | 0, _ => throw .tooDeep
  | fuel + 1, last => do
    if ← seesAny [.flowEntry, last] then return empty
    value fuel false false
end

/-! ## Documents -/

/-- The handles that need no directive. -/
def standardHandles : Entries String :=
  [("!", "!"), ("!!", "tag:yaml.org,2002:")]

/-- The directives ahead: one version that is understood, and one meaning for each handle. -/
def directives : (fuel : Nat) → (versioned : Bool) → Read Unit
  | 0, _ => throw .tooDeep
  | fuel + 1, versioned => do
    match ← peek with
    | some (.versionDirective major minor) =>
      if versioned ∨ major ≠ 1 ∨ (minor ≠ 1 ∧ minor ≠ 2) then throw .invalidDirective
      advance
      directives fuel true
    | some (.tagDirective handle start) =>
      if ((← get).handles.lookup handle).isSome then throw .invalidDirective
      advance
      modify fun r => { r with handles := r.handles ++ [(handle, start)] }
      directives fuel versioned
    | _ => modify fun r => { r with handles := r.handles ++ standardHandles }

/-- Whether a token can be the first one of a document that is not announced. -/
def beginsBare : Token → Bool
  | .versionDirective .. | .tagDirective .. | .documentStart => false
  | _ => true

/-- The only document of a stream; none where the stream is empty. -/
def document (fuel : Nat) : Read (Option Node) := do
  match ← peek with
  | none => return none
  | some t =>
    if beginsBare t then
      directives 1 false
      let n ← value fuel true false
      finish
      return some n
    else
      directives fuel false
      if !(← accept .documentStart) then throw .unexpectedToken
      let n ← match ← peek with
        | none | some .documentStart | some .documentEnd => pure empty
        | some t => if beginsBare t then value fuel true false else pure empty
      finish
      return some n
where
  /-- Nothing but marks of the end may follow a document. -/
  finish : Read Unit := do
    modify fun r => { r with tokens := r.tokens.dropWhile (· = .documentEnd) }
    if (← peek).isSome then throw .severalDocuments

/-- The document of a text with at most one. -/
def ofText? (text : String) : Except YamlError (Option Node) := do
  let tokens ← Token.ofText text
  let (n, _) ← (document (6 * tokens.length + 6)).run { tokens }
  return n

end Node

end BicepForge.Yaml
