import BicepForge.Yaml.Cursor

/-!
# Directives, tags and anchors

The tokens that are made of names and resource identifiers.
-/

namespace BicepForge.Yaml

/-- The name ahead. -/
def nameAhead (c : Cursor) : List Char × Cursor :=
  c.span isNameChar

/-! ## Anchors -/

/-- Whether the name of an anchor may end ahead. -/
def endsAnchor (c : Cursor) : Bool :=
  c.isApartAt 0 || c.rest.head?.any (['?', ':', ',', ']', '\x7d', '%', '@', '`'].contains ·)

/-- The name behind the mark of an anchor or a reference. -/
def anchorName (c : Cursor) : Except YamlError (String × Cursor) :=
  let (name, c) := nameAhead c.skip
  if name.isEmpty ∨ !endsAnchor c then .error .invalidAnchor else .ok (String.ofList name, c)

/-! ## Tags -/

/-- Whether the character may stand in a tag; some only between angle brackets. -/
def isTagChar (bracketed : Bool) (c : Char) : Bool :=
  isNameChar c || ";/?:@&=+$.!~*'()".toList.contains c ||
    (bracketed && (c = ',' || c = '[' || c = ']'))

/-- The length of a UTF-8 sequence, by its first byte. -/
def utf8Length? (byte : Nat) : Option Nat :=
  if byte < 0x80 then some 1
  else if byte < 0xc0 then none
  else if byte < 0xe0 then some 2
  else if byte < 0xf0 then some 3
  else if byte < 0xf8 then some 4
  else none

/-- The byte of an escape: a percent sign and two hexadecimal digits. -/
def escapedByte? : List Char → Option Nat
  | '%' :: a :: b :: _ => hexNumber? [a, b]
  | _ => none
where
  hexNumber? (cs : List Char) : Option Nat :=
    cs.foldlM (fun n c => (hexValue? c).map (16 * n + ·)) 0

def escapedBytes? (rest : List Char) : Option (List Nat) :=
  (escapedByte? rest).bind fun first =>
    (utf8Length? first).bind fun n =>
      ((List.range (n - 1)).mapM fun i =>
        (escapedByte? (rest.drop (3 * (i + 1)))).filter fun b => b / 64 = 2).map (first :: ·)

def textOfBytes (bytes : List Nat) : List Char :=
  ((String.fromUTF8? ⟨(bytes.map UInt8.ofNat).toArray⟩).getD "\ufffd").toList

/-- The characters of a tag, with escapes undone. -/
def tagChars (bracketed : Bool) : (fuel : Nat) → Cursor → Except YamlError (List Char × Cursor)
  | 0, c => .ok ([], c)
  | fuel + 1, c =>
    match c.rest with
    | [] => .ok ([], c)
    | d :: _ =>
      if d = '%' then
        match escapedBytes? c.rest with
        | none => .error .invalidTag
        | some bytes =>
          (tagChars bracketed fuel (c.skip (3 * bytes.length))).map fun (ds, c) =>
            (textOfBytes bytes ++ ds, c)
      else if isTagChar bracketed d then
        (tagChars bracketed fuel c.skip).map fun (ds, c) => (d :: ds, c)
      else .ok ([], c)

/-- The characters of a tag behind what was read of it. -/
def tagRest (bracketed : Bool) (start : List Char) (c : Cursor) :
    Except YamlError (List Char × Cursor) := do
  let (cs, behind) ← tagChars bracketed (c.rest.length + 1) c
  if start.isEmpty ∧ cs.isEmpty then throw .invalidTag
  return (start.drop 1 ++ cs, behind)

/-- A handle: an exclamation mark, or a name between two. Without the second it is the start of a
tag. -/
def tagHandle (c : Cursor) : Except YamlError (List Char × Cursor) :=
  if !c.sees '!' then .error .invalidTag
  else
    let (name, c) := nameAhead c.skip
    if c.sees '!' then .ok ('!' :: name ++ ['!'], c.skip) else .ok ('!' :: name, c)

/-- Whether the characters are a handle with a second exclamation mark. -/
def isFullHandle (handle : List Char) : Bool :=
  1 < handle.length && handle.getLast? = some '!'

def tagToken (flow : Bool) (c : Cursor) : Except YamlError (Token × Cursor) := do
  let (token, c) ←
    if (c.rest.drop 1).head? = some '<' then do
      let (suffix, c) ← tagRest true [] (c.skip 2)
      if !c.sees '>' then throw .invalidTag
      pure (Token.tag "" (String.ofList suffix), c.skip)
    else do
      let (handle, c) ← tagHandle c
      if isFullHandle handle then
        let (suffix, c) ← tagRest false [] c
        pure (Token.tag (String.ofList handle) (String.ofList suffix), c)
      else
        let (suffix, c) ← tagRest false handle c
        pure (if suffix.isEmpty then Token.tag "" "!" else Token.tag "!" (String.ofList suffix), c)
  if c.isApartAt 0 ∨ (flow ∧ c.sees ',') then return (token, c) else throw .invalidTag

/-! ## Directives -/

/-- A part of a version: up to nine digits. -/
def versionNumber (c : Cursor) : Except YamlError (Nat × Cursor) :=
  let (digits, c) := c.span Char.isDigit
  if digits.isEmpty ∨ 9 < digits.length then .error .invalidDirective
  else .ok (digits.foldl (fun n d => 10 * n + (d.toNat - 48)) 0, c)

/-- The version behind the name of its directive. -/
def versionDirective (c : Cursor) : Except YamlError (Token × Cursor) := do
  let (major, c) ← versionNumber (c.span isBlank).2
  if !c.sees '.' then throw .invalidDirective
  let (minor, c) ← versionNumber c.skip
  return (.versionDirective major minor, c)

/-- The handle and what it stands for, behind the name of their directive. -/
def tagDirective (c : Cursor) : Except YamlError (Token × Cursor) := do
  let (handle, c) ← tagHandle (c.span isBlank).2
  if handle ≠ ['!'] ∧ !isFullHandle handle then throw .invalidDirective
  if !c.rest.head?.any isBlank then throw .invalidDirective
  let (start, c) ← tagRest true [] (c.span isBlank).2
  if !c.isApartAt 0 then throw .invalidDirective
  return (.tagDirective (String.ofList handle) (String.ofList start), c)

/-- A directive at its percent sign, with the rest of its line. -/
def directive (c : Cursor) : Except YamlError (Token × Cursor) := do
  let (name, c) := nameAhead c.skip
  if !c.isApartAt 0 then throw .invalidDirective
  let (token, c) ←
    if name = "YAML".toList then versionDirective c
    else if name = "TAG".toList then tagDirective c
    else throw .invalidDirective
  match c.restOfLine? with
  | none => throw .invalidDirective
  | some c => return (token, c)

end BicepForge.Yaml
