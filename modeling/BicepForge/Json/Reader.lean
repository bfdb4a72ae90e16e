import BicepForge.Json.Basic

/-!
# Reading JSON

A reader over characters that says what went wrong and where. The grammar functions know nothing
of lines: a refusal names its cause, the text that was left and how many bytes of it had been
looked at, and `Json.parse` turns that into a line and a column. Columns count bytes.

Floating point literals follow the quick rule rather than the exact one: the digits that fit into
64 bits are rounded to a float, which is then multiplied or divided by a power of ten.
-/

namespace BicepForge

/-- Why a text is not a JSON value. -/
inductive JsonFault where
  | endInValue
  | endInList
  | endInObject
  | endInString
  | expectedValue
  | expectedIdent
  | expectedColon
  | expectedListCommaOrEnd
  | expectedObjectCommaOrEnd
  | trailingComma
  | keyMustBeString
  | trailingCharacters
  | controlCharacter
  | invalidEscape
  | loneSurrogate
  | endOfHexEscape
  | invalidNumber
  | numberOutOfRange
  | tooDeep
deriving DecidableEq, Repr

def JsonFault.message : JsonFault → String
  | endInValue => "EOF while parsing a value"
  | endInList => "EOF while parsing a list"
  | endInObject => "EOF while parsing an object"
  | endInString => "EOF while parsing a string"
  | expectedValue => "expected value"
  | expectedIdent => "expected ident"
  | expectedColon => "expected `:`"
  | expectedListCommaOrEnd => "expected `,` or `]`"
  | expectedObjectCommaOrEnd => "expected `,` or `\x7d`"
  | trailingComma => "trailing comma"
  | keyMustBeString => "key must be a string"
  | trailingCharacters => "trailing characters"
  | controlCharacter => "control character (\\u0000-\\u001F) found while parsing a string"
  | invalidEscape => "invalid escape"
  | loneSurrogate => "lone leading surrogate in hex escape"
  | endOfHexEscape => "unexpected end of hex escape"
  | invalidNumber => "invalid number"
  | numberOutOfRange => "number out of range"
  | tooDeep => "recursion limit exceeded"

/-- A fault and its place. -/
structure JsonError where
  fault : JsonFault
  line : Nat
  column : Nat
deriving DecidableEq, Repr

def JsonError.message (e : JsonError) : String :=
  e.fault.message ++ " at line " ++ toString e.line ++ " column " ++ toString e.column

namespace Json

namespace Reader

/-- A refusal: the fault, the text that was left, and the bytes of it that had been looked at. -/
structure Stop where
  fault : JsonFault
  rest : List Char
  ahead : Nat

/-- A result, mostly together with the text behind it, or a refusal. -/
abbrev Step := Except Stop

/-- A refusal at the place reached. -/
def stop {α : Type} (fault : JsonFault) (rest : List Char) : Step (α × List Char) :=
  .error ⟨fault, rest, 0⟩

/-- A refusal just behind the next byte. -/
def stopAhead {α : Type} (fault : JsonFault) (rest : List Char) : Step (α × List Char) :=
  .error ⟨fault, rest, 1⟩

/-- The four characters that may stand between tokens. -/
def isSpace (c : Char) : Bool :=
  c = ' ' || c = '\n' || c = '\t' || c = '\r'

def skip (s : List Char) : List Char :=
  s.dropWhile isSpace

/-- The rest of `null`, `true` or `false`. -/
def word {α : Type} (value : α) : List Char → List Char → Step (α × List Char)
  | [], rest => .ok (value, rest)
  | _ :: _, [] => stop .endInValue []
  | c :: cs, d :: ds => if c = d then word value cs ds else stopAhead .expectedIdent (d :: ds)

/-! ## Numbers -/

def digit? (c : Char) : Option Nat :=
  if c.isDigit then some (c.toNat - 48) else none

/-- The greatest significand that is kept exactly. -/
def maxSignificand : Nat := twoTo 64 - 1

/-- The greatest power of ten that is a float. -/
def maxPower : Nat := 308

/-- `10 ^ n` as a float, for the powers that are one. -/
def powerOfTen (n : Nat) : Binary64 :=
  (Binary64.ofNat? false (tenTo n)).getD (Binary64.zero false)

/-- Divides by `10 ^ 308` until the exponent is in reach, then scales by what is left. -/
def scale (f : Binary64) (exponent : Int) : (fuel : Nat) → Option Binary64
  | 0 => some f
  | fuel + 1 =>
    if exponent.natAbs ≤ maxPower then
      if 0 ≤ exponent then f.mul? (powerOfTen exponent.natAbs)
      else f.div? (powerOfTen exponent.natAbs)
    else if f.magnitude = 0 then some f
    else if 0 ≤ exponent then none
    else
      match f.div? (powerOfTen maxPower) with
      | none => none
      | some g => scale g (exponent + maxPower) fuel

/-- The float `± significand * 10 ^ exponent`; three divisions by `10 ^ 308` reach zero. -/
def assemble (negative : Bool) (significand : Nat) (exponent : Int) (rest : List Char) :
    Step (Number × List Char) :=
  match (Binary64.ofNat? false significand).bind fun f => scale f exponent 8 with
  | none => stop .numberOutOfRange rest
  | some f => .ok (.float (if negative then f.neg else f), rest)

/-- The digits of an exponent; one that leaves 32 bits is as good as infinite. -/
def exponentDigits (negative : Bool) (significand : Nat) (start : Int) (down : Bool) (value : Nat) :
    List Char → Step (Number × List Char)
  | [] => assemble negative significand (if down then start - value else start + value) []
  | c :: cs =>
    match digit? c with
    | none => assemble negative significand (if down then start - value else start + value) (c :: cs)
    | some d =>
      if twoTo 31 - 1 < value * 10 + d then
        if significand ≠ 0 ∧ !down then stop .numberOutOfRange cs
        else .ok (.float (Binary64.zero negative), cs.dropWhile Char.isDigit)
      else exponentDigits negative significand start down (value * 10 + d) cs

/-- What follows the `e` of a number. -/
def exponentPart (negative : Bool) (significand : Nat) (start : Int) (s : List Char) :
    Step (Number × List Char) :=
  let (down, digits) := match s with
    | '+' :: cs => (false, cs)
    | '-' :: cs => (true, cs)
    | cs => (false, cs)
  match digits with
  | [] => stop .endInValue []
  | c :: cs =>
    match digit? c with
    | none => stopAhead .invalidNumber (c :: cs)
    | some d => exponentDigits negative significand start down d cs

/-- What follows the kept digits of a fraction: perhaps an exponent. -/
def afterFraction (negative : Bool) (significand : Nat) (exponent : Int) : List Char → Step (Number × List Char)
  | 'e' :: cs => exponentPart negative significand exponent cs
  | 'E' :: cs => exponentPart negative significand exponent cs
  | cs => assemble negative significand exponent cs

/-- The digits behind the point; those that no longer fit are ignored. -/
def fraction (negative : Bool) (significand : Nat) (before : Int) (taken : Nat) :
    List Char → Step (Number × List Char)
  | [] => if taken = 0 then stop .endInValue [] else assemble negative significand (before - taken) []
  | c :: cs =>
    match digit? c with
    | none =>
      if taken = 0 then stopAhead .invalidNumber (c :: cs)
      else afterFraction negative significand (before - taken) (c :: cs)
    | some d =>
      if maxSignificand < significand * 10 + d then
        afterFraction negative significand (before - taken) ((c :: cs).dropWhile Char.isDigit)
      else fraction negative (significand * 10 + d) before (taken + 1) cs

/-- The digits of an integer part beyond 64 bits, which are only counted. -/
def longInteger (negative : Bool) (significand dropped : Nat) : List Char → Step (Number × List Char)
  | '.' :: cs => fraction negative significand dropped 0 cs
  | 'e' :: cs => exponentPart negative significand dropped cs
  | 'E' :: cs => exponentPart negative significand dropped cs
  | c :: cs =>
    if c.isDigit then longInteger negative significand (dropped + 1) cs
    else assemble negative significand dropped (c :: cs)
  | [] => assemble negative significand dropped []

/-- An integer literal; minus zero and what lies below 64 bits is a float. -/
def integer (negative : Bool) (significand : Nat) : Number :=
  if !negative then .int significand
  else if 0 < significand ∧ significand ≤ twoTo 63 then .int (-significand)
  else .float (((Binary64.ofNat? true significand)).getD (Binary64.zero true))

def afterInteger (negative : Bool) (significand : Nat) : List Char → Step (Number × List Char)
  | '.' :: cs => fraction negative significand 0 0 cs
  | 'e' :: cs => exponentPart negative significand 0 cs
  | 'E' :: cs => exponentPart negative significand 0 cs
  | cs => .ok (integer negative significand, cs)

/-- The digits of an integer part after the first. -/
def integerDigits (negative : Bool) (significand : Nat) : List Char → Step (Number × List Char)
  | [] => afterInteger negative significand []
  | c :: cs =>
    match digit? c with
    | none => afterInteger negative significand (c :: cs)
    | some d =>
      if maxSignificand < significand * 10 + d then longInteger negative significand 0 (c :: cs)
      else integerDigits negative (significand * 10 + d) cs

/-- A number without its sign; no digit may follow a leading zero. -/
def number (negative : Bool) : List Char → Step (Number × List Char)
  | [] => stop .endInValue []
  | '0' :: c :: cs =>
    if c.isDigit then stopAhead .invalidNumber (c :: cs) else afterInteger negative 0 (c :: cs)
  | c :: cs =>
    match digit? c with
    | none => stopAhead .invalidNumber (c :: cs)
    | some d => integerDigits negative d cs

/-! ## Strings -/

def hexDigit? (c : Char) : Option Nat :=
  if c.isDigit then some (c.toNat - 48)
  else if 'a' ≤ c ∧ c ≤ 'f' then some (c.toNat - 87)
  else if 'A' ≤ c ∧ c ≤ 'F' then some (c.toNat - 55)
  else none

def byteCount (s : List Char) : Nat :=
  s.foldl (fun n c => n + c.utf8Size) 0

/-- Four hexadecimal digits. A refusal has looked at four bytes, which may end inside a
character. -/
def hexEscape (s : List Char) : Step (Nat × List Char) :=
  let invalid : Step (Nat × List Char) :=
    if byteCount s < 4 then stop .endInString [] else .error ⟨.invalidEscape, s, 4⟩
  match s with
  | a :: b :: c :: d :: rest =>
    match hexDigit? a, hexDigit? b, hexDigit? c, hexDigit? d with
    | some a, some b, some c, some d => .ok (((a * 16 + b) * 16 + c) * 16 + d, rest)
    | _, _, _, _ => invalid
  | _ => invalid

/-- What follows `\u`. A leading surrogate must be followed by the escape of a trailing one. -/
def unicodeEscape (s : List Char) : Step (Char × List Char) := do
  let (high, rest) ← hexEscape s
  if 0xDC00 ≤ high ∧ high ≤ 0xDFFF then stop .loneSurrogate rest
  else if high < 0xD800 ∨ 0xDBFF < high then .ok (Char.ofNat high, rest)
  else
    match rest with
    | [] => stop .endInString []
    | '\\' :: [] => stop .endInString []
    | '\\' :: 'u' :: rest => do
      let (low, rest) ← hexEscape rest
      if low < 0xDC00 ∨ 0xDFFF < low then stop .loneSurrogate rest
      else .ok (Char.ofNat (0x10000 + (high - 0xD800) * 0x400 + (low - 0xDC00)), rest)
    | '\\' :: rest => stopAhead .endOfHexEscape rest
    | rest => stopAhead .endOfHexEscape rest

def escape : List Char → Step (Char × List Char)
  | [] => stop .endInString []
  | '"' :: cs => .ok ('"', cs)
  | '\\' :: cs => .ok ('\\', cs)
  | '/' :: cs => .ok ('/', cs)
  | 'b' :: cs => .ok ('\x08', cs)
  | 'f' :: cs => .ok ('\x0c', cs)
  | 'n' :: cs => .ok ('\n', cs)
  | 'r' :: cs => .ok ('\r', cs)
  | 't' :: cs => .ok ('\t', cs)
  | 'u' :: cs => unicodeEscape cs
  | c :: cs => stopAhead .invalidEscape (c :: cs)

/-- The characters of a string up to its closing quote; every step takes at least one. -/
def stringBody : (fuel : Nat) → List Char → Step (List Char × List Char)
  | 0, rest => stop .endInString rest
  | _ + 1, [] => stop .endInString []
  | fuel + 1, c :: cs =>
    if c = '"' then .ok ([], cs)
    else if c = '\\' then do
      let (d, rest) ← escape cs
      let (ds, rest) ← stringBody fuel rest
      .ok (d :: ds, rest)
    else if c.toNat < 0x20 then stopAhead .controlCharacter (c :: cs)
    else do
      let (ds, rest) ← stringBody fuel cs
      .ok (c :: ds, rest)

def string (s : List Char) : Step (String × List Char) := do
  let (cs, rest) ← stringBody (s.length + 1) s
  .ok (String.ofList cs, rest)

/-! ## Values -/

mutual
/-- A value, with the levels of nesting that are still allowed. -/
def value : (fuel depth : Nat) → List Char → Step (Json × List Char)
  | 0, _, rest => stop .tooDeep rest
  | fuel + 1, depth, s =>
    match skip s with
    | [] => stopAhead .endInValue []
    | 'n' :: cs => word null ['u', 'l', 'l'] cs
    | 't' :: cs => word (bool true) ['r', 'u', 'e'] cs
    | 'f' :: cs => word (bool false) ['a', 'l', 's', 'e'] cs
    | '"' :: cs => do
      let (text, rest) ← string cs
      .ok (str text, rest)
    | '-' :: cs => do
      let (n, rest) ← number true cs
      .ok (num n, rest)
    | '[' :: cs =>
      if depth ≤ 1 then stopAhead .tooDeep ('[' :: cs)
      else
        match skip cs with
        | [] => stopAhead .endInList []
        | ']' :: rest => .ok (arr [], rest)
        | rest => do
          let (items, rest) ← items fuel (depth - 1) rest
          .ok (arr items, rest)
    | '\x7b' :: cs =>
      if depth ≤ 1 then stopAhead .tooDeep ('\x7b' :: cs)
      else
        match skip cs with
        | [] => stopAhead .endInObject []
        | '\x7d' :: rest => .ok (obj [], rest)
        | rest => do
          let (entries, rest) ← entries fuel (depth - 1) [] rest
          .ok (obj entries, rest)
    | c :: cs =>
      if c.isDigit then do
        let (n, rest) ← number false (c :: cs)
        .ok (num n, rest)
      else stopAhead .expectedValue (c :: cs)
/-- An item and those after it, with the closing bracket. -/
def items : (fuel depth : Nat) → List Char → Step (List Json × List Char)
  | 0, _, rest => stop .tooDeep rest
  | fuel + 1, depth, s => do
    let (v, rest) ← value fuel depth s
    match skip rest with
    | [] => stopAhead .endInList []
    | ']' :: rest => .ok ([v], rest)
    | ',' :: rest =>
      match skip rest with
      | [] => stopAhead .endInValue []
      | ']' :: rest => stopAhead .trailingComma (']' :: rest)
      | rest => do
        let (vs, rest) ← items fuel depth rest
        .ok (v :: vs, rest)
    | rest => stopAhead .expectedListCommaOrEnd rest
/-- An entry and those after it, with the closing brace, put behind the entries so far. -/
def entries : (fuel depth : Nat) → List (String × Json) → List Char → Step (List (String × Json) × List Char)
  | 0, _, _, rest => stop .tooDeep rest
  | fuel + 1, depth, before, s =>
    match s with
    | '"' :: cs => do
      let (key, rest) ← string cs
      match skip rest with
      | [] => stopAhead .endInObject []
      | ':' :: rest => do
        let (v, rest) ← value fuel depth rest
        match skip rest with
        | [] => stopAhead .endInObject []
        | '\x7d' :: rest => .ok (Entries.put key v before, rest)
        | ',' :: rest =>
          match skip rest with
          | [] => stopAhead .endInValue []
          | '\x7d' :: rest => stopAhead .trailingComma ('\x7d' :: rest)
          | rest => entries fuel depth (Entries.put key v before) rest
        | rest => stopAhead .expectedObjectCommaOrEnd rest
      | rest => stopAhead .expectedColon rest
    | rest => stopAhead .keyMustBeString rest
end

/-- The levels of nesting below which arrays and objects are read. -/
def maxDepth : Nat := 128

/-- A value, and the text behind it. Between two characters there are at most two steps, one to a
value and one to the items or entries it stands among, so the steps suffice. -/
def leadingValue (s : List Char) : Step (Json × List Char) :=
  value (2 * s.length + 1) maxDepth s

/-- A value that is the whole text, space at its ends apart. -/
def document (s : List Char) : Except Stop Json :=
  match leadingValue s with
  | .error e => .error e
  | .ok (v, rest) =>
    match skip rest with
    | [] => .ok v
    | rest => .error ⟨.trailingCharacters, rest, 1⟩

/-- The line and column of a byte: columns count the bytes since the last line feed. -/
def placeAt (bytes : Nat) (line column : Nat) : List Char → Nat × Nat
  | [] => (line, column)
  | c :: cs =>
    if bytes < c.utf8Size then (line, column + bytes)
    else if c = '\n' then placeAt (bytes - 1) (line + 1) 0 cs
    else placeAt (bytes - c.utf8Size) line (column + c.utf8Size) cs

/-- The place of a refusal in the whole text. -/
def Stop.toError (whole : List Char) (e : Stop) : JsonError :=
  let (line, column) := placeAt (byteCount whole - byteCount e.rest + e.ahead) 1 0 whole
  ⟨e.fault, line, column⟩

end Reader

def parse (text : String) : Except JsonError Json :=
  match Reader.document text.toList with
  | .ok v => .ok v
  | .error e => .error (e.toError text.toList)

/-! ## Reading objects -/

/-- Why a text is not a JSON object. -/
inductive NoObject where
  | malformed (error : JsonError)
  /-- The text begins with another value, or with the bracket of a list, and this is the place
  where that is known. -/
  | other (found : Json) (line column : Nat)
deriving DecidableEq

namespace Reader

/-- The value of another kind that a text begins with, and what follows it. A list is known by its
bracket. -/
def otherValue (s : List Char) : Step (Json × List Char) :=
  match skip s with
  | '[' :: rest => .ok (arr [], '[' :: rest)
  | s => leadingValue s

end Reader

def parseObject (text : String) : Except NoObject (List (String × Json)) :=
  let cs := text.toList
  let malformed (e : Reader.Stop) : NoObject := .malformed (e.toError cs)
  if (Reader.skip cs).head? = some '\x7b' then
    match Reader.document cs with
    | .ok (.obj entries) => .ok entries
    | .ok _ => .ok []
    | .error e => .error (malformed e)
  else
    match Reader.otherValue cs with
    | .error e => .error (malformed e)
    | .ok (found, rest) =>
      let (line, column) := Reader.placeAt (Reader.byteCount cs - Reader.byteCount rest) 1 0 cs
      .error (.other found line column)

end Json

end BicepForge
