import BicepForge.Bicep.Value

/-!
# The grammar of literals

A reader for the literals that values are written as: strings between single quotes, arrays of
scalars on one line, other arrays and objects with a line for each item, truth values, null and
integers. It knows nothing of depths: leading blanks of a line are passed over, and only the
characters tell where a value ends.
-/

namespace BicepForge.Bicep.Literal

/-- The character that is meant by one behind a backslash. -/
def unescaped? : Char → Option Char
  | '\\' => some '\\'
  | '\'' => some '\''
  | 'n' => some '\n'
  | 'r' => some '\r'
  | 't' => some '\t'
  | '$' => some '$'
  | _ => none

/-- A string up to its closing quote, and what stands behind it. A line feed or an open hole is no
part of a literal. -/
def quoted? : List Char → Option (List Char × List Char)
  | [] => none
  | '\'' :: cs => some ([], cs)
  | '\\' :: c :: cs =>
    (unescaped? c).bind fun d => (quoted? cs).map fun (s, rest) => (d :: s, rest)
  | '$' :: '\x7b' :: _ => none
  | '\n' :: _ => none
  | c :: cs => (quoted? cs).map fun (s, rest) => (c :: s, rest)

/-- Decimal digits at the front, at least one. -/
def natural? (cs : List Char) : Option (Nat × List Char) :=
  let digits := cs.takeWhile Char.isDigit
  if digits.isEmpty then none
  else some (Nat.ofDigitChars 10 digits 0, cs.dropWhile Char.isDigit)

def integer? : List Char → Option (Int × List Char)
  | '-' :: cs => (natural? cs).map fun (n, rest) => (-(n : Int), rest)
  | cs => (natural? cs).map fun (n, rest) => ((n : Int), rest)

/-- The values that are written as words. -/
def words : List (List Char × Json) :=
  [("true".toList, .bool true), ("false".toList, .bool false), ("null".toList, .null)]

/-- A value without parts: a string, a word or an integer. -/
def scalar? : List Char → Option (Json × List Char)
  | '\'' :: cs => (quoted? cs).map fun (s, rest) => (.str (String.ofList s), rest)
  | cs =>
    match words.lookup (cs.takeWhile Char.isAlpha) with
    | some v => some (v, cs.dropWhile Char.isAlpha)
    | none => (integer? cs).map fun (i, rest) => (Json.int i, rest)

/-- Scalars with a comma and a blank between them, up to a closing bracket. -/
def row? : (fuel : Nat) → List Char → Option (List Json × List Char)
  | 0, _ => none
  | fuel + 1, cs =>
    match scalar? cs with
    | some (v, ']' :: rest) => some ([v], rest)
    | some (v, ',' :: ' ' :: rest) => (row? fuel rest).map fun (vs, rest) => (v :: vs, rest)
    | _ => none

/-- A key: between quotes, or bare. -/
def key? : List Char → Option (String × List Char)
  | '\'' :: cs => (quoted? cs).map fun (s, rest) => (String.ofList s, rest)
  | cs =>
    let key := String.ofList (cs.takeWhile fun c => c.isAlphanum || c == '_')
    if Value.isIdentifier key then
      some (key, cs.dropWhile fun c => c.isAlphanum || c == '_')
    else none

mutual
/-- A value at the front, and what stands behind it. -/
def value? : (fuel : Nat) → List Char → Option (Json × List Char)
  | 0, _ => none
  | fuel + 1, cs =>
    match cs with
    | '[' :: ']' :: cs => some (.arr [], cs)
    | '[' :: '\n' :: cs => (itemLines? fuel cs).map fun (vs, rest) => (.arr vs, rest)
    | '[' :: cs => (row? fuel cs).map fun (vs, rest) => (.arr vs, rest)
    | '\x7b' :: '\x7d' :: cs => some (.obj [], cs)
    | '\x7b' :: '\n' :: cs => (entryLines? fuel cs).map fun (es, rest) => (.obj es, rest)
    | cs => scalar? cs
/-- Values with a line each, up to a closing bracket. -/
def itemLines? : (fuel : Nat) → List Char → Option (List Json × List Char)
  | 0, _ => none
  | fuel + 1, cs =>
    match cs.dropWhile (· == ' ') with
    | ']' :: rest => some ([], rest)
    | cs =>
      match value? fuel cs with
      | some (v, '\n' :: rest) => (itemLines? fuel rest).map fun (vs, rest) => (v :: vs, rest)
      | _ => none
/-- Keys and values with a line each, up to a closing brace. -/
def entryLines? : (fuel : Nat) → List Char → Option (List (String × Json) × List Char)
  | 0, _ => none
  | fuel + 1, cs =>
    match cs.dropWhile (· == ' ') with
    | '\x7d' :: rest => some ([], rest)
    | cs =>
      match key? cs with
      | some (k, ':' :: ' ' :: rest) =>
        match value? fuel rest with
        | some (v, '\n' :: rest) =>
          (entryLines? fuel rest).map fun (es, rest) => ((k, v) :: es, rest)
        | _ => none
      | _ => none
end

/-- The value that a whole text is a literal of. No step leaves as much text as it is given, so
the length of the text bounds the nesting. -/
def read? (text : String) : Option Json :=
  match value? (text.toList.length + 1) text.toList with
  | some (v, []) => some v
  | _ => none

end BicepForge.Bicep.Literal
