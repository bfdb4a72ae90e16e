import BicepForge.Json.Basic
import BicepForge.Decimal.Shortest

/-!
# Printing JSON

Two layouts: compact, without any blanks, and pretty, with two blanks per level. Strings escape
only what they must, and floating point numbers are their shortest decimals.
-/

namespace BicepForge

namespace Decimal

/-- Plain notation, always with a point. -/
def positional (d : Decimal) : String :=
  let digits := Nat.toDigits 10 d.digits
  let zeros (n : Nat) := List.replicate n '0'
  String.ofList <|
    if 0 ≤ d.exponent then digits ++ zeros d.exponent.toNat ++ ['.', '0']
    else
      let places := (-d.exponent).toNat
      if places < digits.length then
        digits.take (digits.length - places) ++ '.' :: digits.drop (digits.length - places)
      else '0' :: '.' :: zeros (places - digits.length) ++ digits

/-- One digit before the point and a signed power of ten behind it. -/
def scientific (d : Decimal) : String :=
  let digits := Nat.toDigits 10 d.digits
  let power := d.exponent + (digits.length - 1 : Int)
  let fraction := match digits.tail with
    | [] => []
    | more => '.' :: more
  String.ofList (digits.take 1 ++ fraction) ++ "e" ++ (if power < 0 then "-" else "+") ++
    toString power.natAbs

end Decimal

namespace Number

/-- The powers of ten of the first digit that are written in plain notation. -/
def plainLow : Int := -5
def plainHigh : Int := 15

/-- The shortest decimal of a float: plain from `10 ^ -5` up to `10 ^ 15`, scientific beyond. -/
def floatText (x : Binary64) : String :=
  let d := x.shortest
  let power := d.exponent + ((Nat.toDigits 10 d.digits).length - 1 : Int)
  (if x.negative then "-" else "") ++
    if plainLow ≤ power ∧ power ≤ plainHigh then d.positional else d.scientific

def text : Number → String
  | int i => toString i
  | float x => floatText x

end Number

namespace Json

/-- How one character stands inside a string literal. -/
def escapeChar (c : Char) : List Char :=
  if c = '"' then ['\\', '"']
  else if c = '\\' then ['\\', '\\']
  else if c = '\x08' then ['\\', 'b']
  else if c = '\x0c' then ['\\', 'f']
  else if c = '\n' then ['\\', 'n']
  else if c = '\r' then ['\\', 'r']
  else if c = '\t' then ['\\', 't']
  else if c.toNat < 0x20 then
    ['\\', 'u', '0', '0', Nat.digitChar (c.toNat / 16), Nat.digitChar (c.toNat % 16)]
  else [c]

def quoted (s : String) : String :=
  "\"" ++ String.ofList (s.toList.flatMap escapeChar) ++ "\""

mutual
/-- The value on one line, without blanks. -/
def compact : Json → String
  | null => "null"
  | bool b => if b then "true" else "false"
  | num n => n.text
  | str s => quoted s
  | arr items => "[" ++ String.intercalate "," (compactItems items) ++ "]"
  | obj entries => "\x7b" ++ String.intercalate "," (compactEntries entries) ++ "\x7d"
def compactItems : List Json → List String
  | [] => []
  | v :: vs => compact v :: compactItems vs
def compactEntries : List (String × Json) → List String
  | [] => []
  | (k, v) :: es => (quoted k ++ ":" ++ compact v) :: compactEntries es
end

/-- A line feed and the blanks of a level. -/
def newLine (level : Nat) : String :=
  "\n" ++ String.ofList (List.replicate (2 * level) ' ')

mutual
/-- The value with one entry a line, as it stands at a level. -/
def prettyAt (level : Nat) : Json → String
  | null => "null"
  | bool b => if b then "true" else "false"
  | num n => n.text
  | str s => quoted s
  | arr [] => "[]"
  | arr (v :: vs) =>
    "[" ++ newLine (level + 1) ++ prettyAt (level + 1) v ++ prettyItems level vs
  | obj [] => "\x7b\x7d"
  | obj ((k, v) :: es) =>
    "\x7b" ++ newLine (level + 1) ++ quoted k ++ ": " ++ prettyAt (level + 1) v ++
      prettyEntries level es
def prettyItems (level : Nat) : List Json → String
  | [] => newLine level ++ "]"
  | v :: vs => "," ++ newLine (level + 1) ++ prettyAt (level + 1) v ++ prettyItems level vs
def prettyEntries (level : Nat) : List (String × Json) → String
  | [] => newLine level ++ "\x7d"
  | (k, v) :: es =>
    "," ++ newLine (level + 1) ++ quoted k ++ ": " ++ prettyAt (level + 1) v ++
      prettyEntries level es
end

/-- The value with one entry a line and two blanks per level. -/
def pretty (v : Json) : String :=
  prettyAt 0 v

end Json

end BicepForge
