import BicepForge.Decimal.Binary64
import BicepForge.Text.Search
import BicepForge.Yaml.Character

/-!
# What plain scalars mean

A scalar without quotes may stand for nothing, a truth value or a number. A text that would is
written with quotes, so that it is read back as a text.
-/

namespace BicepForge.Yaml

/-- The words for nothing. -/
def isNull (s : String) : Bool :=
  ["null", "Null", "NULL", "~"].contains s

/-- The words for truth values. -/
def bool? (s : String) : Option Bool :=
  if ["true", "True", "TRUE"].contains s then some true
  else if ["false", "False", "FALSE"].contains s then some false
  else none

/-! ## Numbers -/

/-- Digits behind a leading zero, which make no number. -/
def isZeroLed (cs : List Char) : Bool :=
  let cs := match cs with
    | '-' :: ds => ds
    | '+' :: ds => ds
    | ds => ds
  match cs with
  | '0' :: d :: ds => (d :: ds).all Char.isDigit
  | _ => false

/-- The number that digits of a base stand for; there must be one. -/
def natOfDigits? (base : Nat) (cs : List Char) : Option Nat :=
  if cs.isEmpty then none
  else cs.foldlM (fun n c => (hexValue? c).bind fun d =>
    if d < base then some (base * n + d) else none) 0

/-- The number behind a sign: decimal, or of the base that a letter after a zero tells. -/
def magnitude? (decimal : Bool) : List Char → Option Nat
  | '0' :: 'x' :: ds => natOfDigits? 16 ds
  | '0' :: 'o' :: ds => natOfDigits? 8 ds
  | '0' :: 'b' :: ds => natOfDigits? 2 ds
  | ds => if decimal then natOfDigits? 10 ds else none

def isInteger (cs : List Char) : Bool :=
  let decimal := !isZeroLed cs
  match cs with
  | '-' :: ds => (magnitude? decimal ds).any (· ≤ twoTo 127)
  | '+' :: ds => (magnitude? decimal ds).any (· < twoTo 128)
  | ds => (magnitude? decimal ds).any (· < twoTo 128)

/-- A decimal: `digits * 10 ^ exponent`. -/
structure Decimal where
  digits : List Char
  exponent : Int

/-- The exponent of a decimal, with its letter. -/
def exponent? : List Char → Option Int
  | [] => some 0
  | e :: ds =>
    if e = 'e' ∨ e = 'E' then
      match ds with
      | '-' :: ds => (natOfDigits? 10 ds).map fun n => -n
      | '+' :: ds => (natOfDigits? 10 ds).map fun n => n
      | ds => (natOfDigits? 10 ds).map fun n => n
    else none

/-- The decimal without a sign that a text is: digits before or behind a point, or both. -/
def decimal? (cs : List Char) : Option Decimal :=
  let whole := cs.takeWhile Char.isDigit
  let rest := cs.dropWhile Char.isDigit
  let (fraction, rest) := match rest with
    | '.' :: ds => (ds.takeWhile Char.isDigit, ds.dropWhile Char.isDigit)
    | ds => ([], ds)
  if whole.isEmpty ∧ fraction.isEmpty then none
  else (exponent? rest).map fun e => ⟨whole ++ fraction, e - fraction.length⟩

/-- Whether a decimal rounds to a number that is not infinite. -/
def Decimal.isFinite (d : Decimal) : Bool :=
  let digits := d.digits.dropWhile (· = '0')
  let size := digits.length + d.exponent
  if digits.isEmpty ∨ size < 300 then true
  else if 310 < size then false
  else
    match natOfDigits? 10 digits with
    | none => false
    | some n =>
      (Binary64.round false (n * tenTo d.exponent.toNat * Binary64.one)
        (tenTo (-d.exponent).toNat)).isSome

def isFloat (cs : List Char) : Bool :=
  let unsigned := match cs with
    | '+' :: ds => ds
    | ds => ds
  let special := String.ofList unsigned
  if [".inf", ".Inf", ".INF"].contains special then true
  else if ["-.inf", "-.Inf", "-.INF", ".nan", ".NaN", ".NAN"].contains (String.ofList cs) then true
  else
    match cs, unsigned with
    | '+' :: _, '-' :: _ => false
    | _, '-' :: ds => (decimal? ds).any Decimal.isFinite
    | _, ds => (decimal? ds).any Decimal.isFinite

/-- Whether a text without quotes stands for something else. -/
def meansOther (s : String) : Bool :=
  let cs := s.toList
  s = "" || isNull s || (bool? s).isSome || isInteger cs || isZeroLed cs || isFloat cs

end BicepForge.Yaml
