import BicepForge.Instant
import BicepForge.JsonSchema.Regex
import BicepForge.JsonSchema.Uri
import BicepForge.Text.Blank

/-!
# String formats

The named formats that strings are held to. A format that is not among them asks nothing.
-/

namespace BicepForge.JsonSchema

/-- A format that strings are held to. -/
inductive Format where
  | date
  | email
  | ipv4
  | regex
  | uri
  | uriReference
deriving DecidableEq, Repr

namespace Format

def ofName? : String → Option Format
  | "date" => some date
  | "email" | "idn-email" => some email
  | "ipv4" => some ipv4
  | "regex" => some regex
  | "uri" | "iri" => some uri
  | "uri-reference" | "iri-reference" => some uriReference
  | _ => none

/-- Whether a text is a date of the calendar; its year may have a sign. -/
def isDate (s : String) : Bool :=
  let cs := match s.toList with
    | '+' :: cs => cs
    | '-' :: cs => cs
    | cs => cs
  let parsed := do
    let (year, cs) ← Instant.digits? 4 cs
    let cs ← Instant.expect? ['-'] cs
    let (month, cs) ← Instant.digits? 2 cs
    let cs ← Instant.expect? ['-'] cs
    let (day, cs) ← Instant.digits? 2 cs
    some (year, month, day, cs)
  match parsed with
  | some (year, month, day, []) =>
    Instant.civilDate (Instant.dayNumber year month day) == ((year : Int), month, day)
  | _ => false

/-- Whether a text is one of the four numbers of an address. -/
def isOctet (cs : List Char) : Bool :=
  match cs with
  | [] => false
  | ['0'] => true
  | '0' :: _ => false
  | cs => cs.all Char.isDigit && cs.length ≤ 3 &&
      cs.foldl (fun n c => n * 10 + (c.toNat - 48)) 0 ≤ 255

/-- Whether a text is an address of four numbers, the first of which is not zero. -/
def isIpv4 (s : String) : Bool :=
  let parts := Uri.labels s.toList
  s.toList.head? != some '0' && parts.length == 4 && parts.all isOctet

/-- Whether a text may stand where an address is referred to: no blanks and no backslashes. -/
def isUriReference (s : String) : Bool :=
  s.toList.all fun c => c != '\\' && !Text.isBlank c

def admits (f : Format) (s : String) : Bool :=
  match f with
  | date => isDate s
  | email => s.toList.contains '@'
  | ipv4 => isIpv4 s
  | regex => (Regex.parse? s).isSome
  | uri => Uri.isAbsolute s
  | uriReference => isUriReference s

end Format

end BicepForge.JsonSchema
