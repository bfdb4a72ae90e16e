import BicepForge.Json.Reader

/-!
# Absolute addresses

Which texts are absolute URLs: a scheme, and for the schemes of the web a host that can be one.
-/

namespace BicepForge.JsonSchema

/-- Why a text is not an absolute URL. -/
inductive UriFault where
  | relative
  | emptyHost
  | badPort
  | badIpv4
  | badIpv6
  | badDomain
deriving DecidableEq, Repr

def UriFault.message : UriFault → String
  | relative => "relative URL without a base"
  | emptyHost => "empty host"
  | badPort => "invalid port number"
  | badIpv4 => "invalid IPv4 address"
  | badIpv6 => "invalid IPv6 address"
  | badDomain => "invalid domain character"

namespace Uri

def scheme? (cs : List Char) : Option (List Char × List Char) :=
  match cs with
  | [] => none
  | c :: _ =>
    if c.isAlpha then
      let name := cs.takeWhile fun d => d.isAlphanum || d == '+' || d == '-' || d == '.'
      match cs.drop name.length with
      | ':' :: rest => some (name.map Char.toLower, rest)
      | _ => none
    else none

/-- The schemes whose addresses must name a host. -/
def hostSchemes : List String := ["http", "https", "ws", "wss", "ftp"]

/-- Characters that no domain may hold. -/
def isForbiddenInDomain (c : Char) : Bool :=
  c.toNat ≤ 0x20 || c.toNat == 0x7F || "#%/:<>?@[\\]^|".toList.contains c

/-- The pieces between dots. -/
def labels (cs : List Char) : List (List Char) :=
  cs.foldr (fun c pieces =>
    match pieces with
    | [] => [[c]]
    | piece :: rest => if c = '.' then [] :: piece :: rest else (c :: piece) :: rest) [[]]

/-- A part of a numeric host: decimal, octal with a leading zero, or hexadecimal. -/
def hostNumber? (cs : List Char) : Option Nat :=
  match cs with
  | '0' :: x :: digits =>
    if x = 'x' ∨ x = 'X' then
      digits.foldlM (fun n c => (Json.Reader.hexDigit? c).map (n * 16 + ·)) 0
    else (x :: digits).foldlM
      (fun n c => if '0' ≤ c ∧ c ≤ '7' then some (n * 8 + (c.toNat - 48)) else none) 0
  | [] => none
  | digits => digits.foldlM (fun n c => (Json.Reader.digit? c).map (n * 10 + ·)) 0

/-- The parts of a host that could be numeric, without an empty one at the end. -/
def hostParts (cs : List Char) : List (List Char) :=
  let parts := labels cs
  if parts.length > 1 ∧ parts.getLast? = some [] then parts.dropLast else parts

/-- Whether a host must be numeric because its last part is a number. -/
def endsInNumber (cs : List Char) : Bool :=
  match (hostParts cs).getLast? with
  | none | some [] => false
  | some last => last.all Char.isDigit || (hostNumber? last).isSome

/-- Whether a numeric host has at most four parts, each in its range. -/
def isIpv4 (cs : List Char) : Bool :=
  let parts := hostParts cs
  match parts.mapM hostNumber? with
  | none => false
  | some numbers =>
    numbers.length ≤ 4 && numbers.dropLast.all (· ≤ 255) &&
      (numbers.getLast?).all (· < twoTo (8 * (5 - numbers.length)))

def ipv6Groups (cs : List Char) : List (List Char) :=
  cs.foldr (fun c pieces =>
    match pieces with
    | [] => [[c]]
    | piece :: rest => if c = ':' then [] :: piece :: rest else (c :: piece) :: rest) [[]]

/-- Whether the text between brackets is an IPv6 address: eight groups of hexadecimal digits, or
fewer where a double colon stands for zeros. -/
def isIpv6 (cs : List Char) : Bool :=
  let groups := ipv6Groups cs
  let inner := if groups.head? = some [] then groups.drop 1 else groups
  let inner := if inner.getLast? = some [] then inner.dropLast else inner
  let full := inner.filter fun g => !g.isEmpty
  let gaps := (groups.length - full.length)
  full.all (fun g => g.length ≤ 4 && g.all fun c => (Json.Reader.hexDigit? c).isSome) &&
    (if gaps = 0 then full.length == 8
      else [':', ':'].isPrefixOf cs || [':', ':'].isSuffixOf cs || inner.length - full.length == 1)
      && full.length ≤ 8

def checkHost (cs : List Char) : Except UriFault Unit :=
  match cs with
  | [] => .error .emptyHost
  | '[' :: rest =>
    if rest.getLast? = some ']' ∧ isIpv6 rest.dropLast then .ok () else .error .badIpv6
  | cs =>
    if cs.any isForbiddenInDomain then .error .badDomain
    else if endsInNumber cs ∧ !isIpv4 cs then .error .badIpv4
    else .ok ()

/-- Checks the number after the host's colon, which may be missing. -/
def checkPort (cs : List Char) : Except UriFault Unit :=
  if cs.all Char.isDigit ∧ cs.foldl (fun n c => n * 10 + (c.toNat - 48)) 0 ≤ 65535 then .ok ()
  else .error .badPort

/-- The host of an authority without its user, and the digits after its colon. -/
def hostAndPort (cs : List Char) : List Char × List Char :=
  match cs with
  | '[' :: _ =>
    let host := cs.takeWhile (· != ']') ++ (cs.dropWhile (· != ']')).take 1
    (host, (cs.drop host.length).drop 1)
  | cs => (cs.takeWhile (· != ':'), (cs.dropWhile (· != ':')).drop 1)

/-- What follows the last `@`. -/
def withoutUser (cs : List Char) : List Char :=
  if '@' ∈ cs then (cs.reverse.takeWhile (· != '@')).reverse else cs

def checkAuthority (cs : List Char) : Except UriFault Unit := do
  let authority := cs.takeWhile fun c => c != '/' && c != '\\' && c != '?' && c != '#'
  let (host, digits) := hostAndPort (withoutUser authority)
  checkHost host
  checkPort digits

/-- The text without what readers of addresses ignore: controls and blanks at its ends, line feeds
and tabs anywhere. -/
def cleaned (s : String) : List Char :=
  let noise (c : Char) : Bool := c.toNat ≤ 0x20
  let cs := ((s.toList.dropWhile noise).reverse.dropWhile noise).reverse
  cs.filter fun c => c != '\t' && c != '\n' && c != '\r'

def check (s : String) : Except UriFault Unit :=
  match scheme? (cleaned s) with
  | none => .error .relative
  | some (scheme, rest) =>
    if hostSchemes.contains (String.ofList scheme) then
      checkAuthority (rest.dropWhile fun c => c == '/' || c == '\\')
    else .ok ()

def isAbsolute (s : String) : Bool :=
  match check s with
  | .ok _ => true
  | .error _ => false

end Uri

end BicepForge.JsonSchema
