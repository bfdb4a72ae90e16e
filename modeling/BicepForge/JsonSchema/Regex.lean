/-!
# Regular expressions

Expressions over characters and their meaning as a search: `ends` maps the positions where an
expression may begin to those where it may end, so that a repetition is a closure of positions and
always comes to an end.
-/

namespace BicepForge.JsonSchema

/-- A part of a character class. -/
inductive ClassItem where
  | range (first last : Nat)
  /-- Every character outside of the ranges. -/
  | outside (ranges : List (Nat × Nat))
deriving DecidableEq, Repr

/-- A set of characters. -/
structure CharClass where
  negated : Bool := false
  items : List ClassItem
deriving DecidableEq, Repr

namespace CharClass

def within (ranges : List (Nat × Nat)) (code : Nat) : Bool :=
  ranges.any fun r => r.1 ≤ code && code ≤ r.2

def itemHas (code : Nat) : ClassItem → Bool
  | .range first last => first ≤ code && code ≤ last
  | .outside ranges => !within ranges code

def has (k : CharClass) (c : Char) : Bool :=
  k.items.any (itemHas c.toNat) != k.negated

def single (c : Char) : CharClass :=
  { items := [.range c.toNat c.toNat] }

end CharClass

inductive Regex where
  | empty
  | class (set : CharClass)
  | atStart
  | atEnd
  /-- Between a letter of a word and something else, or just not there. -/
  | wordEdge (present : Bool)
  | seq (first second : Regex)
  | alt (first second : Regex)
  /-- A capturing group; any other group is its content. -/
  | group (inner : Regex)
  | times (inner : Regex) (least : Nat) (most? : Option Nat)
  /-- What follows must match, or must not. -/
  | ahead (inner : Regex) (wanted : Bool)
deriving DecidableEq, Repr

namespace Regex

/-- Letters, digits and the underscore of ASCII. -/
def wordRanges : List (Nat × Nat) := [(48, 57), (65, 90), (95, 95), (97, 122)]

def digitRanges : List (Nat × Nat) := [(48, 57)]

/-- The space characters of patterns. -/
def spaceRanges : List (Nat × Nat) :=
  [(9, 13), (32, 32), (0xA0, 0xA0), (0x2003, 0x2003), (0x2029, 0x2029), (0xFEFF, 0xFEFF)]

/-- Whether a letter of a word stands at a position. -/
def isWordAt (text : Array Char) (i : Nat) : Bool :=
  (text[i]?).any fun c => CharClass.within wordRanges c.toNat

/-- Whether a position lies at the edge of a word. -/
def isWordEdge (text : Array Char) (i : Nat) : Bool :=
  (i != 0 && isWordAt text (i - 1)) != isWordAt text i

def union (a b : List Nat) : List Nat :=
  a ++ b.filter fun i => !a.contains i

/-- Applies a step so often, keeping only the last result. -/
def iterate (step : List Nat → List Nat) : Nat → List Nat → List Nat
  | 0, s => s
  | n + 1, s => iterate step n (step s)

/-- Applies a step up to so often, keeping all results. -/
def closure (step : List Nat → List Nat) : Nat → List Nat → List Nat
  | 0, s => s
  | n + 1, s => union s (closure step n (step s))

/-- Where the expression may end when it begins at one of the positions. A repetition needs no
more rounds than there are positions. -/
def ends (text : Array Char) : Regex → List Nat → List Nat
  | empty, s => s
  | .class set, s => s.filterMap fun i =>
    match text[i]? with
    | some c => if set.has c then some (i + 1) else none
    | none => none
  | atStart, s => s.filter (· == 0)
  | atEnd, s => s.filter (· == text.size)
  | wordEdge present, s => s.filter fun i => isWordEdge text i == present
  | seq a b, s => ends text b (ends text a s)
  | alt a b, s => union (ends text a s) (ends text b s)
  | group r, s => ends text r s
  | times r least most?, s =>
    let step := ends text r
    let rounds := match most? with
      | some most => min (most - least) (text.size + 1)
      | none => text.size + 1
    closure step rounds (iterate step least s)
  | ahead r wanted, s => s.filter fun i => (!(ends text r [i]).isEmpty) == wanted

/-- Whether the expression matches anywhere in a text. -/
def search (r : Regex) (s : String) : Bool :=
  let text := s.toList.toArray
  !(ends text r (List.range (text.size + 1))).isEmpty

/-! ## Reading -/

namespace Reader

/-- Whether a quantifier may follow: not behind nothing, an anchor or a look ahead. -/
def isRepeatable : Regex → Bool
  | empty | atStart | atEnd | wordEdge _ | ahead _ _ => false
  | .class _ | seq _ _ | alt _ _ | group _ | times _ _ _ => true

def hex? (c : Char) : Option Nat :=
  if c.isDigit then some (c.toNat - 48)
  else if 'a' ≤ c ∧ c ≤ 'f' then some (c.toNat - 87)
  else if 'A' ≤ c ∧ c ≤ 'F' then some (c.toNat - 55)
  else none

def hexNumber? (cs : List Char) : Option Nat :=
  cs.foldlM (fun n c => (hex? c).map (n * 16 + ·)) 0

/-- A character given by its number in braces or by exactly `width` digits. -/
def codePoint? (width : Nat) : List Char → Option (Char × List Char)
  | '\x7b' :: cs =>
    let digits := cs.takeWhile (· != '\x7d')
    match cs.drop digits.length with
    | _ :: rest =>
      if digits.isEmpty then none else (hexNumber? digits).map fun n => (Char.ofNat n, rest)
    | [] => none
  | cs =>
    let digits := cs.take width
    if digits.length = width then
      (hexNumber? digits).map fun n => (Char.ofNat n, cs.drop width)
    else none

/-- The class of an escape letter that stands for one. -/
def classEscape? (c : Char) : Option (Bool × List (Nat × Nat)) :=
  match c with
  | 'd' => some (false, digitRanges)
  | 'D' => some (true, digitRanges)
  | 'w' => some (false, wordRanges)
  | 'W' => some (true, wordRanges)
  | 's' => some (false, spaceRanges)
  | 'S' => some (true, spaceRanges)
  | _ => none

/-- The character that an escape stands for: a control, a number, or a sign taken literally. No
other letter or digit may be escaped. -/
def charEscape? : List Char → Option (Char × List Char)
  | [] => none
  | 'a' :: cs => some ('\x07', cs)
  | 'f' :: cs => some ('\x0c', cs)
  | 'n' :: cs => some ('\n', cs)
  | 'r' :: cs => some ('\r', cs)
  | 't' :: cs => some ('\t', cs)
  | 'v' :: cs => some ('\x0b', cs)
  | 'e' :: cs => some ('\x1b', cs)
  | 'x' :: cs => codePoint? 2 cs
  | 'u' :: cs => codePoint? 4 cs
  | 'U' :: cs => codePoint? 8 cs
  | 'c' :: c :: cs => if c.isAlpha then some (Char.ofNat (c.toNat % 32), cs) else none
  | c :: cs => if c.isAlphanum then none else some (c, cs)

def classItems (negated : Bool) (ranges : List (Nat × Nat)) : List ClassItem :=
  if negated then [.outside ranges] else ranges.map fun r => .range r.1 r.2

/-- One end of a range, or a whole set. -/
inductive ClassAtom where
  | char (c : Char)
  | set (items : List ClassItem)

/-- One member of a class. -/
def classAtom? : List Char → Option (ClassAtom × List Char)
  | [] => none
  | '\\' :: cs =>
    match cs with
    | [] => none
    | c :: rest =>
      match classEscape? c with
      | some (negated, ranges) => some (.set (classItems negated ranges), rest)
      | none => (charEscape? cs).map fun (d, rest) => (.char d, rest)
  | c :: cs => some (.char c, cs)

/-- The members of a class up to its closing bracket, which is taken literally when it comes
first. -/
def classBody? : (fuel : Nat) → (first : Bool) → List Char → Option (List ClassItem × List Char)
  | 0, _, _ => none
  | _ + 1, _, [] => none
  | fuel + 1, first, c :: cs =>
    if c = ']' ∧ !first then some ([], cs)
    else do
      let (atom, rest) ← classAtom? (c :: cs)
      match atom, rest with
      | .set items, rest => do
        let (more, rest) ← classBody? fuel false rest
        some (items ++ more, rest)
      | .char low, '-' :: next :: rest =>
        if next = ']' then do
          let (more, rest) ← classBody? fuel false ('-' :: next :: rest)
          some (.range low.toNat low.toNat :: more, rest)
        else do
          match ← classAtom? (next :: rest) with
          | (.char high, rest) =>
            if high < low then none
            else do
              let (more, rest) ← classBody? fuel false rest
              some (.range low.toNat high.toNat :: more, rest)
          | (.set _, _) => none
      | .char low, rest => do
        let (more, rest) ← classBody? fuel false rest
        some (.range low.toNat low.toNat :: more, rest)

/-- A class behind its opening bracket. -/
def class? (cs : List Char) : Option (Regex × List Char) :=
  let (negated, body) := match cs with
    | '^' :: rest => (true, rest)
    | rest => (false, rest)
  (classBody? (body.length + 1) true body).map fun (items, rest) =>
    (.class { negated, items }, rest)

/-- The decimal digits at the front. -/
def number? (cs : List Char) : Option (Nat × List Char) :=
  let digits := cs.takeWhile Char.isDigit
  if digits.isEmpty then none
  else some (digits.foldl (fun n c => n * 10 + (c.toNat - 48)) 0, cs.drop digits.length)

/-- The bounds in braces behind an opening brace. -/
def bounds? (cs : List Char) : Option (Nat × Option Nat × List Char) := do
  let (least, rest) ← match cs with
    | ',' :: _ => some (0, cs)
    | _ => number? cs
  match rest with
  | '\x7d' :: rest => some (least, some least, rest)
  | ',' :: '\x7d' :: rest => some (least, none, rest)
  | ',' :: rest => do
    let (most, rest) ← number? rest
    match rest with
    | '\x7d' :: rest => some (least, some most, rest)
    | _ => none
  | _ => none

/-- The quantifier at the front, without a mark for how greedy it is. -/
def quantifier? : List Char → Option (Nat × Option Nat × List Char)
  | '*' :: cs => some (0, none, cs)
  | '+' :: cs => some (1, none, cs)
  | '?' :: cs => some (0, some 1, cs)
  | '\x7b' :: cs => bounds? cs
  | _ => none

/-- Drops a mark for how greedy a quantifier is, which does not change what is found. -/
def dropGreed : List Char → List Char
  | '?' :: cs => cs
  | '+' :: cs => cs
  | cs => cs

/-- A piece with the quantifier behind it, if any. -/
def quantified? (piece : Regex) (cs : List Char) : Option (Regex × List Char) :=
  match quantifier? cs with
  | none => some (piece, cs)
  | some (least, most?, rest) =>
    if isRepeatable piece && most?.all (least ≤ ·) then
      some (.times piece least most?, dropGreed rest)
    else none

mutual
/-- Alternatives up to a closing parenthesis or the end. -/
def alternatives? : (fuel : Nat) → List Char → Option (Regex × List Char)
  | 0, _ => none
  | fuel + 1, cs => do
    let (first, rest) ← branch? fuel cs
    match rest with
    | '|' :: rest => do
      let (second, rest) ← alternatives? fuel rest
      some (.alt first second, rest)
    | rest => some (first, rest)
/-- Pieces one after the other. -/
def branch? : (fuel : Nat) → List Char → Option (Regex × List Char)
  | 0, _ => none
  | fuel + 1, cs =>
    match cs with
    | [] => some (.empty, [])
    | '|' :: rest => some (.empty, '|' :: rest)
    | ')' :: rest => some (.empty, ')' :: rest)
    | cs => do
      let (atom, rest) ← atom? fuel cs
      let (piece, rest) ← quantified? atom rest
      let (more, rest) ← branch? fuel rest
      some (match more with | .empty => piece | more => .seq piece more, rest)
def atom? : (fuel : Nat) → List Char → Option (Regex × List Char)
  | 0, _ => none
  | fuel + 1, cs =>
    match cs with
    | [] => some (.empty, [])
    | '.' :: rest => some (.class { negated := true, items := [.range 10 10] }, rest)
    | '^' :: rest => some (.atStart, rest)
    | '$' :: rest => some (.atEnd, rest)
    | '[' :: rest => class? rest
    | '(' :: '?' :: ':' :: rest => inGroup? fuel id rest
    | '(' :: '?' :: '=' :: rest => inGroup? fuel (.ahead · true) rest
    | '(' :: '?' :: '!' :: rest => inGroup? fuel (.ahead · false) rest
    | '(' :: '?' :: 'P' :: '<' :: rest => inGroup? fuel .group ((rest.dropWhile (· != '>')).drop 1)
    | '(' :: '?' :: '<' :: c :: rest =>
      if c.isAlpha then inGroup? fuel .group ((rest.dropWhile (· != '>')).drop 1) else none
    | '(' :: '?' :: _ => none
    | '(' :: rest => inGroup? fuel .group rest
    | '\\' :: 'b' :: rest => some (.wordEdge true, rest)
    | '\\' :: 'B' :: rest => some (.wordEdge false, rest)
    | '\\' :: 'A' :: rest => some (.atStart, rest)
    | '\\' :: 'z' :: rest => some (.atEnd, rest)
    | '\\' :: rest =>
      match rest with
      | [] => none
      | c :: after =>
        match classEscape? c with
        | some (negated, ranges) => some (.class { items := classItems negated ranges }, after)
        | none => (charEscape? rest).map fun (d, after) => (.class (.single d), after)
    | c :: rest => if c = '*' ∨ c = '+' ∨ c = '?' then none else some (.class (.single c), rest)
/-- The content of a group and its closing parenthesis. -/
def inGroup? : (fuel : Nat) → (Regex → Regex) → List Char → Option (Regex × List Char)
  | 0, _, _ => none
  | fuel + 1, wrap, cs => do
    let (inner, rest) ← alternatives? fuel cs
    match rest with
    | ')' :: rest => some (wrap inner, rest)
    | _ => none
end

end Reader

/-- The expression that a text writes; none where it is malformed. -/
def parse? (source : String) : Option Regex :=
  let cs := source.toList
  match Reader.alternatives? (4 * cs.length + 4) cs with
  | some (r, []) => some r
  | _ => none

end Regex

end BicepForge.JsonSchema
