import BicepForge.Yaml.Character
import BicepForge.Yaml.Token

/-!
# Cursors

A place in a YAML text: what is still to be read, and the line and column that are reached. Blanks
and line breaks between words are gathered in a gap, which knows what it leaves in a text: a single
break is folded into a space, further ones are kept.
-/

namespace BicepForge.Yaml

structure Cursor where
  rest : List Char
  line : Nat := 0
  column : Nat := 0
  /-- The number of characters behind it. -/
  index : Nat := 0

namespace Cursor

/-- Steps over `n` characters of a line. -/
def skip (c : Cursor) (n : Nat := 1) : Cursor :=
  { c with rest := c.rest.drop n, column := c.column + n, index := c.index + n }

/-- Steps over a line break and tells what it leaves in a text. -/
def lineBreak (c : Cursor) : List Char × Cursor :=
  let next (rest : List Char) (n : Nat) : Cursor :=
    { rest, line := c.line + 1, column := 0, index := c.index + n }
  match c.rest with
  | '\r' :: '\n' :: rest => (['\n'], next rest 2)
  | b :: rest =>
    if b = '\u2028' ∨ b = '\u2029' then ([b], next rest 1)
    else if isBreak b then (['\n'], next rest 1)
    else ([], c)
  | [] => ([], c)

/-- The characters ahead that fit, and the place behind them. -/
def span (c : Cursor) (p : Char → Bool) : List Char × Cursor :=
  let cs := c.rest.takeWhile p
  (cs, c.skip cs.length)

/-- Whether the text goes on with a character. -/
def sees (c : Cursor) (d : Char) : Bool :=
  c.rest.head? == some d

/-- Whether the text is over or goes on with a separator, `n` characters ahead. -/
def isApartAt (c : Cursor) (n : Nat) : Bool :=
  isApart (c.rest.drop n)

/-- Whether three characters mark the place between two documents. -/
def seesMark (c : Cursor) (mark : Char) : Bool :=
  c.column = 0 && [mark, mark, mark].isPrefixOf c.rest && c.isApartAt 3

/-- Whether one document ends or another begins. -/
def seesDocumentMark (c : Cursor) : Bool :=
  c.seesMark '-' || c.seesMark '.'

/-- Steps over blanks and a comment up to the end of the line; none where something else stands
there. -/
def restOfLine? (c : Cursor) : Option Cursor :=
  let c := (c.span isBlank).2
  let c := if c.sees '#' then (c.span fun d => !isBreak d).2 else c
  match c.rest with
  | [] => some c
  | d :: _ => if isBreak d then some c.lineBreak.2 else none

end Cursor

/-- Blanks and line breaks between two words. -/
structure Gap where
  blanks : List Char := []
  firstBreak : List Char := []
  moreBreaks : List Char := []
  /-- Whether there is a line break among them. -/
  broken : Bool := false

namespace Gap

/-- What line breaks leave in a text when the first of them is folded. -/
def fold (first more : List Char) : List Char :=
  if first = ['\n'] then if more.isEmpty then [' '] else more else first ++ more

/-- What a gap leaves in a text. -/
def text (g : Gap) : List Char :=
  if g.broken then fold g.firstBreak g.moreBreaks else g.blanks

/-- Gathers the gap ahead. On a new line no tab may stand left of the column. -/
def gather (column : Nat) : (fuel : Nat) → Gap → Cursor → Except YamlError (Gap × Cursor)
  | 0, g, c => .ok (g, c)
  | fuel + 1, g, c =>
    match c.rest with
    | [] => .ok (g, c)
    | d :: _ =>
      if isBlank d then
        if !g.broken then gather column fuel { g with blanks := g.blanks ++ [d] } c.skip
        else if d = '\t' ∧ c.column < column then .error .misplacedTab
        else gather column fuel g c.skip
      else if isBreak d then
        let (b, c) := c.lineBreak
        gather column fuel
          (if g.broken then { g with moreBreaks := g.moreBreaks ++ b }
            else { firstBreak := b, broken := true }) c
      else .ok (g, c)

end Gap

end BicepForge.Yaml
