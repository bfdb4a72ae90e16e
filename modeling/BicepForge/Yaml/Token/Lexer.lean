import BicepForge.Yaml.Token.Directive
import BicepForge.Yaml.Token.Scalar

/-!
# From text to tokens

Most tokens are seen by their first character. Two things are known only later: that a block
collection has begun, which shows by a greater indentation, and that a scalar was a key, which shows
by the colon behind it. A place where a key may have begun is remembered, and the tokens that
announce it are put in there.
-/

namespace BicepForge.Yaml

/-- A place where a key on one line may have begun. -/
structure KeyStart where
  /-- Whether something must be a key here. -/
  required : Bool
  /-- The number of tokens ahead of it. -/
  tokens : Nat
  line : Nat
  column : Nat
  index : Nat

/-- The most characters that a key on one line can have. -/
def longestKey : Nat := 1024

/-- How far the tokens of a text are known. -/
structure Lexer where
  cursor : Cursor
  /-- The tokens so far, the last one first. -/
  tokens : List Token := []
  count : Nat := 0
  /-- The indentation of the innermost block. -/
  indent : Int := -1
  /-- The indentations of the blocks around it. -/
  outer : List Int := []
  /-- The number of open brackets. -/
  flowLevel : Nat := 0
  /-- Where a key may have begun, for each open bracket and outside of them, the innermost first. -/
  keys : List (Option KeyStart) := [none]
  /-- Whether a key may begin here. -/
  keyAllowed : Bool := true

namespace Lexer

def inFlow (l : Lexer) : Bool :=
  0 < l.flowLevel

def emit (l : Lexer) (t : Token) : Lexer :=
  { l with tokens := t :: l.tokens, count := l.count + 1 }

def take (l : Lexer) (t : Token) (n : Nat := 1) : Lexer :=
  { l.emit t with cursor := l.cursor.skip n }

/-- Puts a token behind the first `n`. -/
def insert (l : Lexer) (n : Nat) (t : Token) : Lexer :=
  let later := l.count - n
  { l with tokens := l.tokens.take later ++ t :: l.tokens.drop later, count := l.count + 1 }

/-! ## Indentation -/

/-- Ends the blocks that are indented more than a column. -/
def closeBlocks (column : Int) (l : Lexer) : Lexer :=
  if l.inFlow then l else close l.outer l
where
  close : List Int → Lexer → Lexer
    | [], l => l
    | indent :: outer, l =>
      if column < l.indent then close outer { l.emit .blockEnd with indent, outer } else l

/-- Begins a block at a column, if that lies deeper, behind the first `n` tokens. -/
def openBlock (l : Lexer) (column n : Nat) (t : Token) : Lexer :=
  if l.inFlow ∨ column ≤ l.indent then l
  else { l.insert n t with indent := column, outer := l.indent :: l.outer }

/-! ## Keys -/

/-- The place where a key may have begun inside of the innermost bracket. -/
def keyStart? (l : Lexer) : Option KeyStart :=
  l.keys.head?.join

/-- Forgets where a key may have begun; it must not have been required. -/
def dropKey (l : Lexer) : Except YamlError Lexer :=
  if l.keyStart?.any (·.required) then .error .missingColon
  else .ok { l with keys := none :: l.keys.drop 1 }

/-- Remembers that a key may begin here. -/
def markKey (l : Lexer) : Except YamlError Lexer :=
  if !l.keyAllowed then .ok l
  else
    let c := l.cursor
    let start : KeyStart :=
      { required := !l.inFlow && l.indent = c.column, tokens := l.count
        line := c.line, column := c.column, index := c.index }
    l.dropKey.map fun l => { l with keys := some start :: l.keys.drop 1 }

/-- Whether a key that began there may still go on. -/
def isFresh (c : Cursor) (k : KeyStart) : Bool :=
  k.line = c.line && c.index ≤ k.index + longestKey

/-- Forgets the starts of keys that got too long. -/
def dropStaleKeys (l : Lexer) : Except YamlError Lexer :=
  if l.keys.any fun k? => k?.any fun k => k.required && !isFresh l.cursor k then
    .error .missingColon
  else .ok { l with keys := l.keys.map (·.filter (isFresh l.cursor)) }

/-! ## Tokens -/

/-- Steps over blanks, comments and empty lines. A new line may begin with a key, but brackets hold
what they hold over several lines. -/
def toNext : (fuel : Nat) → Lexer → Lexer
  | 0, l => l
  | fuel + 1, l =>
    let c := l.cursor
    let c := if c.column = 0 ∧ c.sees byteOrderMark then c.skip else c
    let c := (c.span fun d => d = ' ' || (d = '\t' && (l.inFlow || !l.keyAllowed))).2
    let c := if c.sees '#' then (c.span fun d => !isBreak d).2 else c
    if c.rest.head?.any isBreak then
      toNext fuel { l with cursor := c.lineBreak.2, keyAllowed := l.keyAllowed || !l.inFlow }
    else { l with cursor := c }

/-- The end of all blocks, and of keys that may have begun. -/
def reset (l : Lexer) : Except YamlError Lexer :=
  (l.closeBlocks (-1)).dropKey.map fun l => { l with keyAllowed := false }

def lexDirective (l : Lexer) : Except YamlError Lexer := do
  let l ← l.reset
  let (t, cursor) ← directive l.cursor
  return { l.emit t with cursor }

def lexDocumentMark (l : Lexer) (t : Token) : Except YamlError Lexer :=
  l.reset.map (·.take t 3)

def lexOpening (l : Lexer) (t : Token) : Except YamlError Lexer := do
  let l := (← l.markKey).take t
  return { l with keys := none :: l.keys, flowLevel := l.flowLevel + 1, keyAllowed := true }

def lexClosing (l : Lexer) (t : Token) : Except YamlError Lexer := do
  let l := (← l.dropKey).take t
  let l := { l with keyAllowed := false }
  return if l.inFlow then { l with keys := l.keys.drop 1, flowLevel := l.flowLevel - 1 } else l

def lexFlowEntry (l : Lexer) : Except YamlError Lexer := do
  return { (← l.dropKey).take .flowEntry with keyAllowed := true }

def lexBlockEntry (l : Lexer) : Except YamlError Lexer := do
  if !l.inFlow ∧ !l.keyAllowed then throw .misplacedEntry
  let l ← (l.openBlock l.cursor.column l.count .blockSequenceStart).dropKey
  return { l.take .blockEntry with keyAllowed := true }

def lexKey (l : Lexer) : Except YamlError Lexer := do
  if !l.inFlow ∧ !l.keyAllowed then throw .misplacedKey
  let l ← (l.openBlock l.cursor.column l.count .blockMappingStart).dropKey
  return { l.take .key with keyAllowed := !l.inFlow }

/-- The colon of a value, behind a key on the same line or on its own. -/
def lexValue (l : Lexer) : Except YamlError Lexer :=
  match l.keyStart? with
  | some k =>
    let l := (l.insert k.tokens .key).openBlock k.column k.tokens .blockMappingStart
    .ok { l.take .value with keys := none :: l.keys.drop 1, keyAllowed := false }
  | none =>
    if !l.inFlow ∧ !l.keyAllowed then .error .misplacedValue
    else
      let l := l.openBlock l.cursor.column l.count .blockMappingStart
      .ok { l.take .value with keyAllowed := !l.inFlow }

/-- A token that may be, or belong to, a key on one line. -/
def lexNode (l : Lexer) (read : Cursor → Except YamlError (Token × Cursor)) :
    Except YamlError Lexer := do
  let l ← l.markKey
  let (t, cursor) ← read l.cursor
  return { l.emit t with cursor, keyAllowed := false }

def lexQuoted (l : Lexer) (quote : Char) (style : ScalarStyle) : Except YamlError Lexer :=
  l.lexNode fun c => (quotedScalar quote c).map fun (text, c) =>
    (.scalar style (String.ofList text), c)

/-- A plain scalar; behind a line break a key may begin. -/
def lexPlain (l : Lexer) : Except YamlError Lexer := do
  let l ← l.markKey
  let run ← plainScalar l.inFlow (l.indent + 1).toNat l.cursor
  return { l.emit (.scalar .plain (String.ofList run.chars)) with
    cursor := run.behind, keyAllowed := run.broken }

def lexBlockScalar (l : Lexer) (style : ScalarStyle) : Except YamlError Lexer := do
  let l ← l.dropKey
  let (text, cursor) ← blockScalar (style = .literal) l.indent l.cursor
  return { l.emit (.scalar style (String.ofList text)) with cursor, keyAllowed := true }

/-- Characters that no plain scalar starts with. -/
def indicators : List Char :=
  "-?:,[]\x7b\x7d#&*!|>'\"%@`".toList

/-- Whether a plain scalar starts with the character, by what stands behind it. -/
def startsPlain (l : Lexer) (d : Char) (behind : List Char) : Bool :=
  !(isBlank d || isBreak d || indicators.contains d) ||
    (d = '-' && !behind.head?.any isBlank) ||
    (!l.inFlow && (d = '?' || d = ':') && !isApart behind)

def lexAt (l : Lexer) (d : Char) (behind : List Char) : Except YamlError Lexer :=
  let apart := isApart behind
  if l.cursor.column = 0 ∧ d = '%' then l.lexDirective
  else if l.cursor.seesMark '-' then l.lexDocumentMark .documentStart
  else if l.cursor.seesMark '.' then l.lexDocumentMark .documentEnd
  else if d = '[' then l.lexOpening .flowSequenceStart
  else if d = '\x7b' then l.lexOpening .flowMappingStart
  else if d = ']' then l.lexClosing .flowSequenceEnd
  else if d = '\x7d' then l.lexClosing .flowMappingEnd
  else if d = ',' then l.lexFlowEntry
  else if d = '-' ∧ apart then l.lexBlockEntry
  else if d = '?' ∧ (l.inFlow ∨ apart) then l.lexKey
  else if d = ':' ∧ (l.inFlow ∨ apart) then l.lexValue
  else if d = '*' then
    l.lexNode fun c => (anchorName c).map fun (name, c) => (.reference name, c)
  else if d = '&' then
    l.lexNode fun c => (anchorName c).map fun (name, c) => (.anchor name, c)
  else if d = '!' then l.lexNode (tagToken l.inFlow)
  else if d = '|' ∧ !l.inFlow then l.lexBlockScalar .literal
  else if d = '>' ∧ !l.inFlow then l.lexBlockScalar .folded
  else if d = '\'' then l.lexQuoted '\'' .singleQuoted
  else if d = '"' then l.lexQuoted '"' .doubleQuoted
  else if l.startsPlain d behind then l.lexPlain
  else .error .unexpectedCharacter

/-- The end of the text, which is the start of a line. -/
def finish (l : Lexer) : Except YamlError (List Token) :=
  l.reset.map (·.tokens.reverse)

/-- The tokens from here on; each takes at least one character. -/
def run : (fuel : Nat) → Lexer → Except YamlError (List Token)
  | 0, _ => .error .tooDeep
  | fuel + 1, l => do
    let l := l.toNext (l.cursor.rest.length + 1)
    let l := (← l.dropStaleKeys).closeBlocks l.cursor.column
    match l.cursor.rest with
    | [] => l.finish
    | d :: behind => run fuel (← l.lexAt d behind)

end Lexer

/-- The tokens of a text, which may begin with the mark of its byte order. -/
def Token.ofText (text : String) : Except YamlError (List Token) :=
  let cs := match text.toList with
    | c :: cs => if c = byteOrderMark then cs else c :: cs
    | [] => []
  if !cs.all isReadable then .error .unreadableCharacter
  else Lexer.run (cs.length + 1) { cursor := { rest := cs } }

end BicepForge.Yaml
