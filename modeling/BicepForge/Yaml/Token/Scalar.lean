import BicepForge.Yaml.Cursor

/-!
# Scalar tokens

Reading a scalar in each of its styles. Every loop takes at least one character in a round, so the
number of characters ahead bounds it.
-/

namespace BicepForge.Yaml

/-! ## Quoted scalars -/

/-- The characters that an escape of one letter stands for. -/
def escapeLetters : List (Char × Char) :=
  [('0', '\x00'), ('a', '\x07'), ('b', '\x08'), ('t', '\t'), ('\t', '\t'), ('n', '\n'),
   ('v', '\x0b'), ('f', '\x0c'), ('r', '\r'), ('e', '\x1b'), (' ', ' '), ('"', '"'), ('/', '/'),
   ('\\', '\\'), ('N', '\u0085'), ('_', '\u00a0'), ('L', '\u2028'), ('P', '\u2029')]

/-- The number of hexadecimal digits behind a letter that announces them. -/
def escapeDigits? : Char → Option Nat
  | 'x' => some 2
  | 'u' => some 4
  | 'U' => some 8
  | _ => none

def hexNumber? (cs : List Char) : Option Nat :=
  cs.foldlM (fun n c => (hexValue? c).map (16 * n + ·)) 0

/-- The character of an escape, whose letter is given, and the number of characters behind it. -/
def escape? (letter : Char) (behind : List Char) : Option (Char × Nat) :=
  match escapeLetters.lookup letter with
  | some c => some (c, 0)
  | none =>
    (escapeDigits? letter).bind fun n =>
      if behind.length < n then none
      else (hexNumber? (behind.take n)).bind fun code =>
        if h : code.isValidChar then some (Char.ofNatAux code h, n) else none

/-- A run of quoted characters: those up to a blank, a break or the closing quote. A break that is
escaped ends it too. -/
structure QuotedRun where
  chars : List Char
  escapedBreak : Bool
  behind : Cursor

def QuotedRun.cons (d : Char) (r : QuotedRun) : QuotedRun :=
  { r with chars := d :: r.chars }

/-- The run between single quotes; two of them stand for one. -/
def singleQuotedRun : (fuel : Nat) → Cursor → QuotedRun
  | 0, c => ⟨[], false, c⟩
  | fuel + 1, c =>
    match c.rest with
    | [] => ⟨[], false, c⟩
    | '\'' :: '\'' :: _ => (singleQuotedRun fuel (c.skip 2)).cons '\''
    | d :: _ =>
      if isBlank d || isBreak d || d = '\'' then ⟨[], false, c⟩
      else (singleQuotedRun fuel c.skip).cons d

/-- The run between double quotes, with escapes. -/
def doubleQuotedRun : (fuel : Nat) → Cursor → Except YamlError QuotedRun
  | 0, c => .ok ⟨[], false, c⟩
  | fuel + 1, c =>
    match c.rest with
    | [] => .ok ⟨[], false, c⟩
    | ['\\'] => .error .invalidEscape
    | '\\' :: letter :: behind =>
      if isBreak letter then .ok ⟨[], true, c.skip.lineBreak.2⟩
      else
        match escape? letter behind with
        | none => .error .invalidEscape
        | some (d, n) => (doubleQuotedRun fuel (c.skip (2 + n))).map (·.cons d)
    | d :: _ =>
      if isBlank d || isBreak d || d = '"' then .ok ⟨[], false, c⟩
      else (doubleQuotedRun fuel c.skip).map (·.cons d)

def quotedRun (quote : Char) (c : Cursor) : Except YamlError QuotedRun :=
  if quote = '\'' then .ok (singleQuotedRun (c.rest.length + 1) c)
  else doubleQuotedRun (c.rest.length + 1) c

/-- What follows the opening quote, up to the closing one. -/
def quotedBody (quote : Char) : (fuel : Nat) → Cursor → Except YamlError (List Char × Cursor)
  | 0, _ => .error .unterminatedScalar
  | fuel + 1, c =>
    if c.seesDocumentMark ∨ c.rest.isEmpty then .error .unterminatedScalar
    else do
      let run ← quotedRun quote c
      if run.behind.sees quote then return (run.chars, run.behind.skip)
      let (gap, c) ← Gap.gather 0 (run.behind.rest.length + 1)
        { broken := run.escapedBreak } run.behind
      let (body, c) ← quotedBody quote fuel c
      return (run.chars ++ gap.text ++ body, c)

def quotedScalar (quote : Char) (c : Cursor) : Except YamlError (List Char × Cursor) :=
  quotedBody quote (c.rest.length + 1) c.skip

/-! ## Plain scalars -/

/-- Whether the character ends a plain scalar inside of brackets. -/
def isFlowIndicator (c : Char) : Bool :=
  c = ',' || c = '[' || c = ']' || c = '\x7b' || c = '\x7d'

/-- The number of characters that a word of a plain scalar has. -/
def wordLength (flow : Bool) : List Char → Except YamlError Nat
  | [] => .ok 0
  | c :: cs =>
    if isBlank c || isBreak c then .ok 0
    else if flow && c = ':' && cs.head?.any (fun d => d = '?' || isFlowIndicator d) then
      .error .unexpectedCharacter
    else if (c = ':' && isApart cs) || (flow && isFlowIndicator c) then .ok 0
    else (wordLength flow cs).map (· + 1)

/-- A plain scalar that was read. -/
structure PlainRun where
  chars : List Char
  /-- Whether a line break stands behind it. -/
  broken : Bool
  behind : Cursor

/-- The words of a plain scalar, with the gap before the first of them. On further lines they stand
at the column or right of it, unless brackets hold them. -/
def plainWords (flow : Bool) (column : Nat) :
    (fuel : Nat) → Gap → Cursor → Except YamlError PlainRun
  | 0, gap, c => .ok ⟨[], gap.broken, c⟩
  | fuel + 1, gap, c =>
    if c.seesDocumentMark ∨ c.sees '#' then .ok ⟨[], gap.broken, c⟩
    else do
      let n ← wordLength flow c.rest
      if n = 0 then return ⟨[], gap.broken, c⟩
      let word := gap.text ++ c.rest.take n
      let c := c.skip n
      if c.rest.isEmpty ∨ !c.isApartAt 0 then return ⟨word, false, c⟩
      let (gap, c) ← Gap.gather column (c.rest.length + 1) {} c
      if !flow ∧ c.column < column then return ⟨word, gap.broken, c⟩
      let run ← plainWords flow column fuel gap c
      return { run with chars := word ++ run.chars }

def plainScalar (flow : Bool) (column : Nat) (c : Cursor) : Except YamlError PlainRun :=
  plainWords flow column (c.rest.length + 1) {} c

/-! ## Block scalars -/

/-- What becomes of the line breaks at the end of a block scalar. -/
inductive Chomping where
  | strip
  | clip
  | keep
deriving DecidableEq, Repr

def Chomping.ofChar? : Char → Option Chomping
  | '-' => some strip
  | '+' => some keep
  | _ => none

/-- What the header of a block scalar says. -/
structure BlockHeader where
  chomping : Chomping := .clip
  increment? : Option Nat := none

/-- Reads up to two marks of a header, one of each kind. -/
def blockHeader : (fuel : Nat) → BlockHeader → Cursor → Except YamlError (BlockHeader × Cursor)
  | 0, h, c => .ok (h, c)
  | fuel + 1, h, c =>
    match c.rest with
    | d :: _ =>
      match Chomping.ofChar? d with
      | some chomping =>
        if h.chomping = .clip then blockHeader fuel { h with chomping } c.skip
        else .error .invalidBlockHeader
      | none =>
        if !d.isDigit then .ok (h, c)
        else if d = '0' ∨ h.increment?.isSome then .error .invalidBlockHeader
        else blockHeader fuel { h with increment? := some (d.toNat - 48) } c.skip
    | [] => .ok (h, c)

/-- The line breaks ahead of a line of a block scalar. -/
structure BlockBreaks where
  breaks : List Char
  /-- The indentation of the scalar. -/
  indent : Nat
  behind : Cursor

/-- Steps over empty lines. Where the indentation is not given, that of the first line with text
counts, or of an emptier but deeper one before it. -/
def blockBreaks (least : Nat) (indent? : Option Nat) :
    (fuel deepest : Nat) → Cursor → Except YamlError BlockBreaks
  | 0, deepest, c => .ok ⟨[], indent?.getD (max deepest least), c⟩
  | fuel + 1, deepest, c => do
    let spaces := (c.rest.takeWhile (· = ' ')).length
    let c := c.skip (match indent? with
      | some indent => min spaces (indent - c.column)
      | none => spaces)
    let deepest := max deepest c.column
    if c.sees '\t' ∧ indent?.all (c.column < ·) then .error .misplacedTab
    else if c.rest.head?.any isBreak then
      let (b, c) := c.lineBreak
      let more ← blockBreaks least indent? fuel deepest c
      return { more with breaks := b ++ more.breaks }
    else return ⟨[], indent?.getD (max deepest least), c⟩

/-- The lines of a block scalar that are still to come, with the breaks before them. -/
structure BlockState where
  /-- The break behind the last line. -/
  lastBreak : List Char := []
  /-- Whether the last line starts with a blank. -/
  lastBlank : Bool := false
  breaks : BlockBreaks

/-- What stands between two lines of a block scalar: a folded one joins lines that both start with a
word. -/
def blockJoint (literal : Bool) (s : BlockState) (blank : Bool) : List Char :=
  if !literal ∧ s.lastBreak = ['\n'] ∧ !s.lastBlank ∧ !blank then
    if s.breaks.breaks.isEmpty then [' '] else s.breaks.breaks
  else s.lastBreak ++ s.breaks.breaks

def blockLines (literal : Bool) (chomping : Chomping) :
    (fuel : Nat) → BlockState → Except YamlError (List Char × Cursor)
  | 0, s => .ok ([], s.breaks.behind)
  | fuel + 1, s => do
    let c := s.breaks.behind
    if c.column = s.breaks.indent ∧ !c.rest.isEmpty then
      let blank := c.rest.head?.any isBlank
      let (line, c) := c.span fun d => !isBreak d
      let (lastBreak, c) := c.lineBreak
      let breaks ← blockBreaks 0 (some s.breaks.indent) (c.rest.length + 1) 0 c
      let (more, c) ← blockLines literal chomping fuel { lastBreak, lastBlank := blank, breaks }
      return (blockJoint literal s blank ++ line ++ more, c)
    else
      return ((if chomping = .strip then [] else s.lastBreak) ++
        (if chomping = .keep then s.breaks.breaks else []), c)

/-- A block scalar at its indicator, inside of a block with an indentation. -/
def blockScalar (literal : Bool) (parent : Int) (c : Cursor) :
    Except YamlError (List Char × Cursor) := do
  let (header, c) ← blockHeader 2 {} c.skip
  match c.restOfLine? with
  | none => .error .invalidBlockHeader
  | some c =>
    let indent? := header.increment?.map fun n => (max parent 0).toNat + n
    let least := (max (parent + 1) 1).toNat
    let breaks ← blockBreaks least indent? (c.rest.length + 1) 0 c
    blockLines literal header.chomping (c.rest.length + 1) { breaks }

end BicepForge.Yaml
