import BicepForge.Text.Search
import BicepForge.Yaml.Resolution
import BicepForge.Yaml.Token

/-!
# Writing scalars

A text is written without quotes where it is read back as it is. Otherwise it goes between single
quotes, and if they cannot hold it, between double ones; a text of several lines becomes a literal
block.
-/

namespace BicepForge.Yaml

/-! ## What a text is made of -/

/-- Whether a character starts something else at the beginning of a scalar, by what stands behind
it. -/
def indicatesAtStart (c : Char) (behind : List Char) : Bool :=
  "#,[]\x7b\x7d&*!|>'\"%@`".toList.contains c || (['?', ':', '-'].contains c && isApart behind)

/-- Whether a character inside of a scalar starts something else, by its neighbours. -/
def indicatesWithin (before c : Char) (behind : List Char) : Bool :=
  (c = ':' && isApart behind) || (c = '#' && isApart [before])

/-- Whether a character behind another one starts something else. -/
def hasIndicatorWithin (before : Char) : List Char → Bool
  | [] => false
  | c :: behind => indicatesWithin before c behind || hasIndicatorWithin c behind

/-- Whether a text holds what starts something else on a line of a block. -/
def hasIndicator : List Char → Bool
  | [] => false
  | c :: behind =>
    indicatesAtStart c behind || hasIndicatorWithin c behind ||
      ['-', '-', '-'].isPrefixOf (c :: behind) || ['.', '.', '.'].isPrefixOf (c :: behind)

/-- Whether two characters that fit stand side by side. -/
def hasPair (p q : Char → Bool) : List Char → Bool
  | [] => false
  | c :: behind => (p c && behind.head?.any q) || hasPair p q behind

def isSpace (c : Char) : Bool :=
  c = ' '

/-- Whether a text has a space in front of a line break. -/
def hasSpaceBreak (cs : List Char) : Bool :=
  hasPair isSpace isBreak cs

def hasBreakSpace (cs : List Char) : Bool :=
  hasPair isBreak isSpace cs

/-- Whether a separator stands at either end. -/
def hasLooseEnd (cs : List Char) : Bool :=
  cs.head?.any (fun c => isSpace c || isBreak c) ||
    cs.getLast?.any (fun c => isSpace c || isBreak c)

/-- Whether a text can stand on a line of a block without quotes. -/
def isPlainText (cs : List Char) : Bool :=
  cs.all isPrintable && !cs.any isBreak && !hasLooseEnd cs && !hasIndicator cs

def fitsSingleQuotes (cs : List Char) : Bool :=
  cs.all isPrintable && !hasSpaceBreak cs && !hasBreakSpace cs

def fitsLiteral (cs : List Char) : Bool :=
  cs.all isPrintable && !hasSpaceBreak cs && !cs.getLast?.any isSpace

def styleOf (s : String) : ScalarStyle :=
  let cs := s.toList
  if cs.contains '\n' then if fitsLiteral cs then .literal else .doubleQuoted
  else if !meansOther s ∧ isPlainText cs then .plain
  else if fitsSingleQuotes cs then .singleQuoted
  else .doubleQuoted

/-! ## The text of a scalar -/

def indentation : List Char := [' ', ' ']

/-- The inside of single quotes: a quote is written twice, and a new line is indented. -/
def singleQuotedChars (afterBreak : Bool) : List Char → List Char
  | [] => if afterBreak then indentation else []
  | c :: cs =>
    if isBreak c then c :: singleQuotedChars true cs
    else
      (if afterBreak then indentation else []) ++ (if c = '\'' then ['\'', '\''] else [c]) ++
        singleQuotedChars false cs

/-- The letters that stand for characters behind a backslash. -/
def escapedLetters : List (Char × Char) :=
  [('\x00', '0'), ('\x07', 'a'), ('\x08', 'b'), ('\t', 't'), ('\n', 'n'), ('\x0b', 'v'),
   ('\x0c', 'f'), ('\r', 'r'), ('\x1b', 'e'), ('"', '"'), ('\\', '\\'), ('\u0085', 'N'),
   ('\u2028', 'L'), ('\u2029', 'P')]

def hexDigit (n : Nat) : Char :=
  if n < 10 then Char.ofNat (48 + n) else Char.ofNat (55 + n)

/-- The last `width` hexadecimal digits of a number. -/
def hexDigits : (width : Nat) → Nat → List Char
  | 0, _ => []
  | width + 1, n => hexDigits width (n / 16) ++ [hexDigit (n % 16)]

/-- A character behind a backslash. -/
def escapedChar (c : Char) : List Char :=
  match escapedLetters.lookup c with
  | some letter => ['\\', letter]
  | none =>
    if c.toNat ≤ 0xff then '\\' :: 'x' :: hexDigits 2 c.toNat
    else if c.toNat ≤ 0xffff then '\\' :: 'u' :: hexDigits 4 c.toNat
    else '\\' :: 'U' :: hexDigits 8 c.toNat

def doubleQuotedChars (cs : List Char) : List Char :=
  cs.flatMap fun c =>
    if !isPrintable c || isBreak c || c = '"' || c = '\\' then escapedChar c else [c]

/-- What the header of a literal block says of the breaks at its end. -/
def chompingMark (cs : List Char) : List Char :=
  match cs.reverse with
  | [] => ['-']
  | c :: before =>
    if !isBreak c then ['-']
    else if before.isEmpty ∨ before.head?.any isBreak then ['+']
    else []

/-- The lines of a literal block, each indented unless it is empty. -/
def literalLines (atStart : Bool) : List Char → List Char
  | [] => []
  | c :: cs =>
    if isBreak c then c :: literalLines true cs
    else (if atStart then indentation else []) ++ c :: literalLines false cs

/-- A literal block up to the end of its last line. -/
def literalChars (cs : List Char) : List Char :=
  let depth := if cs.head?.any fun c => isSpace c || isBreak c then ['2'] else []
  let lines := literalLines true cs
  '|' :: depth ++ chompingMark cs ++ '\n' :: lines ++
    if cs.getLast?.any isBreak then [] else ['\n']

/-- A scalar as the value of a key, up to the end of its last line. -/
def scalarChars (s : String) : List Char :=
  let cs := s.toList
  match styleOf s with
  | .literal | .folded => literalChars cs
  | .singleQuoted => '\'' :: singleQuotedChars false cs ++ ['\'', '\n']
  | .doubleQuoted => '"' :: doubleQuotedChars cs ++ ['"', '\n']
  | .plain => cs ++ ['\n']

/-- Whether a text is written as a literal block whose last breaks have to be kept. -/
def keepsBreaks (s : String) : Bool :=
  styleOf s = .literal && chompingMark s.toList = ['+']

end BicepForge.Yaml
