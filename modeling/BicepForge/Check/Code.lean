import BicepForge.Report

/-!
# Checking Bicep code

A light check of code as text: declarations are counted where they begin a line, and braces and
brackets must balance. Line comments do not count.
-/

namespace BicepForge.Check

/-- What stands in front of the first `//`, if there is one. -/
def beforeSlashes? : List Char → Option (List Char)
  | [] => none
  | '/' :: '/' :: _ => some []
  | c :: cs => (beforeSlashes? cs).map (c :: ·)

/-- Whether a text ends inside a string: it holds an odd number of quotes. -/
def endsInString (cs : List Char) : Bool :=
  cs.count '\'' % 2 == 1

/-- A line without its comment. Only the first `//` can begin one. -/
def withoutComment (line : List Char) : List Char :=
  match beforeSlashes? line with
  | some front => if endsInString front then line else front
  | none => line

def withoutComments (code : String) : List Char :=
  ['\n'].intercalate ((Text.lines code).map withoutComment)

def beginsName (c : Char) : Bool :=
  c.isAlpha || c == '_'

def continuesName (c : Char) : Bool :=
  c.isAlphanum || c == '_'

/-- What is left behind a declaration that begins here: blanks, the keyword, blanks, a name. -/
def afterDeclaration? (keyword : List Char) (cs : List Char) : Option (List Char) :=
  let cs := cs.dropWhile Text.isBlank
  if keyword.isPrefixOf cs then
    match cs.drop keyword.length with
    | [] => none
    | b :: rest =>
      if Text.isBlank b then
        match rest.dropWhile Text.isBlank with
        | [] => none
        | c :: rest => if beginsName c then some (rest.dropWhile continuesName) else none
      else none
  else none

/-- Counts the declarations of a keyword that begin a line; blanks in front may hold line feeds.
At most one is found at each of `fuel` places, and a search goes on behind the last find. -/
def countDeclarations (keyword : List Char) : (fuel : Nat) → (lineStart : Bool) → List Char → Nat
  | 0, _, _ => 0
  | fuel + 1, lineStart, cs =>
    match if lineStart then afterDeclaration? keyword cs else none with
    | some rest => countDeclarations keyword fuel false rest + 1
    | none =>
      match cs with
      | [] => 0
      | c :: cs => countDeclarations keyword fuel (c == '\n') cs

def declarationCount (keyword : String) (code : List Char) : Nat :=
  countDeclarations keyword.toList (code.length + 1) true code

def balanceErrors (opening closing : Char) (what : String) (code : List Char) : List String :=
  if code.count opening = code.count closing then []
  else
    ["Mismatched " ++ what ++ ": " ++ toString (code.count opening) ++ " opening, " ++
      toString (code.count closing) ++ " closing"]

/-- The keywords of declarations with what they declare. -/
def declarationKinds : List (String × String) :=
  [("param", "parameter"), ("var", "variable"), ("output", "output"), ("resource", "resource"),
   ("module", "module")]

def checkCode (code : String) : Report :=
  let code := withoutComments code
  let warnings :=
    if declarationCount "resource" code = 0 ∧ declarationCount "module" code = 0 then
      ["No resources found in template"] else []
  let notes := declarationKinds.filterMap fun (keyword, what) =>
    let count := declarationCount keyword code
    if count = 0 then none else some ("Found " ++ toString count ++ " " ++ what ++ "(s)")
  let errors :=
    balanceErrors '\x7b' '\x7d' "braces" code ++ balanceErrors '[' ']' "brackets" code
  (((Report.forDialect .bicep).withErrors errors).withWarnings warnings).withNotes notes

end BicepForge.Check
