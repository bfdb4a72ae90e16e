import BicepForge.Text.Search

/-!
# Paths

A path names its parts from left to right, with slashes between them. Empty parts and single dots
lead nowhere and are skipped; a path that starts with a slash starts at the top.
-/

namespace BicepForge.Files.Path

def parts (path : String) : List String :=
  (Text.splitOn '/' path.toList).map String.ofList

def isAbsolute (path : String) : Bool :=
  Text.startsWith path "/"

/-- Whether a part stays where it is. -/
def isIdle (part : String) : Bool :=
  part = "" ∨ part = "."

def join (base path : String) : String :=
  if isAbsolute path then path
  else if base = "" ∨ Text.endsWith base "/" then base ++ path
  else base ++ "/" ++ path

/-- Drops idle parts from the end of a path that is given backwards. -/
def dropIdle : List Char → List Char
  | '/' :: cs => dropIdle cs
  | '.' :: '/' :: cs => dropIdle cs
  | cs => cs

/-- The path of the directory that holds what a path names, as it is written there. It is empty for
a path of one part, and missing for one without parts. -/
def parent? (path : String) : Option String :=
  match dropIdle path.toList.reverse with
  | [] => none
  | cs =>
    match dropIdle (cs.dropWhile (· != '/')) with
    | [] => some (if isAbsolute path then "/" else "")
    | rest => some (String.ofList rest.reverse)

end BicepForge.Files.Path
