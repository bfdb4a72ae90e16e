/-!
# Searching in texts

Containment and leading parts on the characters of a text. `hasInfix_iff` ties the search to the
library's `List.IsInfix`.
-/

namespace BicepForge.Text

/-- Decides a statement about the characters of a list on these, where another instance would go
through all characters that there are. -/
instance (priority := high) decidableForallMem {p : Char → Prop} [DecidablePred p]
    (cs : List Char) : Decidable (∀ c ∈ cs, p c) :=
  List.decidableBAll p cs

/-- Whether the characters of `needle` stand together somewhere in the list. -/
def hasInfix (needle : List Char) : List Char → Bool
  | [] => needle.isEmpty
  | c :: cs => needle.isPrefixOf (c :: cs) || hasInfix needle cs

theorem hasInfix_iff {needle hay : List Char} : hasInfix needle hay = true ↔ needle <:+: hay := by
  induction hay with
  | nil => simp [hasInfix]
  | cons c cs ih => simp [hasInfix, ih, List.infix_cons_iff]

def occursIn (part s : String) : Bool :=
  hasInfix part.toList s.toList

def startsWith (s start : String) : Bool :=
  start.toList.isPrefixOf s.toList

def endsWith (s ending : String) : Bool :=
  ending.toList.isSuffixOf s.toList

/-- What follows the first occurrence of `c`. -/
def afterFirst (c : Char) (cs : List Char) : Option (List Char) :=
  match cs.dropWhile (· != c) with
  | [] => none
  | _ :: rest => some rest

/-- The pieces between the occurrences of `c`; there is always one. -/
def splitOn (c : Char) : List Char → List (List Char)
  | [] => [[]]
  | d :: ds =>
    match splitOn c ds with
    | [] => [[d]]
    | piece :: pieces => if d = c then [] :: piece :: pieces else (d :: piece) :: pieces

theorem intercalate_cons_cons {α : Type} (sep a b : List α) (more : List (List α)) :
    sep.intercalate (a :: b :: more) = a ++ sep ++ sep.intercalate (b :: more) := by
  simp [List.intercalate]

/-- The lines of a text: what stands between line feeds, less a carriage return before one, and no
empty line after a final line feed. -/
def lines (s : String) : List (List Char) :=
  let pieces := splitOn '\n' s.toList
  let ended := pieces.dropLast.map fun line =>
    if line.getLast? = some '\r' then line.dropLast else line
  match pieces.getLast? with
  | some (c :: cs) => ended ++ [c :: cs]
  | _ => ended

end BicepForge.Text
