import BicepForge.Text.Search
import Mathlib.Data.List.Basic

/-!
# Replacing in texts

A pattern is replaced wherever it stands, from left to right and never twice in one place. A pattern
of one character is replaced character by character, so that replacements of several characters one
after the other come down to one pass.
-/

namespace BicepForge.Text

section Replacement

variable (first : Char) (more replacement : List Char)

/-- Replaces a pattern, given by its first character and those behind it, in a text of which some
characters belong to an occurrence that was replaced already. -/
def replaceFrom : (skipped : Nat) → List Char → List Char
  | _, [] => []
  | skipped + 1, _ :: cs => replaceFrom skipped cs
  | 0, c :: cs =>
    if (first :: more).isPrefixOf (c :: cs) then replacement ++ replaceFrom more.length cs
    else c :: replaceFrom 0 cs

def replaceAll (cs : List Char) : List Char :=
  replaceFrom first more replacement 0 cs

theorem replaceFrom_length (skipped rest : List Char) :
    replaceFrom first more replacement skipped.length (skipped ++ rest) =
      replaceAll first more replacement rest := by
  induction skipped with
  | nil => rfl
  | cons c skipped ih => exact ih

/-- An occurrence is replaced as a whole. -/
theorem replaceAll_pattern (rest : List Char) :
    replaceAll first more replacement (first :: more ++ rest) =
      replacement ++ replaceAll first more replacement rest := by
  have here : (first :: more).isPrefixOf (first :: (more ++ rest)) = true :=
    List.isPrefixOf_iff_prefix.mpr ⟨rest, rfl⟩
  rw [replaceAll, List.cons_append, replaceFrom, if_pos here, replaceFrom_length]

/-- Where the pattern does not begin, the character stays. -/
theorem replaceAll_cons {c : Char} {cs : List Char}
    (h : (first :: more).isPrefixOf (c :: cs) = false) :
    replaceAll first more replacement (c :: cs) = c :: replaceAll first more replacement cs := by
  rw [replaceAll, replaceFrom, h, if_neg Bool.false_ne_true, replaceAll]

theorem replaceAll_append_of_notMem {cs : List Char} (h : first ∉ cs) (rest : List Char) :
    replaceAll first more replacement (cs ++ rest) =
      cs ++ replaceAll first more replacement rest := by
  induction cs with
  | nil => rfl
  | cons c cs ih =>
    obtain ⟨other, foreign⟩ := not_or.mp (List.mem_cons.not.mp h)
    have here : (first :: more).isPrefixOf (c :: (cs ++ rest)) = false := by
      rw [List.isPrefixOf_cons_cons, beq_eq_false_iff_ne.mpr other, Bool.false_and]
    rw [List.cons_append, replaceAll_cons first more replacement here, ih foreign, List.cons_append]

/-- A single character is replaced wherever it is met. -/
theorem replaceAll_singleton (cs : List Char) :
    replaceAll first [] replacement cs =
      cs.flatMap fun c => if c = first then replacement else [c] := by
  induction cs with
  | nil => rfl
  | cons c cs ih =>
    rw [List.flatMap_cons, ← ih]
    by_cases same : c = first
    · subst same
      rw [if_pos rfl]
      exact replaceAll_pattern c [] replacement cs
    · have other : first ∉ [c] := fun mem => same (List.mem_singleton.mp mem).symm
      rw [if_neg same]
      exact replaceAll_append_of_notMem first [] replacement other cs

end Replacement

/-- Replaces characters one after the other, each in all that the ones before it left. -/
def replaceInTurn (steps : List (Char × List Char)) (cs : List Char) : List Char :=
  steps.foldl (fun cs step => replaceAll step.1 [] step.2 cs) cs

/-- Replacements in turn are one pass over the characters, which does to each what they do to it
alone. -/
theorem replaceInTurn_eq_flatMap (steps : List (Char × List Char)) (cs : List Char) :
    replaceInTurn steps cs = cs.flatMap fun c => replaceInTurn steps [c] := by
  induction steps generalizing cs with
  | nil => exact (List.flatMap_singleton' cs).symm
  | cons step steps ih =>
    have pass (ds : List Char) : replaceInTurn (step :: steps) ds =
        ds.flatMap fun c => replaceInTurn steps (if c = step.1 then step.2 else [c]) := by
      show replaceInTurn steps (replaceAll step.1 [] step.2 ds) = _
      rw [replaceAll_singleton, ih, List.flatMap_assoc]
      exact List.flatMap_congr fun c _ => (ih _).symm
    rw [pass]
    refine List.flatMap_congr fun c _ => ?_
    rw [pass, List.flatMap_singleton]

end BicepForge.Text
