import BicepForge.Text.Search

/-!
# Texts in pieces

Splitting a text at a character is what the library's `List.splitOn` does, so its laws hold: the
pieces make up the text again, and what stands on either side of the character is split apart. No
piece holds the character, and an ending that does not hold it either belongs to the last piece.
-/

namespace BicepForge.Text

theorem splitOn_eq (c : Char) (cs : List Char) : splitOn c cs = cs.splitOn c := by
  induction cs with
  | nil => rw [List.splitOn_nil]; rfl
  | cons d ds ih =>
    rw [splitOn, ih, List.splitOn_cons_eq_if_modifyHead]
    cases pieces : ds.splitOn c with
    | nil => exact absurd pieces (List.splitOn_ne_nil c ds)
    | cons piece more => simp only [List.modifyHead_cons, beq_iff_eq]

theorem splitOn_ne_nil (c : Char) (cs : List Char) : splitOn c cs ≠ [] := by
  rw [splitOn_eq]
  exact List.splitOn_ne_nil c cs

theorem splitOn_of_notMem {c : Char} {cs : List Char} (h : c ∉ cs) : splitOn c cs = [cs] := by
  rw [splitOn_eq, List.splitOn_eq_singleton h]

/-- The character splits a text. -/
theorem splitOn_append (c : Char) (cs rest : List Char) :
    splitOn c (cs ++ c :: rest) = splitOn c cs ++ splitOn c rest := by
  rw [splitOn_eq, splitOn_eq, splitOn_eq, List.splitOn_append_cons_self]

theorem splitOn_line {c : Char} {line : List Char} (own : c ∉ line) (cs : List Char) :
    splitOn c (line ++ c :: cs) = line :: splitOn c cs := by
  rw [splitOn_append, splitOn_of_notMem own, List.singleton_append]

theorem notMem_of_mem_splitOn {c : Char} {cs : List Char} : ∀ piece ∈ splitOn c cs, c ∉ piece := by
  induction cs with
  | nil => simp [splitOn]
  | cons d ds ih =>
    rw [splitOn_eq, List.splitOn_cons_eq_if_modifyHead, ← splitOn_eq]
    by_cases same : d = c
    · rw [if_pos (beq_iff_eq.mpr same), List.forall_mem_cons]
      exact ⟨List.not_mem_nil, ih⟩
    · rw [if_neg (mt beq_iff_eq.mp same)]
      cases pieces : splitOn c ds with
      | nil => simp
      | cons first more =>
        rw [pieces, List.forall_mem_cons] at ih
        rw [List.modifyHead_cons, List.forall_mem_cons]
        exact ⟨List.not_mem_cons_of_ne_of_not_mem (Ne.symm same) ih.1, ih.2⟩

/-- An ending without the character belongs to the last piece. -/
theorem exists_splitOn_append {c : Char} {ending : List Char} (h : c ∉ ending) (cs : List Char) :
    ∃ front last, splitOn c cs = front ++ [last] ∧
      splitOn c (cs ++ ending) = front ++ [last ++ ending] := by
  induction cs with
  | nil =>
    refine ⟨[], [], rfl, ?_⟩
    rw [List.nil_append, splitOn_of_notMem h]
    rfl
  | cons d ds ih =>
    obtain ⟨front, last, whole, longer⟩ := ih
    rw [splitOn_eq] at whole longer
    rw [List.cons_append, splitOn_eq, splitOn_eq, List.splitOn_cons_eq_if_modifyHead,
      List.splitOn_cons_eq_if_modifyHead, whole, longer]
    by_cases same : d = c
    · rw [if_pos (beq_iff_eq.mpr same), if_pos (beq_iff_eq.mpr same)]
      exact ⟨[] :: front, last, rfl, rfl⟩
    · rw [if_neg (mt beq_iff_eq.mp same), if_neg (mt beq_iff_eq.mp same)]
      cases front with
      | nil => exact ⟨[], d :: last, rfl, rfl⟩
      | cons first more => exact ⟨(d :: first) :: more, last, rfl, rfl⟩

end BicepForge.Text
