import BicepForge.Text.Search
import Mathlib.Data.List.Basic

/-!
# Joined texts

Two texts that are joined by a mark fall apart at the mark, where the first ones do not hold its
first character: what is joined alike was alike. How a joined text begins is told by the first of
its parts, and what occurs in a text is what it can be joined from with something around it.
-/

namespace BicepForge.Text

/-! ## Marks between texts -/

theorem before_mark_inj {c : Char} {xs ys as bs : List Char} (hx : c ∉ xs) (hy : c ∉ ys)
    (h : xs ++ c :: as = ys ++ c :: bs) : xs = ys ∧ as = bs := by
  induction xs generalizing ys with
  | nil =>
    cases ys with
    | nil => exact ⟨rfl, (List.cons.inj h).2⟩
    | cons y ys => exact absurd (List.mem_cons.mpr (.inl (List.cons.inj h).1)) hy
  | cons x xs ih =>
    cases ys with
    | nil => exact absurd (List.mem_cons.mpr (.inl (List.cons.inj h).1.symm)) hx
    | cons y ys =>
      obtain ⟨first, rest⟩ := List.cons.inj h
      obtain ⟨same, behind⟩ := ih (List.not_mem_of_not_mem_cons hx)
        (List.not_mem_of_not_mem_cons hy) rest
      exact ⟨by rw [first, same], behind⟩

theorem joined_inj {s t a b mark : String} {c : Char} {cs : List Char} (hm : mark.toList = c :: cs)
    (hs : c ∉ s.toList) (ht : c ∉ t.toList) (h : s ++ mark ++ a = t ++ mark ++ b) :
    s = t ∧ a = b := by
  have chars := congrArg String.toList h
  simp only [String.toList_append, hm, List.append_assoc, List.cons_append] at chars
  obtain ⟨front, back⟩ := before_mark_inj hs ht chars
  exact ⟨String.toList_inj.mp front, String.toList_inj.mp (List.append_cancel_left back)⟩

/-! ## Beginnings -/

/-- A text that tells itself from a mark by its first characters does so whatever follows. -/
theorem startsWith_append_eq_false {s mark : String} (h : startsWith s mark = false)
    (h' : startsWith mark s = false) (rest : String) : startsWith (s ++ rest) mark = false := by
  rw [startsWith, ← Bool.not_eq_true, List.isPrefixOf_iff_prefix] at h h' ⊢
  rw [String.toList_append]
  intro begins
  exact (List.prefix_or_prefix_of_prefix begins (List.prefix_append _ _)).elim h h'

theorem startsWith_append_self (mark rest : String) : startsWith (mark ++ rest) mark = true := by
  rw [startsWith, List.isPrefixOf_iff_prefix, String.toList_append]
  exact List.prefix_append _ _

theorem startsWith_append_left (front s mark : String) :
    startsWith (front ++ s) (front ++ mark) = startsWith s mark := by
  rw [startsWith, startsWith, Bool.eq_iff_iff, List.isPrefixOf_iff_prefix,
    List.isPrefixOf_iff_prefix, String.toList_append, String.toList_append,
    List.prefix_append_right_inj]

/-! ## Parts -/

theorem occursIn_iff (part s : String) :
    occursIn part s = true ↔ ∃ before behind : String, s = before ++ part ++ behind := by
  rw [occursIn, hasInfix_iff]
  constructor
  · rintro ⟨before, behind, whole⟩
    refine ⟨String.ofList before, String.ofList behind, String.toList_inj.mp ?_⟩
    rw [String.toList_append, String.toList_append, String.toList_ofList, String.toList_ofList,
      whole]
  · rintro ⟨before, behind, rfl⟩
    rw [String.toList_append, String.toList_append]
    exact ⟨before.toList, behind.toList, rfl⟩

end BicepForge.Text
