import BicepForge.Json.Printer
import Mathlib.Tactic.Common

/-!
# The text of numbers

The text of a number begins with a digit or a minus sign and is made of few characters. That is
all that a reader of generated code has to know of it.
-/

namespace BicepForge.Number

theorem isDigit_of_mem_toDigits {n : Nat} {c : Char} (h : c ∈ Nat.toDigits 10 n) :
    c.isDigit = true :=
  Nat.isDigit_of_mem_toDigits (by decide) (by decide) h

/-- An integer is written as its digits, behind a minus sign if it is negative. -/
theorem toList_toString_int (i : Int) :
    (toString i).toList =
      if 0 ≤ i then Nat.toDigits 10 i.toNat else '-' :: Nat.toDigits 10 (-i).toNat := by
  rw [Int.toString_eq_repr, Int.repr_eq_if]
  split <;> simp

def isNumeral (c : Char) : Bool :=
  c.isDigit || ['-', '+', '.', 'e'].contains c

theorem isNumeral_of_isDigit {c : Char} (h : c.isDigit = true) : isNumeral c = true := by
  simp [isNumeral, h]

theorem all_isNumeral_toDigits (n : Nat) : (Nat.toDigits 10 n).all isNumeral = true :=
  List.all_eq_true.mpr fun _ hc => isNumeral_of_isDigit (isDigit_of_mem_toDigits hc)

/-- A text of such characters that begins with a digit. -/
def IsUnsigned (cs : List Char) : Prop :=
  cs.all isNumeral = true ∧ ∃ c, cs.head? = some c ∧ c.isDigit = true

theorem IsUnsigned.append {xs ys : List Char} (hx : IsUnsigned xs) (hy : ys.all isNumeral = true) :
    IsUnsigned (xs ++ ys) := by
  obtain ⟨all, c, head, digit⟩ := hx
  refine ⟨by rw [List.all_append, all, hy]; rfl, c, ?_, digit⟩
  rw [List.head?_append, head]
  rfl

theorem isUnsigned_toDigits (n : Nat) : IsUnsigned (Nat.toDigits 10 n) := by
  refine ⟨all_isNumeral_toDigits n, ?_⟩
  cases h : Nat.toDigits 10 n with
  | nil => exact absurd h Nat.toDigits_ne_nil
  | cons c cs => exact ⟨c, rfl, isDigit_of_mem_toDigits (n := n) (by simp [h])⟩

/-- The first digits of a number, of which there is at least one. -/
theorem isUnsigned_take {k : Nat} (hk : 0 < k) (n : Nat) :
    IsUnsigned ((Nat.toDigits 10 n).take k) := by
  obtain ⟨all, c, head, digit⟩ := isUnsigned_toDigits n
  refine ⟨?_, c, ?_, digit⟩
  · rw [List.all_eq_true] at all ⊢
    exact fun d hd => all d (List.mem_of_mem_take hd)
  · rw [List.head?_take, if_neg (by omega), head]

theorem all_isNumeral_zeros (n : Nat) : (List.replicate n '0').all isNumeral = true := by
  simp [isNumeral]

theorem isUnsigned_positional (d : Decimal) : IsUnsigned d.positional.toList := by
  simp only [Decimal.positional, String.toList_ofList]
  by_cases whole : 0 ≤ d.exponent
  · rw [if_pos whole]
    refine IsUnsigned.append ?_ (by decide)
    exact (isUnsigned_toDigits _).append (all_isNumeral_zeros _)
  rw [if_neg whole]
  by_cases inside : (-d.exponent).toNat < (Nat.toDigits 10 d.digits).length
  · rw [if_pos inside]
    refine (isUnsigned_take (by omega) _).append ?_
    rw [List.all_cons, Bool.and_eq_true]
    refine ⟨by decide, List.all_eq_true.mpr fun c hc => ?_⟩
    exact List.all_eq_true.mp (all_isNumeral_toDigits _) c (List.mem_of_mem_drop hc)
  · rw [if_neg inside]
    have zero : IsUnsigned ['0', '.'] := ⟨by decide, '0', rfl, by decide⟩
    show IsUnsigned (['0', '.'] ++ (_ ++ _))
    refine zero.append ?_
    rw [List.all_append, all_isNumeral_zeros, all_isNumeral_toDigits]
    rfl

theorem isUnsigned_scientific (d : Decimal) : IsUnsigned d.scientific.toList := by
  have power (n : Nat) : (toString n).toList.all isNumeral = true := by
    rw [Nat.toString_eq_repr, Nat.toList_repr]
    exact all_isNumeral_toDigits n
  simp only [Decimal.scientific, String.toList_append, String.toList_ofList]
  refine IsUnsigned.append (IsUnsigned.append (IsUnsigned.append ?_ (by decide)) ?_) (power _)
  · refine (isUnsigned_take (by decide) _).append ?_
    split
    · rfl
    · rw [List.all_cons, Bool.and_eq_true, List.all_eq_true]
      refine ⟨by decide, fun c hc => ?_⟩
      exact List.all_eq_true.mp (all_isNumeral_toDigits d.digits) c (List.mem_of_mem_tail hc)
  · split_ifs <;> decide

/-- The text of a number begins with a digit or a minus sign, and has no other characters than
numbers have. -/
theorem toList_text (n : Number) :
    n.text.toList.all isNumeral = true ∧
      ∃ c, n.text.toList.head? = some c ∧ (c.isDigit = true ∨ c = '-') := by
  have signed {cs : List Char} (h : IsUnsigned cs) (negative : Bool) :
      ((if negative then "-" else "").toList ++ cs).all isNumeral = true ∧
        ∃ c, ((if negative then "-" else "").toList ++ cs).head? = some c ∧
          (c.isDigit = true ∨ c = '-') := by
    obtain ⟨all, c, head, digit⟩ := h
    cases negative with
    | false => exact ⟨by simpa using all, c, by simpa using head, .inl digit⟩
    | true => exact ⟨by simpa [isNumeral] using all, '-', by simp, .inr rfl⟩
  cases n with
  | int i =>
    have digits (n : Nat) := isUnsigned_toDigits n
    rw [text, toList_toString_int]
    split_ifs with sign
    · simpa using signed (digits i.toNat) false
    · simpa using signed (digits (-i).toNat) true
  | float x =>
    simp only [text, floatText, String.toList_append]
    refine signed ?_ x.negative
    split_ifs
    · exact isUnsigned_positional _
    · exact isUnsigned_scientific _

end BicepForge.Number
