import BicepForge.Text.Order
import Mathlib.Data.List.Sort
import Mathlib.Data.String.Basic
import Mathlib.Order.Bounds.Basic

/-!
# The order of texts and of their bytes

Texts are ordered by their code points. UTF-8 keeps that order: the encodings of two characters
differ before either of them ends, and the first byte in which they differ goes the way of the code
points. So a list of texts that is sorted is sorted by the bytes, too, and its last text is the
greatest.
-/

namespace BicepForge.Text

/-- The bytes of a text in UTF-8. -/
def bytes (s : String) : List UInt8 :=
  s.toUTF8.data.toList

theorem bytes_eq_flatMap (s : String) : bytes s = s.toList.flatMap String.utf8EncodeChar := by
  conv => lhs; rw [bytes, ← String.ofList_toList (s := s)]
  rw [String.toUTF8, String.toByteArray_ofList, List.utf8Encode, List.toList_data_toByteArray]

/-! ## Characters -/

/-- Sequences of bytes go the way of their first bytes, or of what follows where these agree. -/
theorem ofNat_cons_lt {m n : Nat} {u v : List UInt8} (bound : n < 256) (le : m ≤ n)
    (h : m = n → u < v) : UInt8.ofNat m :: u < UInt8.ofNat n :: v := by
  rw [List.cons_lt_cons_iff]
  rcases Nat.lt_or_eq_of_le le with lt | rfl
  · left
    rw [UInt8.lt_iff_toNat_lt, UInt8.toNat_ofNat', UInt8.toNat_ofNat']
    omega
  · exact .inr ⟨rfl, h rfl⟩

/-- Whatever follows, the encoding of the lower character comes first. -/
theorem utf8EncodeChar_append_lt {c d : Char} (h : c < d) (u v : List UInt8) :
    String.utf8EncodeChar c ++ u < String.utf8EncodeChar d ++ v := by
  have below : c.val.toNat < d.val.toNat := h
  have bound : d.val.toNat < 1114112 := by
    rcases d.valid with h | h
    · exact Nat.lt_trans h (by decide)
    · exact h.2
  -- the first byte tells the widths apart; within a width the digits are compared one by one
  fun_cases String.utf8EncodeChar c with
  | case1 =>
    fun_cases String.utf8EncodeChar d with
    | case1 | case2 | case3 | case4 => exact ofNat_cons_lt (by omega) (by omega) (by omega)
  | case2 =>
    fun_cases String.utf8EncodeChar d with
    | case1 => omega
    | case2 =>
      refine ofNat_cons_lt (by omega) (by omega) fun high => ?_
      exact ofNat_cons_lt (by omega) (by omega) (by omega)
    | case3 | case4 => exact ofNat_cons_lt (by omega) (by omega) (by omega)
  | case3 =>
    fun_cases String.utf8EncodeChar d with
    | case1 | case2 => omega
    | case3 =>
      refine ofNat_cons_lt (by omega) (by omega) fun high => ?_
      refine ofNat_cons_lt (by omega) (by omega) fun middle => ?_
      exact ofNat_cons_lt (by omega) (by omega) (by omega)
    | case4 => exact ofNat_cons_lt (by omega) (by omega) (by omega)
  | case4 =>
    fun_cases String.utf8EncodeChar d with
    | case1 | case2 | case3 => omega
    | case4 =>
      refine ofNat_cons_lt (by omega) (by omega) fun highest => ?_
      refine ofNat_cons_lt (by omega) (by omega) fun high => ?_
      refine ofNat_cons_lt (by omega) (by omega) fun middle => ?_
      exact ofNat_cons_lt (by omega) (by omega) (by omega)

/-! ## Texts -/

theorem flatMap_utf8EncodeChar_lt {cs ds : List Char} (h : cs < ds) :
    cs.flatMap String.utf8EncodeChar < ds.flatMap String.utf8EncodeChar := by
  induction cs generalizing ds with
  | nil =>
    cases ds with
    | nil => cases h
    | cons d ds =>
      rw [List.flatMap_nil, List.flatMap_cons]
      cases encoded : String.utf8EncodeChar d with
      | nil => exact absurd encoded String.utf8EncodeChar_ne_nil
      | cons b bs => exact List.nil_lt_cons _ _
  | cons c cs ih =>
    cases ds with
    | nil => cases h
    | cons d ds =>
      rw [List.flatMap_cons, List.flatMap_cons]
      rcases List.cons_lt_cons_iff.mp h with lt | ⟨rfl, lt⟩
      · exact utf8EncodeChar_append_lt lt _ _
      · exact List.append_left_lt (ih lt)

theorem bytes_lt_of_lt {s t : String} (h : s < t) : bytes s < bytes t := by
  rw [bytes_eq_flatMap, bytes_eq_flatMap]
  exact flatMap_utf8EncodeChar_lt (String.lt_iff_toList_lt.mp h)

/-- Texts are ordered like their bytes. -/
theorem bytes_le_iff {s t : String} : bytes s ≤ bytes t ↔ s ≤ t := by
  constructor
  · intro h
    apply le_of_not_gt
    intro lt
    exact h (bytes_lt_of_lt lt)
  · intro h
    rcases h.lt_or_eq with lt | rfl
    · exact List.le_of_lt (bytes_lt_of_lt lt)
    · exact List.le_refl _

/-! ## Sorted texts -/

/-- The texts are in the order of their bytes. -/
def Sorted (texts : List String) : Prop :=
  texts.Pairwise fun s t => bytes s ≤ bytes t

theorem sorted_iff {texts : List String} : Sorted texts ↔ texts.Pairwise (· ≤ ·) := by
  constructor
  · exact List.Pairwise.imp fun h => bytes_le_iff.mp h
  · exact List.Pairwise.imp fun h => bytes_le_iff.mpr h

theorem sorted_sorted (texts : List String) : Sorted (sorted texts) :=
  sorted_iff.mpr (List.pairwise_mergeSort' (· ≤ ·) texts)

/-- The last of sorted texts is the greatest. -/
theorem Sorted.getLast?_eq_some_iff {texts : List String} (h : Sorted texts) {s : String} :
    texts.getLast? = some s ↔ IsGreatest {t | t ∈ texts} s := by
  have last : ∀ {front : List String} {t : String}, texts = front ++ [t] →
      IsGreatest {u | u ∈ texts} t := by
    rintro front t rfl
    refine ⟨List.mem_append_right _ List.mem_cons_self, ?_⟩
    intro u hu
    rcases List.mem_append.mp hu with hu | hu
    · exact (List.pairwise_append.mp (sorted_iff.mp h)).2.2 u hu t List.mem_cons_self
    · exact le_of_eq (List.mem_singleton.mp hu)
  rw [List.getLast?_eq_some_iff]
  constructor
  · rintro ⟨front, same⟩
    exact last same
  · intro greatest
    rcases List.eq_nil_or_concat texts with rfl | ⟨front, t, same⟩
    · cases greatest.1
    · rw [List.concat_eq_append] at same
      exact ⟨front, (last same).unique greatest ▸ same⟩

end BicepForge.Text
