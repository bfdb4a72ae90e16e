import BicepForge.Text.LowerCase
import BicepForge.Text.Search

/-!
# Lower case behind a blank

The lower case of a character depends on what stands around it in one case only, and there a blank
cuts off what is beyond it. So behind a text that ends with a blank any text has its own lower case,
and words that the first text cannot begin are found there or not at all.
-/

namespace BicepForge.Text

theorem meetsCased_append_blank (cs beyond : List Char) :
    meetsCased (cs ++ ' ' :: beyond) = meetsCased cs := by
  have stop : inRanges caseIgnorableRanges ' ' = false := by decide +kernel
  have bare : inRanges casedRanges ' ' = false := by decide +kernel
  induction cs with
  | nil =>
    rw [List.nil_append, meetsCased, List.dropWhile_cons_of_neg (by simp [stop])]
    exact bare
  | cons c cs ih =>
    unfold meetsCased at ih ⊢
    rw [List.cons_append]
    by_cases skip : inRanges caseIgnorableRanges c = true
    · rw [List.dropWhile_cons_of_pos skip, List.dropWhile_cons_of_pos skip]
      exact ih
    · rw [List.dropWhile_cons_of_neg skip, List.dropWhile_cons_of_neg skip]

/-- What is beyond a blank does not matter. -/
theorem lowerAfter_append_blank (before beyond cs : List Char) :
    lowerAfter (before ++ ' ' :: beyond) cs = lowerAfter before cs := by
  induction cs generalizing before with
  | nil => rfl
  | cons c cs ih =>
    rw [lowerAfter, lowerAfter, meetsCased_append_blank]
    exact congrArg _ (ih (c :: before))

/-- Only a sigma looks at what follows it. -/
theorem lowerAfter_append {before xs : List Char} (plain : 'Σ' ∉ xs) (ys : List Char) :
    lowerAfter before (xs ++ ys) =
      lowerAfter before xs ++ lowerAfter (xs.reverse ++ before) ys := by
  induction xs generalizing before with
  | nil => rfl
  | cons c xs ih =>
    rw [List.mem_cons, not_or] at plain
    obtain ⟨sigma, plain⟩ := plain
    rw [List.cons_append, lowerAfter, lowerAfter, if_neg (Ne.symm sigma), if_neg (Ne.symm sigma),
      ih plain, List.append_assoc, List.reverse_cons, List.append_assoc]
    rfl

/-- Behind a text that ends with a blank, and in which no sigma is, a text has its own lower case. -/
theorem lower_append {s : String} (plain : 'Σ' ∉ s.toList) (blank : s.toList.getLast? = some ' ')
    (t : String) : lower (s ++ t) = lower s ++ lower t := by
  obtain ⟨front, letters⟩ := List.getLast?_eq_some_iff.mp blank
  rw [lower, lower, lower, String.toList_append, lowerAfter_append plain, ← String.ofList_append,
    letters, List.reverse_append, List.append_assoc]
  exact congrArg (fun rest => String.ofList (lowerAfter [] _ ++ rest))
    (lowerAfter_append_blank [] _ t.toList)

/-- A word cannot begin in a text and go on behind it. -/
def cannotBegin (word : List Char) : List Char → Bool
  | [] => true
  | c :: cs =>
    !(word.isPrefixOf (c :: cs)) && !((c :: cs).isPrefixOf word) && cannotBegin word cs

theorem hasInfix_append {word xs : List Char} (h : cannotBegin word xs = true) (ys : List Char) :
    hasInfix word (xs ++ ys) = hasInfix word ys := by
  induction xs with
  | nil => rfl
  | cons c xs ih =>
    simp only [cannotBegin, Bool.and_eq_true, Bool.not_eq_true'] at h
    obtain ⟨⟨inside, across⟩, behind⟩ := h
    have here : word.isPrefixOf (c :: xs ++ ys) = false := by
      rw [Bool.eq_false_iff, ne_eq, List.isPrefixOf_iff_prefix]
      intro found
      rcases List.prefix_or_prefix_of_prefix found (List.prefix_append _ _) with short | long
      · rw [List.isPrefixOf_iff_prefix.mpr short] at inside
        cases inside
      · rw [List.isPrefixOf_iff_prefix.mpr long] at across
        cases across
    rw [List.cons_append] at here ⊢
    rw [hasInfix, here, Bool.false_or]
    exact ih behind

end BicepForge.Text
