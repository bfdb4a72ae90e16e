import BicepForge.Proofs.Bicep.RoundTrip
import BicepForge.Proofs.Text.Replacement
import Mathlib.Data.List.Induction
import Mathlib.Tactic.SplitIfs

/-!
# Escaping

A character is escaped by an odd number of backslashes right before it. In a string literal every
quote and every dollar sign before a brace is escaped, and no line ends; undoing the escapes gives
back the text. A text that keeps its holes is escaped in the same way but for its dollar signs, so
that the holes of the text are what is left open in it. Replacing the characters one after the other
does the same as escaping them in one pass.
-/

namespace BicepForge.Bicep.Literal

open Value

/-! ## Backslashes -/

/-- The number of backslashes at the end of a text. -/
def slashes (cs : List Char) : Nat :=
  (cs.reverse.takeWhile (· == '\\')).length

/-- Whether a pattern stands anywhere in a text without being escaped, where the first character is
escaped or not. -/
def standsOpen (pattern : List Char) : (escaped : Bool) → List Char → Bool
  | _, [] => false
  | escaped, c :: cs =>
    (!escaped && pattern.isPrefixOf (c :: cs)) || standsOpen pattern (c == '\\' && !escaped) cs

/-- Whether a text is escaped behind another one. -/
def escapes (escaped : Bool) (cs : List Char) : Bool :=
  cs.foldl (fun escaped c => c == '\\' && !escaped) escaped

theorem slashes_concat (cs : List Char) (c : Char) :
    slashes (cs ++ [c]) = if c = '\\' then slashes cs + 1 else 0 := by
  rw [slashes, List.reverse_concat, List.takeWhile_cons]
  by_cases slash : c = '\\'
  · rw [if_pos slash, if_pos (beq_iff_eq.mpr slash), List.length_cons, slashes]
  · rw [if_neg slash, if_neg (mt beq_iff_eq.mp slash), List.length_nil]

/-- What stands behind an odd number of backslashes is escaped. -/
theorem escapes_iff (cs : List Char) : escapes false cs = true ↔ slashes cs % 2 = 1 := by
  induction cs using List.reverseRecOn with
  | nil => decide
  | append_singleton cs c ih =>
    have last : escapes false (cs ++ [c]) = (c == '\\' && !escapes false cs) := by
      rw [escapes, List.foldl_concat, escapes]
    rw [last, slashes_concat]
    by_cases slash : c = '\\'
    · rw [if_pos slash, beq_iff_eq.mpr slash, Bool.true_and, Bool.not_eq_true', ← Bool.not_eq_true,
        ih]
      omega
    · rw [if_neg slash, beq_eq_false_iff_ne.mpr slash, Bool.false_and]
      decide

/-- A pattern stands open exactly where what is ahead of it does not escape it. -/
theorem standsOpen_iff {pattern : List Char} (notEmpty : pattern ≠ []) (escaped : Bool)
    (cs : List Char) : standsOpen pattern escaped cs = true ↔
      ∃ front back, cs = front ++ pattern ++ back ∧ escapes escaped front = false := by
  induction cs generalizing escaped with
  | nil =>
    constructor
    · intro h
      cases h
    · rintro ⟨front, back, whole, -⟩
      simp [notEmpty] at whole
  | cons c cs ih =>
    rw [standsOpen, Bool.or_eq_true, Bool.and_eq_true, Bool.not_eq_true', ih,
      List.isPrefixOf_iff_prefix]
    constructor
    · rintro (⟨plain, back, whole⟩ | ⟨front, back, rfl, plain⟩)
      · exact ⟨[], back, whole.symm, plain⟩
      · exact ⟨c :: front, back, rfl, plain⟩
    · rintro ⟨front, back, whole, plain⟩
      cases front with
      | nil => exact .inl ⟨plain, back, whole.symm⟩
      | cons d front =>
        obtain ⟨rfl, rfl⟩ := List.cons.inj whole
        exact .inr ⟨front, back, rfl, plain⟩

/-- Where a pattern never stands open, an odd number of backslashes is right before it. -/
theorem odd_slashes {pattern : List Char} (notEmpty : pattern ≠ []) {cs : List Char}
    (h : standsOpen pattern false cs = false) {front back : List Char}
    (whole : cs = front ++ pattern ++ back) : slashes front % 2 = 1 := by
  rw [← escapes_iff]
  by_contra plain
  rw [Bool.not_eq_true] at plain
  rw [(standsOpen_iff notEmpty false cs).mpr ⟨front, back, whole, plain⟩] at h
  cases h

/-! ## Escaped characters -/

/-- What an escaped character may do is to begin the pattern where it stands as it is. -/
theorem standsOpen_escapeChar {pattern : List Char} (notEmpty : pattern ≠ [])
    (h : pattern.head? ≠ some '\\') (c : Char) (cs : List Char) :
    standsOpen pattern false (escapeChar c ++ cs) =
      (decide (escapeChar c = [c]) && pattern.isPrefixOf (c :: cs) ||
        standsOpen pattern false cs) := by
  obtain ⟨first, more, rfl⟩ := List.exists_cons_of_ne_nil notEmpty
  have foreign (cs : List Char) : (first :: more).isPrefixOf ('\\' :: cs) = false := by
    have other : first ≠ '\\' := fun same => h (by rw [same]; rfl)
    rw [List.isPrefixOf_cons_cons, beq_eq_false_iff_ne.mpr other, Bool.false_and]
  have pair (d : Char) : standsOpen (first :: more) false ('\\' :: d :: cs) =
      standsOpen (first :: more) false cs := by
    rw [standsOpen, foreign, standsOpen]
    simp
  unfold escapeChar
  split_ifs with slash quote feed carriage tab
  · subst slash
    exact pair '\\'
  · subst quote
    exact pair '\''
  · subst feed
    exact pair 'n'
  · subst carriage
    exact pair 'r'
  · subst tab
    exact pair 't'
  · rw [List.singleton_append, standsOpen, beq_eq_false_iff_ne.mpr slash]
    simp

/-- What is replaced one after the other in a literal. -/
def replacements : List (Char × List Char) :=
  [('\\', ['\\', '\\']), ('\'', ['\\', '\'']), ('\n', ['\\', 'n']), ('\r', ['\\', 'r']),
   ('\t', ['\\', 't'])]

/-- The replacements do to a character what escaping does to it. -/
theorem replaceInTurn_singleton (c : Char) :
    Text.replaceInTurn replacements [c] = escapeChar c := by
  have other (d : Char) (r : List Char) (ne : c ≠ d) : Text.replaceAll d [] r [c] = [c] := by
    rw [Text.replaceAll_singleton, List.flatMap_singleton, if_neg ne]
  unfold escapeChar
  split_ifs with slash quote feed carriage tab
  · subst slash
    decide
  · subst quote
    decide
  · subst feed
    decide
  · subst carriage
    decide
  · subst tab
    decide
  · simp only [Text.replaceInTurn, replacements, List.foldl_cons, List.foldl_nil, other _ _ slash,
      other _ _ quote, other _ _ feed, other _ _ carriage, other _ _ tab]

/-- Replacing the characters in turn is escaping them one by one. -/
theorem replaceInTurn_eq_escape (cs : List Char) :
    Text.replaceInTurn replacements cs = escape cs := by
  rw [Text.replaceInTurn_eq_flatMap, escape]
  exact List.flatMap_congr fun c _ => replaceInTurn_singleton c

/-! ## Holes -/

/-- The pattern that opens a hole. -/
def holeOpening : List Char := ['$', '\x7b']

theorem isPrefixOf_holeOpening {c : Char} {cs : List Char} :
    holeOpening.isPrefixOf (c :: cs) = true ↔ c = '$' ∧ cs.head? = some '\x7b' := by
  cases cs with
  | nil => simp [holeOpening]
  | cons d ds =>
    rw [holeOpening, List.isPrefixOf_cons_cons, List.isPrefixOf_cons_cons, List.isPrefixOf_nil_left,
      Bool.and_true, Bool.and_eq_true, beq_iff_eq, beq_iff_eq, List.head?_cons, Option.some_inj,
      eq_comm, eq_comm (a := d)]

theorem escapeChar_dollar : escapeChar '$' = ['$'] := by
  decide

/-- Only a brace is written as one that begins with a brace. -/
theorem head?_escapeChar_append (c : Char) (rest : List Char) :
    (escapeChar c ++ rest).head? = some '\x7b' ↔ c = '\x7b' := by
  unfold escapeChar
  split_ifs with slash quote feed carriage tab
  · simp [slash]
  · simp [quote]
  · simp [feed]
  · simp [carriage]
  · simp [tab]
  · exact Option.some_inj

theorem head?_escape {cs : List Char} :
    (escape cs).head? = some '\x7b' ↔ cs.head? = some '\x7b' := by
  cases cs with
  | nil => exact Iff.rfl
  | cons c cs =>
    rw [escape, List.flatMap_cons, head?_escapeChar_append]
    exact Option.some_inj.symm

/-- The holes of a text are open in it when it is escaped, and no others are. -/
theorem standsOpen_escape (cs : List Char) :
    standsOpen holeOpening false (escape cs) = Text.hasInfix holeOpening cs := by
  induction cs with
  | nil => rfl
  | cons c cs ih =>
    have here : (decide (escapeChar c = [c]) && holeOpening.isPrefixOf (c :: escape cs)) =
        holeOpening.isPrefixOf (c :: cs) := by
      rw [Bool.eq_iff_iff, Bool.and_eq_true, decide_eq_true_eq, isPrefixOf_holeOpening,
        isPrefixOf_holeOpening, head?_escape]
      constructor
      · rintro ⟨-, opens⟩
        exact opens
      · rintro ⟨rfl, brace⟩
        exact ⟨escapeChar_dollar, rfl, brace⟩
    rw [escape, List.flatMap_cons, ← escape, standsOpen_escapeChar (by decide) (by decide), here, ih]
    rfl

/-- A literal is escaped one character after the other, but for the dollar signs of its holes. -/
theorem replaceAll_escape (cs : List Char) :
    Text.replaceAll '$' ['\x7b'] ['\\', '$', '\x7b'] (escape cs) = escapeLiteral cs := by
  induction cs using escapeLiteral.induct with
  | case1 => rfl
  | case2 cs ih =>
    have whole : escape ('$' :: '\x7b' :: cs) = '$' :: ['\x7b'] ++ escape cs := rfl
    rw [whole, Text.replaceAll_pattern, ih]
    rfl
  | case3 c cs plain ih =>
    have whole : escape (c :: cs) = escapeChar c ++ escape cs := rfl
    rw [whole, escapeLiteral.eq_3 c cs plain, ← ih]
    by_cases dollar : c = '$'
    · subst dollar
      have closed : holeOpening.isPrefixOf ('$' :: escape cs) = false := by
        rw [Bool.eq_false_iff, Ne, isPrefixOf_holeOpening, head?_escape]
        rintro ⟨-, brace⟩
        obtain ⟨rest, rfl⟩ := List.head?_eq_some_iff.mp brace
        exact plain rest rfl rfl
      exact Text.replaceAll_cons '$' ['\x7b'] _ closed
    · have foreign : '$' ∉ escapeChar c := by
        unfold escapeChar
        split_ifs
        · decide
        · decide
        · decide
        · decide
        · decide
        · exact fun mem => dollar (List.mem_singleton.mp mem).symm
      exact Text.replaceAll_append_of_notMem '$' ['\x7b'] _ foreign _

/-! ## Literals -/

/-- A pattern that no character and no hole of a literal begins stands open nowhere in it. -/
theorem standsOpen_escapeLiteral {pattern : List Char}
    (known : pattern = ['\''] ∨ pattern = holeOpening) (cs : List Char) :
    standsOpen pattern false (escapeLiteral cs) = false := by
  have notEmpty : pattern ≠ [] := by
    rcases known with rfl | rfl <;> decide
  have foreign : pattern.head? ≠ some '\\' := by
    rcases known with rfl | rfl <;> decide
  induction cs using escapeLiteral.induct with
  | case1 => rfl
  | case2 cs ih =>
    have brace : pattern.isPrefixOf ('\x7b' :: escapeLiteral cs) = false := by
      rcases known with rfl | rfl <;> rfl
    have slash : pattern.isPrefixOf ('\\' :: '$' :: '\x7b' :: escapeLiteral cs) = false := by
      rcases known with rfl | rfl <;> rfl
    rw [escapeLiteral, standsOpen, slash, standsOpen, standsOpen]
    simp [brace, ih]
  | case3 c cs plain ih =>
    rw [escapeLiteral.eq_3 c cs plain, standsOpen_escapeChar notEmpty foreign, ih, Bool.or_false,
      Bool.and_eq_false_imp]
    intro same
    rw [decide_eq_true_eq] at same
    rcases known with rfl | rfl
    · rw [List.isPrefixOf_cons_cons, Bool.and_eq_false_imp]
      intro quote
      rw [← eq_of_beq quote] at same
      cases same
    · rw [Bool.eq_false_iff, Ne, isPrefixOf_holeOpening]
      rintro ⟨rfl, brace⟩
      have behind : (escapeLiteral cs ++ ['\'']).head? = some '\x7b' := by
        rw [List.head?_append, brace]
        rfl
      obtain ⟨rest, rfl⟩ := List.head?_eq_some_iff.mp (head?_escapeLiteral behind)
      exact plain rest rfl rfl

/-- Undoes the escapes in a text; none if a backslash stands at its end or before a character that
cannot be escaped. -/
def unescape? : List Char → Option (List Char)
  | [] => some []
  | ['\\'] => none
  | '\\' :: c :: cs => (unescaped? c).bind fun d => (unescape? cs).map (d :: ·)
  | c :: cs => (unescape? cs).map (c :: ·)

theorem unescape?_escapeChar (c : Char) (cs : List Char) :
    unescape? (escapeChar c ++ cs) = (unescape? cs).map (c :: ·) := by
  unfold escapeChar
  split_ifs with slash quote feed carriage tab
  · subst slash
    rfl
  · subst quote
    rfl
  · subst feed
    rfl
  · subst carriage
    rfl
  · subst tab
    rfl
  · rw [List.singleton_append, unescape?.eq_4]
    · exact fun same _ => slash same
    · exact fun _ _ same _ => slash same

theorem unescape?_escapeLiteral (cs : List Char) : unescape? (escapeLiteral cs) = some cs := by
  induction cs using escapeLiteral.induct with
  | case1 => rfl
  | case2 cs ih =>
    have step : unescape? (escapeLiteral ('$' :: '\x7b' :: cs)) =
        (unescape? ('\x7b' :: escapeLiteral cs)).map ('$' :: ·) := rfl
    have brace : unescape? ('\x7b' :: escapeLiteral cs) = (unescape? (escapeLiteral cs)).map ('\x7b' :: ·) :=
      unescape?_escapeChar '\x7b' _
    rw [step, brace, ih]
    rfl
  | case3 c cs plain ih =>
    rw [escapeLiteral.eq_3 c cs plain, unescape?_escapeChar, ih]
    rfl

/-- An escaped character is a pair of fixed ones, or it stands as it is. -/
theorem mem_escapeChar {c d : Char} (h : d ∈ escapeChar c) :
    d ∈ ['\\', '\'', 'n', 'r', 't'] ∨ d = c ∧ escapeChar c = [c] := by
  have pair {e : Char} (known : e ∈ ['\\', '\'', 'n', 'r', 't']) (mem : d ∈ ['\\', e]) :
      d ∈ ['\\', '\'', 'n', 'r', 't'] := by
    rcases List.mem_pair.mp mem with rfl | rfl
    · decide
    · exact known
  unfold escapeChar at h ⊢
  split_ifs at h ⊢
  · exact .inl (pair (by decide) h)
  · exact .inl (pair (by decide) h)
  · exact .inl (pair (by decide) h)
  · exact .inl (pair (by decide) h)
  · exact .inl (pair (by decide) h)
  · exact .inr ⟨List.mem_singleton.mp h, rfl⟩

/-- Line feeds, carriage returns and tabs never stand as they are. -/
theorem notMem_escapeChar {d : Char} (h : d ∈ ['\n', '\r', '\t']) (c : Char) :
    d ∉ escapeChar c := by
  have others : ∀ d ∈ ['\n', '\r', '\t'],
      d ∉ ['\\', '\'', 'n', 'r', 't'] ∧ escapeChar d ≠ [d] := by
    decide
  intro mem
  rcases mem_escapeChar mem with fixed | ⟨rfl, plain⟩
  · exact (others d h).1 fixed
  · exact (others d h).2 plain

theorem notMem_escape {d : Char} (h : d ∈ ['\n', '\r', '\t']) (cs : List Char) :
    d ∉ escape cs := by
  intro mem
  obtain ⟨c, -, mem⟩ := List.mem_flatMap.mp mem
  exact notMem_escapeChar h c mem

theorem notMem_escapeLiteral {d : Char} (h : d ∈ ['\n', '\r', '\t']) (cs : List Char) :
    d ∉ escapeLiteral cs := by
  have others : ∀ d ∈ ['\n', '\r', '\t'], d ∉ ['\\', '$', '\x7b'] := by decide
  induction cs using escapeLiteral.induct with
  | case1 => exact List.not_mem_nil
  | case2 cs ih =>
    intro mem
    rcases List.mem_append.mp (show d ∈ ['\\', '$', '\x7b'] ++ escapeLiteral cs from mem) with
      fixed | more
    · exact others d h fixed
    · exact ih more
  | case3 c cs plain ih =>
    rw [escapeLiteral.eq_3 c cs plain, List.mem_append, not_or]
    exact ⟨notMem_escapeChar h c, ih⟩

/-- The inside of a literal: one line in which every quote and every opening of a hole is
escaped. -/
structure Guarded (inside : List Char) : Prop where
  line : '\n' ∉ inside ∧ '\r' ∉ inside
  quotes : ∀ front back, inside = front ++ '\'' :: back → slashes front % 2 = 1
  holes : ∀ front back, inside = front ++ '$' :: '\x7b' :: back → slashes front % 2 = 1

theorem guarded_escapeLiteral (cs : List Char) : Guarded (escapeLiteral cs) where
  line := ⟨notMem_escapeLiteral (by decide) cs, notMem_escapeLiteral (by decide) cs⟩
  quotes front back whole := by
    rw [List.append_cons] at whole
    exact odd_slashes (by decide) (standsOpen_escapeLiteral (.inl rfl) cs) whole
  holes front back whole := by
    have pattern : front ++ '$' :: '\x7b' :: back = front ++ holeOpening ++ back := by
      rw [List.append_assoc]
      rfl
    rw [pattern] at whole
    exact odd_slashes (by decide) (standsOpen_escapeLiteral (.inr rfl) cs) whole

/-- A string literal is one line between two quotes, in which nothing ends the literal or opens a
hole. Undoing the escapes gives back the text, and so does reading up to the closing quote. What is
between the quotes comes from one pass over the characters, and also from replacing them one after
the other and the openings of holes at last. -/
theorem text_str (s : String) :
    (Value.str s).text = String.ofList (inQuotes (escapeLiteral s.toList)) ∧
      Guarded (escapeLiteral s.toList) ∧
      unescape? (escapeLiteral s.toList) = some s.toList ∧
      (∀ rest, quoted? (escapeLiteral s.toList ++ '\'' :: rest) = some (s.toList, rest)) ∧
      Text.replaceAll '$' ['\x7b'] ['\\', '$', '\x7b']
        (Text.replaceInTurn replacements s.toList) = escapeLiteral s.toList := by
  refine ⟨rfl, guarded_escapeLiteral _, unescape?_escapeLiteral _, quoted?_escapeLiteral _, ?_⟩
  rw [replaceInTurn_eq_escape]
  exact replaceAll_escape _

example : String.ofList (escapeLiteral "it's $\x7bx\x7d".toList) = "it\\'s \\$\x7bx\x7d" := by
  decide

end BicepForge.Bicep.Literal
