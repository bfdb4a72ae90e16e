import BicepForge.Proofs.Bicep.Literal
import BicepForge.Proofs.Json.Numeral
import BicepForge.Proofs.Text.Letters
import Mathlib.Tactic.Common

/-!
# Reading literals back

Every literal of a plain value is read back as the value it was written from. The inductions are
over the value and carry the text that stands behind the literal, so that a nested literal is read
back in the same way as one on its own.
-/

namespace BicepForge.Bicep.Literal

open Value

/-! ## Strings -/

theorem quoted?_cons {c : Char} {cs : List Char} (quote : c ≠ '\'') (slash : c ≠ '\\')
    (feed : c ≠ '\n') (hole : c = '$' → cs.head? ≠ some '\x7b') :
    quoted? (c :: cs) = (quoted? cs).map fun (s, rest) => (c :: s, rest) := by
  rw [quoted?.eq_def]
  split <;> simp_all

theorem quoted?_escapeChar {c : Char} {cs : List Char}
    (hole : c = '$' → cs.head? ≠ some '\x7b') :
    quoted? (escapeChar c ++ cs) = (quoted? cs).map fun (s, rest) => (c :: s, rest) := by
  unfold escapeChar
  split_ifs with hs hq hn hr ht
  · subst hs; rfl
  · subst hq; rfl
  · subst hn; rfl
  · subst hr; rfl
  · subst ht; rfl
  · exact quoted?_cons hq hs hn hole

theorem quoted?_escapeLiteral (cs rest : List Char) :
    quoted? (escapeLiteral cs ++ '\'' :: rest) = some (cs, rest) := by
  fun_induction escapeLiteral cs with
  | case1 => rfl
  | case2 cs ih =>
    have hb : quoted? ('\x7b' :: (escapeLiteral cs ++ '\'' :: rest)) = _ :=
      quoted?_cons (by decide) (by decide) (by decide) (fun h => absurd h (by decide))
    simp [quoted?, unescaped?, hb, ih]
  | case3 c cs h ih =>
    rw [List.append_assoc, quoted?_escapeChar, ih]
    · rfl
    · intro hc hb
      cases hcs : cs with
      | nil => simp [hcs, escapeLiteral] at hb
      | cons d ds =>
        have := head?_escapeLiteral hb
        simp only [hcs, List.head?_cons, Option.some.injEq] at this
        exact h ds hc (this ▸ hcs)

/-- Where no hole is opened there is nothing more to escape. -/
theorem escape_eq_escapeLiteral {cs : List Char} (h : Text.hasInfix "$\x7b".toList cs = false) :
    escape cs = escapeLiteral cs := by
  fun_induction escapeLiteral cs with
  | case1 => rfl
  | case2 cs ih => simp [Text.hasInfix] at h
  | case3 c cs _ ih =>
    simp only [Text.hasInfix, Bool.or_eq_false_iff] at h
    rw [← ih h.2]
    rfl

/-! ## Integers and words -/

/-- What may stand behind a literal: nothing that could be one more character of it. -/
def Ends (rest : List Char) : Prop :=
  ∀ c, rest.head? = some c → c.isAlphanum = false

@[simp] theorem ends_nil : Ends [] := by
  simp [Ends]

@[simp] theorem ends_cons {c : Char} {cs : List Char} : Ends (c :: cs) ↔ c.isAlphanum = false := by
  simp [Ends]

/-- A run of characters is taken as a whole, up to what ends it. -/
theorem span_append {p : Char → Bool} {cs rest : List Char} (run : ∀ c ∈ cs, p c = true)
    (stop : ∀ c, rest.head? = some c → p c = false) :
    (cs ++ rest).takeWhile p = cs ∧ (cs ++ rest).dropWhile p = rest := by
  rw [List.takeWhile_append_of_pos run, List.dropWhile_append_of_pos run]
  cases rest with
  | nil => simp
  | cons c rest => simp [stop c rfl]

theorem Ends.not_isDigit {rest : List Char} (ends : Ends rest) (c : Char)
    (h : rest.head? = some c) : c.isDigit = false := by
  have := ends c h
  simp only [Char.isAlphanum, Bool.or_eq_false_iff] at this
  exact this.2

theorem Ends.not_isAlpha {rest : List Char} (ends : Ends rest) (c : Char)
    (h : rest.head? = some c) : c.isAlpha = false := by
  have := ends c h
  simp only [Char.isAlphanum, Bool.or_eq_false_iff] at this
  exact this.1

theorem natural?_toDigits (n : Nat) {rest : List Char} (ends : Ends rest) :
    natural? (Nat.toDigits 10 n ++ rest) = some (n, rest) := by
  obtain ⟨taken, left⟩ := span_append (fun c h => Number.isDigit_of_mem_toDigits (n := n) h)
    ends.not_isDigit
  have hne : (Nat.toDigits 10 n).isEmpty = false := by
    simp [Nat.toDigits_ne_nil]
  simp [natural?, taken, left, hne, Nat.ofDigitChars_ten_toDigits]

/-- The text of an integer begins with a minus sign or a digit. -/
theorem toString_int_eq_cons (i : Int) :
    ∃ c cs, (toString i).toList = c :: cs ∧ (c = '-' ∨ c.isDigit = true) := by
  rw [Number.toList_toString_int]
  split
  · cases h : Nat.toDigits 10 i.toNat with
    | nil => exact absurd h Nat.toDigits_ne_nil
    | cons d ds =>
      exact ⟨d, ds, rfl, .inr (Number.isDigit_of_mem_toDigits (n := i.toNat) (by simp [h]))⟩
  · exact ⟨'-', _, rfl, .inl rfl⟩

theorem integer?_toString (i : Int) {rest : List Char} (ends : Ends rest) :
    integer? ((toString i).toList ++ rest) = some (i, rest) := by
  rw [Number.toList_toString_int]
  split
  · have digits := natural?_toDigits i.toNat ends
    rw [integer?.eq_def]
    split
    · rename_i cs heq
      cases h : Nat.toDigits 10 i.toNat with
      | nil => exact absurd h Nat.toDigits_ne_nil
      | cons d ds =>
        have hd : d.isDigit = true := Number.isDigit_of_mem_toDigits (n := i.toNat) (by simp [h])
        simp only [h, List.cons_append, List.cons.injEq] at heq
        exact absurd hd (by rw [heq.1]; decide)
    · rw [digits]
      simp only [Option.map_some, Option.some.injEq, Prod.mk.injEq, and_true]
      omega
  · have digits := natural?_toDigits (-i).toNat ends
    simp only [List.cons_append, integer?, digits, Option.map_some, Option.some.injEq,
      Prod.mk.injEq, and_true]
    omega

theorem scalar?_quoted (cs rest : List Char) :
    scalar? (inQuotes (escapeLiteral cs) ++ rest) = some (.str (String.ofList cs), rest) := by
  simp [inQuotes, scalar?, quoted?_escapeLiteral]

theorem scalar?_word {c : Char} {cs : List Char} {v : Json}
    (known : words.lookup (c :: cs) = some v) (letters : ∀ d ∈ c :: cs, d.isAlpha = true)
    {rest : List Char} (ends : Ends rest) : scalar? (c :: cs ++ rest) = some (v, rest) := by
  obtain ⟨taken, left⟩ := span_append letters ends.not_isAlpha
  rw [scalar?.eq_def]
  split
  · rename_i ds heq
    have hc : c = '\'' := (List.cons.inj heq).1
    exact absurd (letters c (by simp)) (by rw [hc]; decide)
  · rw [taken, left, known]

theorem scalar?_int (i : Int) {rest : List Char} (ends : Ends rest) :
    scalar? ((toString i).toList ++ rest) = some (Json.int i, rest) := by
  obtain ⟨c, cs, hi, hc⟩ := toString_int_eq_cons i
  have hq : c ≠ '\'' := by
    rintro rfl
    rcases hc with h | h <;> exact absurd h (by decide)
  have ha : c.isAlpha = false := by
    rcases hc with rfl | h
    · decide
    · exact Text.not_isAlpha_of_isDigit h
  have digits := integer?_toString i ends
  rw [scalar?.eq_def]
  split
  · rename_i ds heq
    simp only [hi, List.cons_append, List.cons.injEq] at heq
    exact absurd heq.1 hq
  · have front : ((toString i).toList ++ rest).takeWhile Char.isAlpha = [] := by
      rw [hi]
      simp [ha]
    rw [front, digits]
    rfl

/-! ## Values -/

mutual
/-- Whether every number of a value is an integer and no key of it opens a hole. -/
def isPlain : Json → Bool
  | .null | .bool _ | .str _ => true
  | .num (.int _) => true
  | .num (.float _) => false
  | .arr items => plainItems items
  | .obj entries => plainEntries entries
def plainItems : List Json → Bool
  | [] => true
  | v :: vs => isPlain v && plainItems vs
def plainEntries : List (String × Json) → Bool
  | [] => true
  | (k, v) :: es => !opensHole k && isPlain v && plainEntries es
end

theorem chars_ofNumber_int (depth : Nat) (i : Int) :
    chars depth (ofNumber (.int i)) = (toString i).toList := by
  by_cases h : inIntRange i = true
  · rw [ofNumber, if_pos h, chars_int]
  · rw [ofNumber, if_neg h, chars_expr, Number.text]

/-- The literal of a plain value without parts is read back. -/
theorem scalar?_chars {v : Json} (plain : isPlain v = true) (scalar : isScalar (ofJson v) = true)
    (depth : Nat) {rest : List Char} (ends : Ends rest) :
    scalar? (chars depth (ofJson v) ++ rest) = some (v, rest) := by
  cases v with
  | null => exact scalar?_word (by decide) (by decide) ends
  | bool b => cases b <;> exact scalar?_word (by decide) (by decide) ends
  | num n =>
    cases n with
    | int i =>
      rw [ofJson, chars_ofNumber_int]
      exact scalar?_int i ends
    | float x => simp [isPlain] at plain
  | str s =>
    rw [ofJson, chars_str, scalar?_quoted, String.ofList_toList]
  | arr items => simp [ofJson, isScalar] at scalar
  | obj entries => simp [ofJson, isScalar] at scalar

/-- A value begins with a character of its own: no blank, no line feed and no closing bracket. -/
theorem exists_cons_chars (depth : Nat) {v : Json} (plain : isPlain v = true) :
    ∃ c cs, chars depth (ofJson v) = c :: cs ∧ c ∉ [' ', '\n', ']', '\x7d'] ∧
      (isScalar (ofJson v) = true → c ∉ ['[', '\x7b']) := by
  cases v with
  | null => exact ⟨'n', _, rfl, by decide, fun _ => by decide⟩
  | bool b => cases b <;> exact ⟨_, _, rfl, by decide, fun _ => by decide⟩
  | num n =>
    cases n with
    | int i =>
      obtain ⟨c, cs, hi, hc⟩ := toString_int_eq_cons i
      refine ⟨c, cs, by rw [ofJson, chars_ofNumber_int, hi], ?_, fun _ => ?_⟩
      all_goals
        rcases hc with rfl | h
        · decide
        · intro hm
          simp only [List.mem_cons, List.not_mem_nil, or_false] at hm
          rcases hm with rfl | rfl | rfl | rfl <;> exact absurd h (by decide)
    | float x => simp [isPlain] at plain
  | str s => exact ⟨'\'', _, rfl, by decide, fun _ => by decide⟩
  | arr items =>
    rw [ofJson, chars_array]
    split
    · exact ⟨'[', _, rfl, by decide, fun h => by simp [isScalar] at h⟩
    · exact ⟨'[', _, rfl, by decide, fun h => by simp [isScalar] at h⟩
  | obj entries =>
    cases entries with
    | nil => exact ⟨'\x7b', _, rfl, by decide, fun h => by simp [ofJson, isScalar] at h⟩
    | cons e es => exact ⟨'\x7b', _, rfl, by decide, fun h => by simp [ofJson, isScalar] at h⟩

theorem isScalar_ofJson_num (n : Number) : isScalar (ofJson (.num n)) = true := by
  cases n with
  | int i =>
    by_cases h : inIntRange i = true
    · rw [ofJson, ofNumber, if_pos h, isScalar]
    · rw [ofJson, ofNumber, if_neg h, isScalar]
  | float x => rfl

theorem value?_eq_scalar? (fuel : Nat) {c : Char} {cs : List Char} (h : c ∉ ['[', '\x7b']) :
    value? (fuel + 1) (c :: cs) = scalar? (c :: cs) := by
  rw [value?.eq_def]
  simp only
  split <;> simp_all

theorem value?_of_scalar {v : Json} (plain : isPlain v = true)
    (scalar : isScalar (ofJson v) = true) {depth fuel : Nat} {rest : List Char}
    (ends : Ends rest) : value? (fuel + 1) (chars depth (ofJson v) ++ rest) = some (v, rest) := by
  have read := scalar?_chars plain scalar depth ends
  obtain ⟨c, cs, hv, -, open_⟩ := exists_cons_chars depth plain
  rw [hv, List.cons_append] at read ⊢
  rw [value?_eq_scalar? fuel (open_ scalar), read]

/-! ### Arrays on one line -/

theorem row?_chars (depth : Nat) : ∀ (vs : List Json) (fuel : Nat) (rest : List Char),
    plainItems vs = true → (ofItems vs).all isScalar = true → vs ≠ [] → vs.length ≤ fuel →
    row? fuel ([',', ' '].intercalate (itemChars depth (ofItems vs)) ++ ']' :: rest) =
      some (vs, rest)
  | [], _, _, _, _, hne, _ => absurd rfl hne
  | _ :: _, 0, _, _, _, _, hf => by simp at hf
  | [v], fuel + 1, rest, plain, scalars, _, _ => by
    simp only [plainItems, Bool.and_true] at plain
    simp only [ofItems, List.all_cons, List.all_nil, Bool.and_true] at scalars
    have ends : Ends (']' :: rest) := by simp
    have hv := scalar?_chars plain scalars depth ends
    simp [ofItems, List.intercalate, row?, hv]
  | v :: w :: vs, fuel + 1, rest, plain, scalars, _, hf => by
    rw [plainItems, Bool.and_eq_true] at plain
    rw [ofItems, List.all_cons, Bool.and_eq_true] at scalars
    have more := row?_chars depth (w :: vs) fuel rest plain.2 scalars.2 (by simp)
      (by simpa using hf)
    have ends : Ends (',' :: ' ' :: ([',', ' '].intercalate (itemChars depth (ofItems (w :: vs))) ++
        ']' :: rest)) := by simp
    have hv := scalar?_chars plain.1 scalars.1 depth ends
    simp only [ofItems, itemChars_cons, Text.intercalate_cons_cons, List.append_assoc,
      List.cons_append, List.nil_append] at more hv ⊢
    rw [row?, hv]
    simp only [more, Option.map_some]

/-! ### Lines -/

theorem dropWhile_indent (depth : Nat) {c : Char} {cs : List Char} (blank : c ≠ ' ') :
    (indent depth ++ c :: cs).dropWhile (· == ' ') = c :: cs := by
  rw [indent, List.dropWhile_append_of_pos]
  · simp [blank]
  · simp

theorem itemLines?_close (fuel depth : Nat) (rest : List Char) :
    itemLines? (fuel + 1) (indent depth ++ ']' :: rest) = some ([], rest) := by
  rw [itemLines?, dropWhile_indent depth (by decide)]
  rfl

theorem itemLines?_line {fuel depth : Nat} {c : Char} {cs rest : List Char} {v : Json}
    (own : c ∉ [' ', '\n', ']', '\x7d']) (first : value? fuel (c :: cs) = some (v, '\n' :: rest)) :
    itemLines? (fuel + 1) (indent depth ++ c :: cs) =
      (itemLines? fuel rest).map fun (vs, rest) => (v :: vs, rest) := by
  simp only [List.mem_cons, not_or] at own
  rw [itemLines?, dropWhile_indent depth own.1]
  split
  · simp_all
  · rw [first]
    rfl

theorem entryLines?_close (fuel depth : Nat) (rest : List Char) :
    entryLines? (fuel + 1) (indent depth ++ '\x7d' :: rest) = some ([], rest) := by
  rw [entryLines?, dropWhile_indent depth (by decide)]
  rfl

theorem entryLines?_line {fuel depth : Nat} {c : Char} {cs more rest : List Char} {k : String}
    {v : Json} (own : c ≠ ' ' ∧ c ≠ '\x7d') (key : key? (c :: cs) = some (k, ':' :: ' ' :: more))
    (first : value? fuel more = some (v, '\n' :: rest)) :
    entryLines? (fuel + 1) (indent depth ++ c :: cs) =
      (entryLines? fuel rest).map fun (es, rest) => ((k, v) :: es, rest) := by
  rw [entryLines?, dropWhile_indent depth own.1]
  split
  · simp_all
  · rw [key]
    simp only [first]

/-! ### Keys -/

theorem key?_identifier {k : String} (h : isIdentifier k = true) (rest : List Char) :
    key? (k.toList ++ ':' :: rest) = some (k, ':' :: rest) := by
  obtain ⟨c, cs, hk, hc, run⟩ := exists_cons_of_isIdentifier h
  have stop : ∀ d, (':' :: rest).head? = some d → (d.isAlphanum || d == '_') = false := by
    intro d hd
    simp only [List.head?_cons, Option.some.injEq] at hd
    subst hd
    decide
  obtain ⟨taken, left⟩ := span_append (hk ▸ run) stop
  rw [key?.eq_def]
  split
  · rename_i ds heq
    rw [hk, List.cons_append, List.cons.injEq] at heq
    rw [heq.1] at hc
    exact absurd hc (by decide)
  · rw [taken, left, String.ofList_toList]
    simp only [h, if_true]

theorem key?_keyChars {k : String} (closed : opensHole k = false) (rest : List Char) :
    key? (keyChars k ++ ':' :: rest) = some (k, ':' :: rest) := by
  unfold keyChars
  split
  · exact key?_identifier (by assumption) rest
  · have hk : Text.hasInfix "$\x7b".toList k.toList = false := closed
    rw [escape_eq_escapeLiteral hk]
    simp [inQuotes, key?, quoted?_escapeLiteral]

theorem exists_cons_keyChars (k : String) :
    ∃ c cs, keyChars k = c :: cs ∧ c ≠ ' ' ∧ c ≠ '\x7d' := by
  unfold keyChars
  split
  · obtain ⟨c, cs, hk, hc, -⟩ := exists_cons_of_isIdentifier (by assumption)
    refine ⟨c, cs, hk, ?_, ?_⟩ <;> rintro rfl <;> exact absurd hc (by decide)
  · exact ⟨'\'', _, rfl, by decide, by decide⟩

/-! ### Reading back -/

theorem value?_arr_row {fuel : Nat} {c : Char} {cs rest : List Char} {vs : List Json}
    (own : c ∉ [' ', '\n', ']', '\x7d']) (row : row? fuel (c :: cs) = some (vs, rest)) :
    value? (fuel + 1) ('[' :: c :: cs) = some (.arr vs, rest) := by
  simp only [List.mem_cons, not_or] at own
  rw [value?.eq_def]
  simp only
  split <;> simp_all

theorem length_le_itemChars (depth : Nat) : ∀ vs : List Json, plainItems vs = true →
    vs.length ≤ ([',', ' '].intercalate (itemChars depth (ofItems vs))).length
  | [], _ => by simp
  | [v], plain => by
    rw [plainItems, Bool.and_eq_true] at plain
    obtain ⟨c, cs, hv, -⟩ := exists_cons_chars depth plain.1
    simp [ofItems, List.intercalate, hv]
  | v :: w :: vs, plain => by
    rw [plainItems, Bool.and_eq_true] at plain
    have more := length_le_itemChars depth (w :: vs) plain.2
    simp only [ofItems, itemChars_cons, Text.intercalate_cons_cons, List.length_append,
      List.length_cons, List.length_nil] at more ⊢
    omega

theorem exists_cons_row (depth : Nat) {v : Json} {vs : List Json}
    (plain : plainItems (v :: vs) = true) :
    ∃ c cs, [',', ' '].intercalate (itemChars depth (ofItems (v :: vs))) = c :: cs ∧
      c ∉ [' ', '\n', ']', '\x7d'] := by
  rw [plainItems, Bool.and_eq_true] at plain
  obtain ⟨c, cs, hv, own, -⟩ := exists_cons_chars depth plain.1
  cases vs with
  | nil => exact ⟨c, cs, by simp [ofItems, List.intercalate, hv], own⟩
  | cons w vs =>
    refine ⟨c, cs ++ [',', ' '] ++ [',', ' '].intercalate (itemChars depth (ofItems (w :: vs))),
      ?_, own⟩
    rw [ofItems, itemChars_cons, ofItems, itemChars_cons, Text.intercalate_cons_cons, hv]
    rfl

theorem ofEntries_cons (e : String × Json) (es : List (String × Json)) :
    ofEntries (e :: es) = .property e.1 (ofJson e.2) :: ofEntries es := rfl

mutual
/-- A literal is read back with what stands behind it left over, at any depth and in any company
that does not go on with it. -/
theorem value?_chars : ∀ (v : Json) (depth fuel : Nat) (rest : List Char), isPlain v = true →
    Ends rest → (chars depth (ofJson v)).length < fuel →
    value? fuel (chars depth (ofJson v) ++ rest) = some (v, rest)
  | _, _, 0, _, _, _, hf => absurd hf (Nat.not_lt_zero _)
  | .arr [], _, fuel + 1, _, _, _, _ => rfl
  | .arr (v :: vs), depth, fuel + 1, rest, plain, _, hf => by
    rw [isPlain] at plain
    rw [ofJson, chars_array] at hf ⊢
    by_cases scalars : (ofItems (v :: vs)).all isScalar = true
    · rw [if_pos scalars] at hf ⊢
      have hl := length_le_itemChars depth (v :: vs) plain
      have row := row?_chars depth (v :: vs) fuel rest plain scalars (by simp) (by
        simp only [List.length_cons, List.length_append] at hf hl ⊢
        omega)
      obtain ⟨c, cs, hr, own⟩ := exists_cons_row depth plain
      simp only [hr, List.cons_append, List.append_assoc, List.nil_append] at row ⊢
      exact value?_arr_row own row
    · rw [if_neg scalars] at hf ⊢
      have lines := itemLines?_chars (v :: vs) (depth + 1) depth fuel rest plain (by
        simp only [List.length_cons, List.length_append] at hf ⊢
        omega)
      simp only [List.cons_append, List.append_assoc, List.nil_append] at lines ⊢
      rw [value?]
      simp only [lines, Option.map_some]
  | .obj [], _, fuel + 1, _, _, _, _ => rfl
  | .obj (e :: es), depth, fuel + 1, rest, plain, _, hf => by
    rw [isPlain] at plain
    rw [ofJson, ofEntries_cons, chars_object_cons, ← ofEntries_cons] at hf ⊢
    have lines := entryLines?_chars (e :: es) (depth + 1) depth fuel rest plain (by
      simp only [List.length_cons, List.length_append] at hf ⊢
      omega)
    simp only [List.cons_append, List.append_assoc, List.nil_append] at lines ⊢
    rw [value?]
    simp only [lines, Option.map_some]
  | .null, depth, fuel + 1, rest, plain, ends, _ => value?_of_scalar plain rfl ends
  | .bool _, depth, fuel + 1, rest, plain, ends, _ => value?_of_scalar plain rfl ends
  | .num n, depth, fuel + 1, rest, plain, ends, _ =>
    value?_of_scalar plain (isScalar_ofJson_num n) ends
  | .str _, depth, fuel + 1, rest, plain, ends, _ => value?_of_scalar plain rfl ends

theorem itemLines?_chars : ∀ (vs : List Json) (depth outer fuel : Nat) (rest : List Char),
    plainItems vs = true → (itemLines depth (ofItems vs)).length < fuel →
    itemLines? fuel (itemLines depth (ofItems vs) ++ (indent outer ++ ']' :: rest)) =
      some (vs, rest)
  | _, _, _, 0, _, _, hf => absurd hf (Nat.not_lt_zero _)
  | [], _, outer, fuel + 1, rest, _, _ => itemLines?_close fuel outer rest
  | v :: vs, depth, outer, fuel + 1, rest, plain, hf => by
    rw [plainItems, Bool.and_eq_true] at plain
    rw [ofItems, itemLines_cons] at hf ⊢
    simp only [List.length_append, List.length_cons] at hf
    have first := value?_chars v depth fuel
      ('\n' :: (itemLines depth (ofItems vs) ++ (indent outer ++ ']' :: rest))) plain.1
      (by simp) (by omega)
    have more := itemLines?_chars vs depth outer fuel rest plain.2 (by omega)
    obtain ⟨c, cs, hv, own, -⟩ := exists_cons_chars depth plain.1
    simp only [hv, List.append_assoc, List.cons_append] at first ⊢
    rw [itemLines?_line own first, more]
    rfl

theorem entryLines?_chars : ∀ (es : List (String × Json)) (depth outer fuel : Nat)
    (rest : List Char), plainEntries es = true →
    (entryLines depth (ofEntries es)).length < fuel →
    entryLines? fuel (entryLines depth (ofEntries es) ++ (indent outer ++ '\x7d' :: rest)) =
      some (es, rest)
  | _, _, _, 0, _, _, hf => absurd hf (Nat.not_lt_zero _)
  | [], _, outer, fuel + 1, rest, _, _ => entryLines?_close fuel outer rest
  | (k, v) :: es, depth, outer, fuel + 1, rest, plain, hf => by
    rw [plainEntries, Bool.and_eq_true, Bool.and_eq_true, Bool.not_eq_true'] at plain
    rw [ofEntries_cons, entryLines_cons, entryChars_property] at hf ⊢
    simp only [List.length_append, List.length_cons] at hf
    have first := value?_chars v depth fuel
      ('\n' :: (entryLines depth (ofEntries es) ++ (indent outer ++ '\x7d' :: rest)))
      plain.1.2 (by simp) (by omega)
    have more := entryLines?_chars es depth outer fuel rest plain.2 (by omega)
    have key := key?_keyChars plain.1.1 (' ' :: (chars depth (ofJson v) ++
      '\n' :: (entryLines depth (ofEntries es) ++ (indent outer ++ '\x7d' :: rest))))
    obtain ⟨c, cs, hk, own⟩ := exists_cons_keyChars k
    simp only [hk, List.append_assoc, List.cons_append, List.nil_append] at key ⊢
    rw [entryLines?_line own key first, more]
    rfl
end

/-- What is written as a literal is read back whole. -/
theorem read?_text {v : Json} (plain : isPlain v = true) : read? (ofJson v).text = some v := by
  have back := value?_chars v 0 ((chars 0 (ofJson v)).length + 1) [] plain (by simp)
    (Nat.lt_succ_self _)
  rw [List.append_nil] at back
  simp only [read?, text, String.toList_ofList, back]

/-- Literals of plain values are read back as what they were written from, in the same order of
keys; so two values never share a literal. -/
theorem read?_text_unique (v : Json) (plain : isPlain v = true) :
    read? (ofJson v).text = some v ∧
      ∀ w : Json, isPlain w = true → (ofJson w).text = (ofJson v).text → w = v := by
  refine ⟨read?_text plain, ?_⟩
  intro w hw same
  have back := read?_text hw
  rw [same, read?_text plain] at back
  exact (Option.some.inj back).symm

/-- Escapes, both layouts of arrays and both layouts of keys. -/
theorem read?_text_unique_nested :
    let v : Json := .obj
      [("a 'b'\\", .arr [.num (.int (-3)), .str "it's $\x7bx\x7d\n", .null]),
       ("rest", .arr [.obj [("$", .bool true)], .arr []])]
    isPlain v = true ∧ read? (ofJson v).text = some v :=
  ⟨by decide +kernel, (read?_text_unique _ (by decide +kernel)).1⟩

end BicepForge.Bicep.Literal
