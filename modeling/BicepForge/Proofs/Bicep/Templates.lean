import BicepForge.Proofs.Bicep.Escaping

/-!
# Reading strings with holes

What stands between quotes is read as text and holes. A string literal is read as its text, always.
A text that is written with its holes open is read as such exactly if it opens none: then the name of
a deployed resource is read as the prefix, the id and the environment with hyphens between them.
-/

namespace BicepForge.Bicep.Literal

open Value

/-- What a string with holes is made of. -/
inductive Token where
  | text (c : Char)
  | opens
  /-- A character of the expression in a hole. -/
  | code (c : Char)
  | closes
deriving DecidableEq

/-- A string with holes up to its closing quote, and what stands behind it. A hole goes up to the next
closing brace; a line feed is no part of the text around it. -/
def tokens? : (inHole : Bool) → List Char → Option (List Token × List Char)
  | _, [] => none
  | true, '\x7d' :: cs => (tokens? false cs).map fun (ts, rest) => (.closes :: ts, rest)
  | true, c :: cs => (tokens? true cs).map fun (ts, rest) => (.code c :: ts, rest)
  | false, '\'' :: cs => some ([], cs)
  | false, '\\' :: c :: cs =>
    (unescaped? c).bind fun d => (tokens? false cs).map fun (ts, rest) => (.text d :: ts, rest)
  | false, '$' :: '\x7b' :: cs => (tokens? true cs).map fun (ts, rest) => (.opens :: ts, rest)
  | false, '\n' :: _ => none
  | false, c :: cs => (tokens? false cs).map fun (ts, rest) => (.text c :: ts, rest)

/-- Puts tokens ahead of what is read. -/
def behindTokens (front : List Token) (read : Option (List Token × List Char)) :
    Option (List Token × List Char) :=
  read.map fun (ts, rest) => (front ++ ts, rest)

theorem behindTokens_append (front more : List Token) (read : Option (List Token × List Char)) :
    behindTokens (front ++ more) read = behindTokens front (behindTokens more read) := by
  cases read with
  | none => rfl
  | some found => simp [behindTokens]

/-! ## Text -/

theorem tokens?_cons {c : Char} {cs : List Char} (quote : c ≠ '\'') (slash : c ≠ '\\')
    (feed : c ≠ '\n') (hole : c = '$' → cs.head? ≠ some '\x7b') :
    tokens? false (c :: cs) = behindTokens [.text c] (tokens? false cs) := by
  rw [tokens?.eq_def]
  split <;> simp_all [behindTokens]

theorem tokens?_escapeChar {c : Char} {cs : List Char} (hole : c = '$' → cs.head? ≠ some '\x7b') :
    tokens? false (escapeChar c ++ cs) = behindTokens [.text c] (tokens? false cs) := by
  unfold escapeChar
  split_ifs with slash quote feed carriage tab
  · subst slash
    rfl
  · subst quote
    rfl
  · subst feed
    rfl
  · subst carriage
    rfl
  · subst tab
    rfl
  · exact tokens?_cons quote slash feed hole

/-- A text without holes is read as it is, if it does not end where one is opened. -/
theorem tokens?_escape {cs rest : List Char} (closed : Text.hasInfix holeOpening cs = false)
    (apart : cs.getLast? = some '$' → rest.head? ≠ some '\x7b') :
    tokens? false (escape cs ++ rest) = behindTokens (cs.map .text) (tokens? false rest) := by
  induction cs with
  | nil =>
    rw [escape, List.flatMap_nil, List.nil_append, List.map_nil, behindTokens]
    simp
  | cons c cs ih =>
    rw [Text.hasInfix, Bool.or_eq_false_iff] at closed
    have later : cs.getLast? = some '$' → rest.head? ≠ some '\x7b' := by
      intro last
      apply apart
      rw [List.getLast?_cons, last]
      rfl
    rw [escape, List.flatMap_cons, ← escape, List.append_assoc, tokens?_escapeChar, ih closed.2 later,
      List.map_cons, ← List.singleton_append (l := cs.map _), behindTokens_append]
    rintro rfl brace
    cases cs with
    | nil => exact apart rfl brace
    | cons d ds =>
      rw [escape, List.flatMap_cons, List.append_assoc, head?_escapeChar_append] at brace
      have opens := isPrefixOf_holeOpening.mpr ⟨rfl, congrArg List.head? (congrArg (· :: ds) brace)⟩
      rw [closed.1] at opens
      cases opens

/-- A string literal is read as its text. -/
theorem tokens?_escapeLiteral (cs rest : List Char) :
    tokens? false (escapeLiteral cs ++ '\'' :: rest) = some (cs.map .text, rest) := by
  induction cs using escapeLiteral.induct with
  | case1 => rfl
  | case2 cs ih =>
    have brace : tokens? false ('\x7b' :: (escapeLiteral cs ++ '\'' :: rest)) =
        behindTokens [.text '\x7b'] _ :=
      tokens?_cons (by decide) (by decide) (by decide) fun same => absurd same (by decide)
    have dollar : tokens? false (escapeLiteral ('$' :: '\x7b' :: cs) ++ '\'' :: rest) =
        behindTokens [.text '$'] (tokens? false ('\x7b' :: (escapeLiteral cs ++ '\'' :: rest))) := rfl
    rw [dollar, brace, ih]
    rfl
  | case3 c cs plain ih =>
    rw [escapeLiteral.eq_3 c cs plain, List.append_assoc, tokens?_escapeChar, ih]
    · rfl
    · rintro rfl brace
      obtain ⟨more, rfl⟩ := List.head?_eq_some_iff.mp (head?_escapeLiteral brace)
      exact plain more rfl rfl

/-! ## Holes -/

/-- A hole is read as one, with an expression that holds no brace and nothing to escape. -/
theorem tokens?_hole {name : List Char} (closed : '\x7d' ∉ name) (rest : List Char) :
    tokens? false ('$' :: '\x7b' :: name ++ '\x7d' :: rest) =
      behindTokens (.opens :: name.map .code ++ [.closes]) (tokens? false rest) := by
  have inside : tokens? true (name ++ '\x7d' :: rest) =
      behindTokens (name.map .code ++ [.closes]) (tokens? false rest) := by
    induction name with
    | nil => rfl
    | cons c name ih =>
      obtain ⟨other, closed⟩ := not_or.mp (List.mem_cons.not.mp closed)
      have first : tokens? true (c :: (name ++ '\x7d' :: rest)) =
          behindTokens [.code c] (tokens? true (name ++ '\x7d' :: rest)) :=
        tokens?.eq_3 _ _ fun same => other same.symm
      rw [List.cons_append, first, ih closed, ← behindTokens_append]
      rfl
  have opening : tokens? false ('$' :: '\x7b' :: name ++ '\x7d' :: rest) =
      behindTokens [.opens] (tokens? true (name ++ '\x7d' :: rest)) := rfl
  rw [opening, inside, ← behindTokens_append]
  rfl

/-- The first hole of a text is opened behind a part without holes. -/
theorem exists_first_hole {cs : List Char} (h : Text.hasInfix holeOpening cs = true) :
    ∃ front back, cs = front ++ holeOpening ++ back ∧ Text.hasInfix holeOpening front = false := by
  induction cs with
  | nil => cases h
  | cons c cs ih =>
    by_cases here : holeOpening.isPrefixOf (c :: cs) = true
    · obtain ⟨back, whole⟩ := List.isPrefixOf_iff_prefix.mp here
      exact ⟨[], back, whole.symm, rfl⟩
    · rw [Text.hasInfix, Bool.or_eq_true, or_iff_right here] at h
      obtain ⟨front, back, rfl, closed⟩ := ih h
      refine ⟨c :: front, back, rfl, ?_⟩
      rw [Text.hasInfix, closed, Bool.or_false, Bool.eq_false_iff]
      intro opens
      apply here
      rw [List.isPrefixOf_iff_prefix] at opens ⊢
      exact opens.trans ⟨holeOpening ++ back, by simp⟩

/-- A text is read as text, also between other characters that open no hole, exactly if it has no
hole. -/
theorem tokens?_escape_iff {cs rest : List Char} {ts : List Token} {left : List Char}
    (reads : tokens? false rest = some (ts, left))
    (apart : cs.getLast? = some '$' → rest.head? ≠ some '\x7b') :
    tokens? false (escape cs ++ rest) = some (cs.map .text ++ ts, left) ↔
      Text.hasInfix holeOpening cs = false := by
  constructor
  · intro read
    by_contra opens
    rw [Bool.not_eq_false] at opens
    obtain ⟨front, back, rfl, closed⟩ := exists_first_hole opens
    have parts : escape (front ++ holeOpening ++ back) ++ rest =
        escape front ++ '$' :: '\x7b' :: (escape back ++ rest) := by
      rw [escape, List.flatMap_append, List.flatMap_append, List.append_assoc, List.append_assoc]
      rfl
    have brace : front.getLast? = some '$' →
        ('$' :: '\x7b' :: (escape back ++ rest)).head? ≠ some '\x7b' := by
      intro _ same
      cases same
    have opening : tokens? false ('$' :: '\x7b' :: (escape back ++ rest)) =
        behindTokens [.opens] (tokens? true (escape back ++ rest)) := rfl
    rw [parts, tokens?_escape closed brace, opening, ← behindTokens_append] at read
    obtain ⟨found, -, same⟩ := Option.map_eq_some_iff.mp read
    have tokens : front.map Token.text ++ [.opens] ++ found.1 =
        (front ++ holeOpening ++ back).map .text ++ ts := (Prod.mk.inj same).1
    rw [List.append_assoc, List.map_append, List.map_append, List.append_assoc, List.append_assoc,
      List.append_cancel_left_eq] at tokens
    cases (List.cons.inj tokens).1
  · intro closed
    rw [tokens?_escape closed apart, reads]
    rfl

end BicepForge.Bicep.Literal
