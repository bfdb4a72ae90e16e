import BicepForge.Json.Reader
import BicepForge.Text.Blank
import Mathlib.Data.List.TakeWhile
import Mathlib.Tactic.DefEqTransformations

/-!
# Text around a document

A reading is not changed by text behind what it reads, as long as no number goes on with it, and the
steps that are allowed only need to suffice. So a document that can be read is read the same with
space around it, and with anything else around it that is no space it is refused.
-/

namespace BicepForge.Json.Reader

/-! ## Readings of longer texts -/

/-- What a reading gives, a reading of a longer text gives too, with the further text left over. -/
def GoesOn {α : Type} (more : List Char) (x y : Step (α × List Char)) : Prop :=
  ∀ a rest, x = .ok (a, rest) → y = .ok (a, rest ++ more)

/-- Whether a text goes on with no number: it begins with no digit, point or exponent. -/
def endsNumber : List Char → Bool
  | [] => true
  | c :: _ => !(c.isDigit || c = '.' || c = 'e' || c = 'E')

section GoesOn

variable {α β : Type} {more : List Char}

theorem GoesOn.ok (a : α) (rest : List Char) :
    GoesOn more (.ok (a, rest)) (.ok (a, rest ++ more)) := by
  intro b left h
  cases h
  rfl

theorem GoesOn.error (e : Stop) (y : Step (α × List Char)) : GoesOn more (.error e) y := by
  intro a rest h
  cases h

theorem GoesOn.ite {x x' y y' : Step (α × List Char)} {p : Prop} [Decidable p]
    (h : GoesOn more x y) (h' : GoesOn more x' y') :
    GoesOn more (if p then x else x') (if p then y else y') := by
  split
  · exact h
  · exact h'

theorem GoesOn.bind {x y : Step (α × List Char)} {f g : α × List Char → Step (β × List Char)}
    (h : GoesOn more x y) (hf : ∀ a rest, GoesOn more (f (a, rest)) (g (a, rest ++ more))) :
    GoesOn more (x >>= f) (y >>= g) := by
  cases x with
  | error e => exact .error e _
  | ok read =>
    obtain ⟨a, rest⟩ := read
    rw [h a rest rfl]
    exact hf a rest

end GoesOn

/-! ## Words and numbers -/

section Numbers

variable {more : List Char}

theorem goesOn_word {α : Type} (value : α) (letters s : List Char) :
    GoesOn more (word value letters s) (word value letters (s ++ more)) := by
  induction letters generalizing s with
  | nil => exact .ok value s
  | cons c cs ih =>
    cases s with
    | nil => exact .error _ _
    | cons d ds =>
      rw [List.cons_append, word, word]
      split
      · exact ih ds
      · exact .error _ _

variable (ends : endsNumber more = true)
include ends

theorem digit?_of_endsNumber {c : Char} {cs : List Char} (begins : more = c :: cs) :
    digit? c = none := by
  subst begins
  simp only [endsNumber, Bool.not_eq_true', Bool.or_eq_false_iff] at ends
  rw [digit?, ends.1.1.1]
  rfl

theorem dropWhile_isDigit_append (cs : List Char) :
    (cs ++ more).dropWhile Char.isDigit = cs.dropWhile Char.isDigit ++ more := by
  induction cs with
  | nil =>
    cases more with
    | nil => rfl
    | cons c cs =>
      simp only [endsNumber, Bool.not_eq_true', Bool.or_eq_false_iff] at ends
      simp [ends.1.1.1]
  | cons c cs ih =>
    rw [List.cons_append, List.dropWhile_cons, List.dropWhile_cons]
    split
    · exact ih
    · rfl

omit ends in
/-- What a literal comes to, as a function: with arguments in place, powers would be evaluated. -/
theorem assemble_eq : assemble = fun negative significand exponent rest =>
    match (Binary64.ofNat? false significand).bind fun f => scale f exponent 8 with
    | none => stop .numberOutOfRange rest
    | some f => .ok (.float (if negative then f.neg else f), rest) := by
  delta assemble
  rfl

omit ends in
theorem goesOn_assemble (negative : Bool) (significand : Nat) (exponent : Int) (s : List Char) :
    GoesOn more (assemble negative significand exponent s)
      (assemble negative significand exponent (s ++ more)) := by
  rw [assemble_eq]
  beta_reduce
  generalize (Binary64.ofNat? false significand).bind (fun f => scale f exponent 8) = value
  cases value with
  | none => exact .error _ _
  | some f => exact .ok _ s

theorem goesOn_exponentDigits (negative : Bool) (significand : Nat) (start : Int) (down : Bool)
    (value : Nat) (s : List Char) :
    GoesOn more (exponentDigits negative significand start down value s)
      (exponentDigits negative significand start down value (s ++ more)) := by
  induction s generalizing value with
  | nil =>
    have ended : exponentDigits negative significand start down value more =
        assemble negative significand (if down then start - value else start + value) more := by
      cases begins : more with
      | nil => rfl
      | cons c cs => rw [exponentDigits, digit?_of_endsNumber ends begins]
    rw [exponentDigits, List.nil_append, ended]
    exact goesOn_assemble _ _ _ []
  | cons c cs ih =>
    rw [List.cons_append, exponentDigits, exponentDigits]
    split
    · exact goesOn_assemble _ _ _ (c :: cs)
    · split
      · split
        · exact .error _ _
        · rw [dropWhile_isDigit_append ends]
          exact .ok _ _
      · exact ih _

/-- The digits of an exponent behind its sign, at least one. -/
def signedExponent (negative : Bool) (significand : Nat) (start : Int) (down : Bool) :
    List Char → Step (Number × List Char)
  | [] => stop .endInValue []
  | c :: cs =>
    match digit? c with
    | none => stopAhead .invalidNumber (c :: cs)
    | some d => exponentDigits negative significand start down d cs

theorem goesOn_signedExponent (negative : Bool) (significand : Nat) (start : Int) (down : Bool)
    (s : List Char) :
    GoesOn more (signedExponent negative significand start down s)
      (signedExponent negative significand start down (s ++ more)) := by
  cases s with
  | nil => exact .error _ _
  | cons c cs =>
    rw [List.cons_append, signedExponent, signedExponent]
    cases digit? c with
    | none => exact .error _ _
    | some d => exact goesOn_exponentDigits ends _ _ _ _ _ cs

omit ends in
theorem exponentPart_of_ne {c : Char} (plus : c ≠ '+') (minus : c ≠ '-') (negative : Bool)
    (significand : Nat) (start : Int) (cs : List Char) :
    exponentPart negative significand start (c :: cs) =
      signedExponent negative significand start false (c :: cs) := by
  cases digit : digit? c <;> simp [exponentPart, signedExponent, plus, minus, digit]

theorem goesOn_exponentPart (negative : Bool) (significand : Nat) (start : Int) (s : List Char) :
    GoesOn more (exponentPart negative significand start s)
      (exponentPart negative significand start (s ++ more)) := by
  cases s with
  | nil => exact .error _ _
  | cons c cs =>
    by_cases plus : c = '+'
    · subst plus
      exact goesOn_signedExponent ends negative significand start false cs
    by_cases minus : c = '-'
    · subst minus
      exact goesOn_signedExponent ends negative significand start true cs
    rw [List.cons_append, exponentPart_of_ne plus minus, exponentPart_of_ne plus minus]
    exact goesOn_signedExponent ends negative significand start false (c :: cs)

/-- What a text goes on with that ends a number is no exponent. -/
theorem afterFraction_of_endsNumber (negative : Bool) (significand : Nat) (exponent : Int) :
    afterFraction negative significand exponent more =
      assemble negative significand exponent more := by
  unfold afterFraction
  split
  · simp [endsNumber] at ends
  · simp [endsNumber] at ends
  · rfl

omit ends in
theorem afterFraction_of_ne {c : Char} (small : c ≠ 'e') (great : c ≠ 'E') (negative : Bool)
    (significand : Nat) (exponent : Int) (cs : List Char) :
    afterFraction negative significand exponent (c :: cs) =
      assemble negative significand exponent (c :: cs) := by
  unfold afterFraction
  split <;> simp_all

theorem goesOn_afterFraction (negative : Bool) (significand : Nat) (exponent : Int)
    (s : List Char) :
    GoesOn more (afterFraction negative significand exponent s)
      (afterFraction negative significand exponent (s ++ more)) := by
  cases s with
  | nil =>
    rw [List.nil_append, afterFraction_of_endsNumber ends]
    exact goesOn_assemble _ _ _ []
  | cons c cs =>
    by_cases small : c = 'e'
    · subst small
      exact goesOn_exponentPart ends _ _ _ cs
    by_cases great : c = 'E'
    · subst great
      exact goesOn_exponentPart ends _ _ _ cs
    rw [List.cons_append, afterFraction_of_ne small great, afterFraction_of_ne small great]
    exact goesOn_assemble _ _ _ (c :: cs)

theorem goesOn_fraction (negative : Bool) (significand : Nat) (before : Int) (taken : Nat)
    (s : List Char) :
    GoesOn more (fraction negative significand before taken s)
      (fraction negative significand before taken (s ++ more)) := by
  induction s generalizing significand taken with
  | nil =>
    rw [fraction]
    split
    · exact .error _ _
    · rename_i some
      have ended : fraction negative significand before taken more =
          assemble negative significand (before - taken) more := by
        cases begins : more with
        | nil => rw [fraction, if_neg some]
        | cons c cs =>
          subst begins
          rw [fraction, digit?_of_endsNumber ends rfl, if_neg some, afterFraction_of_endsNumber ends]
      rw [List.nil_append, ended]
      exact goesOn_assemble _ _ _ []
  | cons c cs ih =>
    rw [List.cons_append, fraction, fraction]
    cases digit? c with
    | none =>
      dsimp only
      split
      · exact .error _ _
      · exact goesOn_afterFraction ends _ _ _ (c :: cs)
    | some d =>
      dsimp only
      split
      · rw [← List.cons_append, dropWhile_isDigit_append ends]
        exact goesOn_afterFraction ends _ _ _ _
      · exact ih _ _

theorem goesOn_longInteger (negative : Bool) (significand dropped : Nat) (s : List Char) :
    GoesOn more (longInteger negative significand dropped s)
      (longInteger negative significand dropped (s ++ more)) := by
  induction s generalizing dropped with
  | nil =>
    have ended : longInteger negative significand dropped more =
        assemble negative significand dropped more := by
      unfold longInteger
      split <;> simp_all [endsNumber]
    rw [List.nil_append, ended]
    exact goesOn_assemble _ _ _ []
  | cons c cs ih =>
    by_cases point : c = '.'
    · subst point
      exact goesOn_fraction ends _ _ _ _ cs
    by_cases small : c = 'e'
    · subst small
      exact goesOn_exponentPart ends _ _ _ cs
    by_cases great : c = 'E'
    · subst great
      exact goesOn_exponentPart ends _ _ _ cs
    have digits : ∀ ds, longInteger negative significand dropped (c :: ds) =
        if c.isDigit then longInteger negative significand (dropped + 1) ds
        else assemble negative significand dropped (c :: ds) := by
      intro ds
      rw [longInteger] <;> simp_all
    rw [List.cons_append, digits, digits]
    split
    · exact ih _
    · exact goesOn_assemble _ _ _ (c :: cs)

omit ends in
/-- A point or an exponent stands behind any integer alike. -/
theorem afterInteger_of_mark {c : Char} (mark : c = '.' ∨ c = 'e' ∨ c = 'E') (negative : Bool)
    (significand : Nat) (cs : List Char) :
    afterInteger negative significand (c :: cs) = longInteger negative significand 0 (c :: cs) := by
  rcases mark with rfl | rfl | rfl <;> rfl

theorem goesOn_afterInteger (negative : Bool) (significand : Nat) (s : List Char) :
    GoesOn more (afterInteger negative significand s)
      (afterInteger negative significand (s ++ more)) := by
  cases s with
  | nil =>
    have ended : afterInteger negative significand more =
        .ok (integer negative significand, more) := by
      unfold afterInteger
      split <;> simp_all [endsNumber]
    rw [List.nil_append, ended]
    exact .ok _ []
  | cons c cs =>
    by_cases mark : c = '.' ∨ c = 'e' ∨ c = 'E'
    · rw [List.cons_append, afterInteger_of_mark mark, afterInteger_of_mark mark]
      exact goesOn_longInteger ends _ _ _ (c :: cs)
    · have behind : ∀ ds, afterInteger negative significand (c :: ds) =
          .ok (integer negative significand, c :: ds) := by
        intro ds
        unfold afterInteger
        split <;> simp_all
      rw [List.cons_append, behind, behind]
      exact .ok _ (c :: cs)

theorem goesOn_integerDigits (negative : Bool) (significand : Nat) (s : List Char) :
    GoesOn more (integerDigits negative significand s)
      (integerDigits negative significand (s ++ more)) := by
  induction s generalizing significand with
  | nil =>
    have ended : integerDigits negative significand more =
        afterInteger negative significand more := by
      cases begins : more with
      | nil => rw [integerDigits]
      | cons c cs => rw [integerDigits, digit?_of_endsNumber ends begins]
    rw [integerDigits, List.nil_append, ended]
    exact goesOn_afterInteger ends _ _ []
  | cons c cs ih =>
    rw [List.cons_append, integerDigits, integerDigits]
    cases digit? c with
    | none => exact goesOn_afterInteger ends _ _ (c :: cs)
    | some d =>
      dsimp only
      split
      · exact goesOn_longInteger ends _ _ _ (c :: cs)
      · exact ih _

theorem goesOn_number (negative : Bool) (s : List Char) :
    GoesOn more (number negative s) (number negative (s ++ more)) := by
  cases s with
  | nil => exact .error _ _
  | cons c cs =>
    by_cases zero : c = '0'
    · subst zero
      cases cs with
      | nil =>
        have ended : number negative ('0' :: more) = afterInteger negative 0 more := by
          cases begins : more with
          | nil => rfl
          | cons d ds =>
            subst begins
            simp only [endsNumber, Bool.not_eq_true', Bool.or_eq_false_iff] at ends
            rw [number, ends.1.1.1, if_neg Bool.false_ne_true]
        rw [List.singleton_append, ended]
        exact goesOn_afterInteger ends negative 0 []
      | cons d ds =>
        rw [List.cons_append, List.cons_append, number, number]
        split
        · exact .error _ _
        · exact goesOn_afterInteger ends negative 0 (d :: ds)
    · have digits : ∀ ds, number negative (c :: ds) =
          match digit? c with
          | none => stopAhead .invalidNumber (c :: ds)
          | some d => integerDigits negative d ds := by
        intro ds
        cases digit : digit? c <;> simp [number, zero, digit]
      rw [List.cons_append, digits, digits]
      cases digit? c with
      | none => exact .error _ _
      | some d => exact goesOn_integerDigits ends negative d cs

end Numbers

/-! ## Strings -/

section Strings

variable {more : List Char}

theorem goesOn_hexEscape (s : List Char) :
    GoesOn more (hexEscape s) (hexEscape (s ++ more)) := by
  intro n rest h
  have refused : ∀ t : List Char,
      (if byteCount t < 4 then stop .endInString [] else .error ⟨.invalidEscape, t, 4⟩ :
        Step (Nat × List Char)) ≠ .ok (n, rest) := by
    intro t
    split <;> exact fun h => by cases h
  unfold hexEscape at h
  dsimp only at h
  split at h
  · rename_i a b c d cs
    rw [List.cons_append, List.cons_append, List.cons_append, List.cons_append, hexEscape]
    split at h
    · obtain ⟨rfl, rfl⟩ := Prod.mk.inj (Except.ok.inj h)
      rfl
    · exact absurd h (refused _)
  · exact absurd h (refused _)

theorem goesOn_unicodeEscape (s : List Char) :
    GoesOn more (unicodeEscape s) (unicodeEscape (s ++ more)) := by
  refine (goesOn_hexEscape s).bind fun high rest => ?_
  dsimp only
  split
  · exact .error _ _
  split
  · exact .ok _ rest
  split
  · exact .error _ _
  · exact .error _ _
  · rename_i cs
    refine (goesOn_hexEscape cs).bind fun low rest => ?_
    dsimp only
    split
    · exact .error _ _
    · exact .ok _ rest
  · exact .error _ _
  · exact .error _ _

theorem goesOn_escape (s : List Char) : GoesOn more (escape s) (escape (s ++ more)) := by
  intro d rest h
  unfold escape at h
  split at h
  case h_10 cs => exact goesOn_unicodeEscape cs d rest h
  all_goals cases h
  all_goals rfl

theorem goesOn_stringBody {fuel fuel' : Nat} (enough : fuel ≤ fuel') (s : List Char) :
    GoesOn more (stringBody fuel s) (stringBody fuel' (s ++ more)) := by
  induction fuel generalizing fuel' s with
  | zero => exact .error _ _
  | succ fuel ih =>
    obtain ⟨fuel', rfl⟩ := Nat.exists_eq_add_of_lt enough
    cases s with
    | nil => exact .error _ _
    | cons c cs =>
      rw [List.cons_append, stringBody, stringBody]
      split
      · exact .ok [] cs
      split
      · refine (goesOn_escape cs).bind fun d rest => ?_
        refine (ih (by omega) rest).bind fun ds rest => ?_
        exact .ok (d :: ds) rest
      split
      · exact .error _ _
      · refine (ih (by omega) cs).bind fun ds rest => ?_
        exact .ok (c :: ds) rest

theorem goesOn_string (s : List Char) : GoesOn more (string s) (string (s ++ more)) :=
  (goesOn_stringBody (by simp) s).bind fun cs rest => .ok (String.ofList cs) rest

end Strings

/-! ## Values -/

/-- Goes on with the next character that is no space. -/
def next {α : Type} (ended : JsonFault) (f : Char → List Char → Step (α × List Char))
    (s : List Char) : Step (α × List Char) :=
  match skip s with
  | [] => stopAhead ended []
  | c :: cs => f c cs

theorem skip_append {s : List Char} {c : Char} {cs : List Char} (begins : skip s = c :: cs)
    (more : List Char) : skip (s ++ more) = c :: (cs ++ more) := by
  unfold skip at begins ⊢
  rw [List.dropWhile_append, begins]
  rfl

theorem goesOn_next {α : Type} {more : List Char} (ended : JsonFault)
    {f g : Char → List Char → Step (α × List Char)}
    (h : ∀ c cs, GoesOn more (f c cs) (g c (cs ++ more))) (s : List Char) :
    GoesOn more (next ended f s) (next ended g (s ++ more)) := by
  unfold next
  cases begins : skip s with
  | nil => exact .error _ _
  | cons c cs =>
    rw [skip_append begins]
    exact h c cs

/-- Which form a value has is decided by the next character. -/
theorem value_eq (fuel depth : Nat) (s : List Char) :
    value (fuel + 1) depth s = next .endInValue (fun c cs =>
      if c = 'n' then word null ['u', 'l', 'l'] cs
      else if c = 't' then word (bool true) ['r', 'u', 'e'] cs
      else if c = 'f' then word (bool false) ['a', 'l', 's', 'e'] cs
      else if c = '"' then string cs >>= fun r => .ok (str r.1, r.2)
      else if c = '-' then number true cs >>= fun r => .ok (num r.1, r.2)
      else if c = '[' then
        if depth ≤ 1 then stopAhead .tooDeep (c :: cs)
        else next .endInList (fun d ds =>
          if d = ']' then .ok (arr [], ds)
          else items fuel (depth - 1) (d :: ds) >>= fun r => .ok (arr r.1, r.2)) cs
      else if c = '\x7b' then
        if depth ≤ 1 then stopAhead .tooDeep (c :: cs)
        else next .endInObject (fun d ds =>
          if d = '\x7d' then .ok (obj [], ds)
          else entries fuel (depth - 1) [] (d :: ds) >>= fun r => .ok (obj r.1, r.2)) cs
      else if c.isDigit then number false (c :: cs) >>= fun r => .ok (num r.1, r.2)
      else stopAhead .expectedValue (c :: cs)) s := by
  rw [value, next]
  cases skip s with
  | nil => rfl
  | cons c cs =>
    dsimp only
    split
    case h_1 same => cases same
    case h_2 same | h_3 same | h_4 same | h_5 same | h_6 same =>
      cases same
      rfl
    case h_7 same | h_8 same =>
      -- an array or an object, which may be empty
      obtain ⟨rfl, rfl⟩ := List.cons.inj same
      change _ = if depth ≤ 1 then _ else _
      rw [next]
      cases skip cs with
      | nil => rfl
      | cons d ds =>
        split
        · rfl
        · split <;> simp_all
    case h_9 n t f quote minus bracket brace same =>
      obtain ⟨rfl, rfl⟩ := List.cons.inj same
      rw [if_neg n, if_neg t, if_neg f, if_neg quote, if_neg minus, if_neg bracket, if_neg brace]

theorem items_eq (fuel depth : Nat) (s : List Char) :
    items (fuel + 1) depth s = value fuel depth s >>= fun r =>
      next .endInList (fun c cs =>
        if c = ']' then .ok ([r.1], cs)
        else if c = ',' then
          next .endInValue (fun d ds =>
            if d = ']' then stopAhead .trailingComma (d :: ds)
            else items fuel depth (d :: ds) >>= fun q => .ok (r.1 :: q.1, q.2)) cs
        else stopAhead .expectedListCommaOrEnd (c :: cs)) r.2 := by
  rw [items]
  refine bind_congr fun ⟨v, rest⟩ => ?_
  dsimp only
  rw [next]
  cases skip rest with
  | nil => rfl
  | cons c cs =>
    dsimp only
    split
    case h_3 same =>
      cases same
      rw [if_neg (by decide), if_pos rfl, next]
      cases skip cs with
      | nil => rfl
      | cons d ds => split <;> simp_all
    all_goals simp_all

theorem entries_eq (fuel depth : Nat) (before : List (String × Json)) (cs : List Char) :
    entries (fuel + 1) depth before ('"' :: cs) = string cs >>= fun r =>
      next .endInObject (fun c cs =>
        if c = ':' then
          value fuel depth cs >>= fun q =>
            next .endInObject (fun d ds =>
              if d = '\x7d' then .ok (Entries.put r.1 q.1 before, ds)
              else if d = ',' then
                next .endInValue (fun e es =>
                  if e = '\x7d' then stopAhead .trailingComma (e :: es)
                  else entries fuel depth (Entries.put r.1 q.1 before) (e :: es)) ds
              else stopAhead .expectedObjectCommaOrEnd (d :: ds)) q.2
        else stopAhead .expectedColon (c :: cs)) r.2 := by
  rw [entries]
  refine bind_congr (m := Except Stop) fun ⟨key, rest⟩ => ?_
  dsimp only
  rw [next]
  cases skip rest with
  | nil => rfl
  | cons c cs =>
    dsimp only
    split
    case h_2 same =>
      cases same
      rw [if_pos rfl]
      refine bind_congr (m := Except Stop) fun ⟨v, rest⟩ => ?_
      dsimp only
      rw [next]
      cases skip rest with
      | nil => rfl
      | cons d ds =>
        dsimp only
        split
        case h_3 same =>
          cases same
          rw [if_neg (by decide), if_pos rfl, next]
          cases skip ds with
          | nil => rfl
          | cons e es => split <;> simp_all
        all_goals simp_all
    all_goals simp_all

/-- Values, items and entries that are read within a number of steps are read within more steps too,
and ahead of further text. -/
structure ReadsOn (more : List Char) (fuel : Nat) : Prop where
  value : ∀ {fuel'}, fuel ≤ fuel' → ∀ depth s,
    GoesOn more (value fuel depth s) (value fuel' depth (s ++ more))
  items : ∀ {fuel'}, fuel ≤ fuel' → ∀ depth s,
    GoesOn more (items fuel depth s) (items fuel' depth (s ++ more))
  entries : ∀ {fuel'}, fuel ≤ fuel' → ∀ depth before s,
    GoesOn more (entries fuel depth before s) (entries fuel' depth before (s ++ more))

namespace ReadsOn

variable {more : List Char} {fuel fuel' : Nat} (ih : ReadsOn more fuel) (enough : fuel ≤ fuel')
include ih enough

theorem value_succ (ends : endsNumber more = true) (depth : Nat) (s : List Char) :
    GoesOn more (Reader.value (fuel + 1) depth s) (Reader.value (fuel' + 1) depth (s ++ more)) := by
  rw [value_eq, value_eq]
  refine goesOn_next _ (fun c cs => ?_) s
  refine .ite (goesOn_word _ _ cs) ?_
  refine .ite (goesOn_word _ _ cs) ?_
  refine .ite (goesOn_word _ _ cs) ?_
  refine .ite ((goesOn_string cs).bind fun text rest => .ok (str text) rest) ?_
  refine .ite ((goesOn_number ends true cs).bind fun n rest => .ok (num n) rest) ?_
  refine .ite (.ite (.error _ _) (goesOn_next _ (fun d ds => ?_) cs)) ?_
  · exact .ite (.ok (arr []) ds)
      ((ih.items enough _ (d :: ds)).bind fun vs rest => .ok (arr vs) rest)
  refine .ite (.ite (.error _ _) (goesOn_next _ (fun d ds => ?_) cs)) ?_
  · exact .ite (.ok (obj []) ds)
      ((ih.entries enough _ _ (d :: ds)).bind fun es rest => .ok (obj es) rest)
  exact .ite ((goesOn_number ends false (c :: cs)).bind fun n rest => .ok (num n) rest)
    (.error _ _)

theorem items_succ (depth : Nat) (s : List Char) :
    GoesOn more (Reader.items (fuel + 1) depth s) (Reader.items (fuel' + 1) depth (s ++ more)) := by
  rw [items_eq, items_eq]
  refine (ih.value enough depth s).bind fun v rest => ?_
  refine goesOn_next _ (fun c cs => ?_) rest
  refine .ite (.ok [v] cs) (.ite (goesOn_next _ (fun d ds => ?_) cs) (.error _ _))
  exact .ite (.error _ _)
    ((ih.items enough depth (d :: ds)).bind fun vs rest => .ok (v :: vs) rest)

theorem entries_succ (depth : Nat) (before : List (String × Json)) (s : List Char) :
    GoesOn more (Reader.entries (fuel + 1) depth before s)
      (Reader.entries (fuel' + 1) depth before (s ++ more)) := by
  by_cases quoted : ∃ cs, s = '"' :: cs
  · obtain ⟨cs, rfl⟩ := quoted
    rw [List.cons_append, entries_eq, entries_eq]
    refine (goesOn_string cs).bind fun key rest => ?_
    refine goesOn_next _ (fun c cs => .ite ?_ (.error _ _)) rest
    refine (ih.value enough depth cs).bind fun v rest => ?_
    refine goesOn_next _ (fun d ds => ?_) rest
    refine .ite (.ok _ ds) (.ite (goesOn_next _ (fun e es => ?_) ds) (.error _ _))
    exact .ite (.error _ _) (ih.entries enough depth _ (e :: es))
  · have refused : Reader.entries (fuel + 1) depth before s = stopAhead .keyMustBeString s := by
      unfold Reader.entries
      split
      · exact absurd ⟨_, rfl⟩ quoted
      · rfl
    rw [refused]
    exact .error _ _

end ReadsOn

theorem readsOn {more : List Char} (ends : endsNumber more = true) (fuel : Nat) :
    ReadsOn more fuel := by
  induction fuel with
  | zero =>
    exact
      { value := fun _ _ _ => .error _ _
        items := fun _ _ _ => .error _ _
        entries := fun _ _ _ _ => .error _ _ }
  | succ fuel ih =>
    -- with as many steps or more there is a first one on either side
    constructor <;> intro fuel' enough <;> obtain ⟨more, rfl⟩ := Nat.exists_eq_add_of_lt enough
    · exact ih.value_succ (by omega) ends
    · exact ih.items_succ (by omega)
    · exact ih.entries_succ (by omega)

/-! ## Documents -/

theorem skip_append_of_nil {s : List Char} (spaces : skip s = []) (more : List Char) :
    skip (s ++ more) = skip more := by
  unfold skip at spaces ⊢
  rw [List.dropWhile_append, spaces]
  rfl

/-- A value is read from the first character on that is no space. -/
theorem value_congr {s t : List Char} (same : skip s = skip t) (fuel depth : Nat) :
    value (fuel + 1) depth s = value (fuel + 1) depth t := by
  rw [value, value, same]

theorem not_isDigit_of_isBlank {c : Char} (blank : Text.isBlank c = true) : c.isDigit = false := by
  rw [Bool.eq_false_iff]
  intro digit
  have range : 48 ≤ c.toNat ∧ c.toNat ≤ 57 := Char.isDigit_iff_toNat.mp digit
  simp only [Text.isBlank, Bool.or_eq_true, Bool.and_eq_true, decide_eq_true_eq] at blank
  omega

theorem ne_of_isBlank {c d : Char} (blank : Text.isBlank c = true)
    (visible : Text.isBlank d = false) : c ≠ d := by
  rintro rfl
  rw [blank] at visible
  cases visible

/-- No value begins with a blank that is no space. -/
theorem value_of_isBlank {s : List Char} {c : Char} {cs : List Char} (begins : skip s = c :: cs)
    (blank : Text.isBlank c = true) (fuel depth : Nat) :
    value (fuel + 1) depth s = stopAhead .expectedValue (c :: cs) := by
  have other {d : Char} (visible : Text.isBlank d = false) : c ≠ d := ne_of_isBlank blank visible
  rw [value_eq, next, begins]
  dsimp only
  rw [if_neg (other rfl), if_neg (other rfl), if_neg (other rfl), if_neg (other rfl),
    if_neg (other rfl), if_neg (other rfl), if_neg (other rfl), not_isDigit_of_isBlank blank,
    if_neg Bool.false_ne_true]

theorem endsNumber_of_isBlank {more : List Char} (blank : ∀ c ∈ more, Text.isBlank c = true) :
    endsNumber more = true := by
  cases more with
  | nil => rfl
  | cons c cs =>
    have first := blank c (by simp)
    have point : c ≠ '.' := ne_of_isBlank first rfl
    have small : c ≠ 'e' := ne_of_isBlank first rfl
    have great : c ≠ 'E' := ne_of_isBlank first rfl
    simp [endsNumber, not_isDigit_of_isBlank first, point, small, great]

theorem exists_of_document {s : List Char} {v : Json} (h : document s = .ok v) :
    ∃ rest, leadingValue s = .ok (v, rest) ∧ skip rest = [] := by
  rw [document] at h
  split at h
  · cases h
  · rename_i w rest read
    split at h
    · rename_i spaces
      cases h
      exact ⟨rest, read, spaces⟩
    · cases h

section Surroundings

variable {before behind : List Char}

theorem leadingValue_surrounded (spaces : skip before = []) (ends : endsNumber behind = true)
    {s rest : List Char} {v : Json} (h : leadingValue s = .ok (v, rest)) :
    leadingValue (before ++ (s ++ behind)) = .ok (v, rest ++ behind) := by
  rw [leadingValue, value_congr (skip_append_of_nil spaces _)]
  exact (readsOn ends _).value (by simp; omega) maxDepth s v rest h

/-- The refusal of the first blank around a document that is no space. -/
def strayBlank? (before s behind : List Char) : Option Stop :=
  match skip before, skip behind with
  | [], [] => none
  | [], rest => some ⟨.trailingCharacters, rest, 1⟩
  | rest, _ => some ⟨.expectedValue, rest ++ (s ++ behind), 1⟩

theorem strayBlank?_eq_none_iff (before s behind : List Char) :
    strayBlank? before s behind = none ↔ ∀ c ∈ before ++ behind, isSpace c = true := by
  have spaces (cs : List Char) : skip cs = [] ↔ ∀ c ∈ cs, isSpace c = true :=
    List.dropWhile_eq_nil_iff
  rw [List.forall_mem_append, ← spaces, ← spaces, strayBlank?]
  split <;> simp_all

/-- A document among blanks is read all the same where they are spaces. -/
theorem document_among_blanks (before_blank : ∀ c ∈ before, Text.isBlank c = true)
    (behind_blank : ∀ c ∈ behind, Text.isBlank c = true) {s : List Char} {v : Json}
    (h : document s = .ok v) :
    document (before ++ (s ++ behind)) =
      match strayBlank? before s behind with
      | none => .ok v
      | some stop => .error stop := by
  rw [strayBlank?]
  cases stray : skip before with
  | nil =>
    obtain ⟨rest, read, spaces⟩ := exists_of_document h
    rw [document, leadingValue_surrounded stray (endsNumber_of_isBlank behind_blank) read]
    dsimp only
    rw [skip_append_of_nil spaces]
    cases skip behind with
    | nil => rfl
    | cons c cs => rfl
  | cons c cs =>
    have blank : Text.isBlank c = true :=
      before_blank c ((List.dropWhile_sublist _).subset (stray ▸ List.mem_cons_self))
    have refused : leadingValue (before ++ (s ++ behind)) =
        stopAhead .expectedValue (c :: (cs ++ (s ++ behind))) :=
      value_of_isBlank (skip_append stray _) blank _ _
    rw [document, refused]
    rfl

end Surroundings

end BicepForge.Json.Reader
