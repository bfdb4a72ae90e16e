import BicepForge.Check.Code
import BicepForge.Proofs.Text.Pieces
import Mathlib.Tactic.Common

/-!
# Comments as an automaton

The check cuts comments line by line: it looks for the first pair of slashes and counts the quotes
ahead of it. A document is put together from parts that are smaller than a line, so the cut is
told here as an automaton that reads one character after the other. `withoutComments_text` ties
the two for texts that end with a line feed.
-/

namespace BicepForge.Check

/-- What is known about a line at some place in it. -/
inductive Mode where
  /-- No pair of slashes so far, and whether a string is open. -/
  | seeking (inString : Bool)
  /-- The first pair of slashes stood in a string, so that the whole line stays. -/
  | kept
  /-- A comment has begun. -/
  | dropped

/-- What is left of a text from some place in a line on. -/
def strip : Mode → List Char → List Char
  | _, [] => []
  | _, '\n' :: cs => '\n' :: strip (.seeking false) cs
  | _, '\r' :: '\n' :: cs => '\n' :: strip (.seeking false) cs
  | .seeking q, '/' :: '/' :: cs => if q then '/' :: '/' :: strip .kept cs else strip .dropped cs
  | .seeking q, c :: cs => c :: strip (.seeking (if c = '\'' then !q else q)) cs
  | .kept, c :: cs => c :: strip .kept cs
  | .dropped, _ :: cs => strip .dropped cs

@[simp] theorem strip_nil (m : Mode) : strip m [] = [] := by
  cases m <;> rfl

@[simp] theorem strip_feed (m : Mode) (cs : List Char) :
    strip m ('\n' :: cs) = '\n' :: strip (.seeking false) cs := by
  cases m <;> rfl

@[simp] theorem strip_return_feed (m : Mode) (cs : List Char) :
    strip m ('\r' :: '\n' :: cs) = '\n' :: strip (.seeking false) cs := by
  cases m <;> rfl

@[simp] theorem strip_slashes (q : Bool) (cs : List Char) :
    strip (.seeking q) ('/' :: '/' :: cs) =
      if q then '/' :: '/' :: strip .kept cs else strip .dropped cs := rfl

/-- A character that ends no line is dropped in a comment. -/
theorem strip_dropped_cons {c : Char} {cs : List Char} (feed : c ≠ '\n') :
    strip .dropped (c :: cs) = strip .dropped cs := by
  rw [strip.eq_def]
  split <;> simp_all

/-- A character that ends no line stays in a line that is kept. -/
theorem strip_kept_cons {c : Char} {cs : List Char} (feed : c ≠ '\n')
    (ret : c = '\r' → cs.head? ≠ some '\n') : strip .kept (c :: cs) = c :: strip .kept cs := by
  rw [strip.eq_def]
  split <;> simp_all

/-- A character that ends no line and begins no pair of slashes stays while these are sought. -/
theorem strip_seeking_cons {q : Bool} {c : Char} {cs : List Char} (feed : c ≠ '\n')
    (ret : c = '\r' → cs.head? ≠ some '\n') (slash : c = '/' → cs.head? ≠ some '/') :
    strip (.seeking q) (c :: cs) = c :: strip (.seeking (if c = '\'' then !q else q)) cs := by
  rw [strip.eq_def]
  split <;> simp_all

/-! ## Lines -/

/-- Every text is a line, or a line with a text behind its line feed. -/
theorem lineInduction {motive : List Char → Prop} (last : ∀ line, '\n' ∉ line → motive line)
    (line : ∀ line cs, '\n' ∉ line → motive cs → motive (line ++ '\n' :: cs))
    (cs : List Char) : motive cs := by
  induction hn : cs.length using Nat.strongRecOn generalizing cs with
  | ind n ih =>
    by_cases h : '\n' ∈ cs
    · obtain ⟨front, rest, rfl, own⟩ := List.eq_append_cons_of_mem h
      simp only [List.length_append, List.length_cons] at hn
      exact line front rest own (ih rest.length (by omega) rest rfl)
    · exact last cs h

/-- A line without the carriage return at its end. -/
def withoutReturn (line : List Char) : List Char :=
  if line.getLast? = some '\r' then line.dropLast else line

theorem withoutReturn_cons {c : Char} {cs : List Char} (h : cs = [] → c ≠ '\r') :
    withoutReturn (c :: cs) = c :: withoutReturn cs := by
  cases cs with
  | nil => simp [withoutReturn, h rfl]
  | cons d ds =>
    unfold withoutReturn
    rw [List.getLast?_cons_cons]
    split_ifs <;> simp

/-- What is left of a line without its end, by what is known where it is entered. -/
def Mode.cut : Mode → List Char → List Char
  | seeking q, line =>
    match beforeSlashes? line with
    | some front => if q = endsInString front then front else line
    | none => line
  | kept, line => line
  | dropped, _ => []

/-- Where a line begins, that is the cut of the check. -/
theorem Mode.cut_seeking_false (line : List Char) :
    (seeking false).cut line = withoutComment line := by
  rw [cut, withoutComment]
  cases beforeSlashes? line with
  | none => rfl
  | some front => cases h : endsInString front <;> simp [h]

@[simp] theorem endsInString_cons (c : Char) (cs : List Char) :
    endsInString (c :: cs) = if c = '\'' then !endsInString cs else endsInString cs := by
  by_cases h : c = '\''
  · subst h
    simp only [endsInString, List.count_cons_self, if_true]
    rcases Nat.mod_two_eq_zero_or_one (cs.count '\'') with e | e <;> simp [Nat.add_mod, e]
  · simp [endsInString, List.count_cons_of_ne, h]

theorem beforeSlashes?_cons {c : Char} {cs : List Char} (h : c = '/' → cs.head? ≠ some '/') :
    beforeSlashes? (c :: cs) = (beforeSlashes? cs).map (c :: ·) := by
  rw [beforeSlashes?.eq_def]
  split <;> simp_all

theorem Mode.cut_seeking_cons {q : Bool} {c : Char} {cs : List Char}
    (h : c = '/' → cs.head? ≠ some '/') :
    (seeking q).cut (c :: cs) = c :: (seeking (if c = '\'' then !q else q)).cut cs := by
  simp only [cut, beforeSlashes?_cons h]
  cases beforeSlashes? cs with
  | none => rfl
  | some front =>
    simp only [Option.map_some, endsInString_cons]
    by_cases quote : c = '\'' <;> simp only [quote, if_true, if_false]
    · cases q <;> cases endsInString front <;> rfl
    · split_ifs <;> rfl

theorem head?_withoutReturn {cs : List Char} {c : Char} (h : (withoutReturn cs).head? = some c) :
    cs.head? = some c := by
  unfold withoutReturn at h
  split_ifs at h
  · cases cs with
    | nil => simp at h
    | cons d ds =>
      cases ds with
      | nil => simp at h
      | cons => simpa using h
  · exact h

/-- The automaton does to each line what the cut does. -/
theorem strip_line (m : Mode) {line : List Char} (own : '\n' ∉ line) (cs : List Char) :
    strip m (line ++ '\n' :: cs) =
      m.cut (withoutReturn line) ++ '\n' :: strip (.seeking false) cs := by
  induction line generalizing m with
  | nil => cases m <;> simp [Mode.cut, withoutReturn, beforeSlashes?]
  | cons c line ih =>
    obtain ⟨feed, more⟩ := not_or.mp (List.mem_cons.not.mp own)
    by_cases bare : line = [] ∧ c = '\r'
    · obtain ⟨rfl, rfl⟩ := bare
      cases m <;> simp [Mode.cut, withoutReturn, beforeSlashes?]
    have front : withoutReturn (c :: line) = c :: withoutReturn line :=
      withoutReturn_cons fun nil ret => bare ⟨nil, ret⟩
    have ret : c = '\r' → (line ++ '\n' :: cs).head? ≠ some '\n' := by
      intro ret
      cases line with
      | nil => exact absurd ⟨rfl, ret⟩ bare
      | cons d ds => simpa using fun e => more (by simp [e])
    rw [front, List.cons_append]
    cases m with
    | dropped => rw [strip_dropped_cons (Ne.symm feed), ih _ more]; rfl
    | kept => rw [strip_kept_cons (Ne.symm feed) ret, ih _ more]; rfl
    | seeking q =>
      by_cases slash : c = '/' ∧ line.head? = some '/'
      · obtain ⟨rfl, second⟩ := slash
        obtain ⟨ds, rfl⟩ : ∃ ds, line = '/' :: ds := by
          cases line <;> simp_all
        have rest : withoutReturn ('/' :: ds) = '/' :: withoutReturn ds :=
          withoutReturn_cons fun _ => by decide
        cases q with
        | false =>
          have dropped := ih .dropped more
          rw [List.cons_append, strip_dropped_cons (by decide)] at dropped
          simpa [rest, Mode.cut, beforeSlashes?, endsInString] using dropped
        | true =>
          have kept := ih .kept more
          rw [List.cons_append, strip_kept_cons (by decide) (by simp)] at kept
          simpa [rest, Mode.cut, beforeSlashes?, endsInString] using kept
      · have text : c = '/' → (line ++ '\n' :: cs).head? ≠ some '/' := by
          intro hc second
          refine slash ⟨hc, ?_⟩
          cases line with
          | nil => simp at second
          | cons => simpa using second
        have cut : c = '/' → (withoutReturn line).head? ≠ some '/' := by
          intro hc second
          exact slash ⟨hc, head?_withoutReturn second⟩
        rw [strip_seeking_cons (Ne.symm feed) ret text, ih _ more, Mode.cut_seeking_cons cut]
        rfl

/-! ## Texts -/

theorem lines_append_feed (cs : List Char) :
    Text.lines (String.ofList (cs ++ ['\n'])) = (Text.splitOn '\n' cs).map withoutReturn := by
  have last : Text.splitOn '\n' [] = [[]] := rfl
  simp only [Text.lines, String.toList_ofList, Text.splitOn_append, last]
  simp [withoutReturn]

/-- The automaton reads a text that ends with a line feed line by line. -/
theorem strip_append_feed (cs : List Char) :
    strip (.seeking false) (cs ++ ['\n']) =
      (Text.splitOn '\n' cs).flatMap fun line => withoutComment (withoutReturn line) ++ ['\n'] := by
  induction cs using lineInduction with
  | last line own =>
    rw [strip_line _ own, Text.splitOn_of_notMem own]
    simp [Mode.cut_seeking_false]
  | line line cs own ih =>
    rw [List.append_assoc, List.cons_append, strip_line _ own, Text.splitOn_line own, ih]
    simp [Mode.cut_seeking_false]

theorem intercalate_append_feed {lines : List (List Char)} (h : lines ≠ []) :
    ['\n'].intercalate lines ++ ['\n'] = lines.flatMap (· ++ ['\n']) := by
  induction lines with
  | nil => exact absurd rfl h
  | cons line lines ih =>
    cases lines with
    | nil => simp [List.intercalate]
    | cons next more =>
      have rest := ih (by simp)
      rw [List.flatMap_cons, ← rest, Text.intercalate_cons_cons]
      simp only [List.append_assoc]

/-- On a text that ends with a line feed the check sees what the automaton leaves. -/
theorem withoutComments_append_feed (cs : List Char) :
    withoutComments (String.ofList (cs ++ ['\n'])) ++ ['\n'] =
      strip (.seeking false) (cs ++ ['\n']) := by
  rw [withoutComments, lines_append_feed, strip_append_feed, List.map_map,
    intercalate_append_feed (by simp [Text.splitOn_ne_nil]), List.flatMap_map]
  rfl

/-! ## The end of a text -/

/-- Nothing is added. -/
theorem mem_of_mem_strip {m : Mode} {cs : List Char} {c : Char} (h : c ∈ strip m cs) :
    c ∈ cs := by
  fun_induction strip m cs <;> grind

def EndsSolid (cs : List Char) : Prop :=
  ∀ c, cs.getLast? = some c → Text.isBlank c = false

theorem EndsSolid.tail {c : Char} {cs : List Char} (h : EndsSolid (c :: cs)) : EndsSolid cs := by
  intro d hd
  refine h d ?_
  rw [List.getLast?_cons, hd]
  rfl

/-- What follows a character in a text with blanks behind it. -/
theorem EndsSolid.head?_append {c : Char} {cs blanks : List Char} (h : EndsSolid (c :: cs))
    (hb : ∀ b ∈ blanks, Text.isBlank b = true) {d : Char}
    (hd : (cs ++ blanks).head? = some d) :
    (∃ ds, cs = d :: ds) ∨ (Text.isBlank c = false ∧ Text.isBlank d = true) := by
  cases cs with
  | nil =>
    refine .inr ⟨h c rfl, hb d ?_⟩
    exact List.mem_of_mem_head? (by simpa using hd)
  | cons e es => exact .inl ⟨es, by simpa using hd⟩

/-- The blanks do not make a carriage return the end of a line. -/
theorem EndsSolid.head?_append_ne_feed {c : Char} {cs blanks : List Char}
    (h : EndsSolid (c :: cs)) (hb : ∀ b ∈ blanks, Text.isBlank b = true)
    (ret : ∀ ds, c = '\r' → cs = '\n' :: ds → False) (hc : c = '\r') :
    (cs ++ blanks).head? ≠ some '\n' := by
  intro head
  rcases h.head?_append hb head with ⟨ds, hd⟩ | ⟨blank, -⟩
  · exact ret ds hc hd
  · subst hc
    exact absurd blank (by decide)

/-- Blanks behind a text are read on their own, in a mode that the text decides. -/
theorem exists_strip_append_blanks (m : Mode) {cs : List Char} (solid : EndsSolid cs) :
    ∃ m', ∀ blanks : List Char, (∀ b ∈ blanks, Text.isBlank b = true) →
      strip m (cs ++ blanks) = strip m cs ++ strip m' blanks := by
  fun_induction strip m cs with
  | case1 m => exact ⟨m, fun _ _ => rfl⟩
  | case2 m cs ih =>
    obtain ⟨m', step⟩ := ih solid.tail
    exact ⟨m', fun blanks hb => by rw [List.cons_append, strip_feed, step blanks hb]; rfl⟩
  | case3 m cs ih =>
    obtain ⟨m', step⟩ := ih solid.tail.tail
    refine ⟨m', fun blanks hb => ?_⟩
    rw [List.cons_append, List.cons_append, strip_return_feed, step blanks hb]
    rfl
  | case4 cs ih =>
    obtain ⟨m', step⟩ := ih solid.tail.tail
    refine ⟨m', fun blanks hb => ?_⟩
    rw [List.cons_append, List.cons_append, strip_slashes, if_pos rfl, step blanks hb]
    rfl
  | case5 q cs out ih =>
    obtain ⟨m', step⟩ := ih solid.tail.tail
    refine ⟨m', fun blanks hb => ?_⟩
    rw [List.cons_append, List.cons_append, strip_slashes, if_neg out, step blanks hb]
  | case6 q c cs feed ret slash ih =>
    obtain ⟨m', step⟩ := ih solid.tail
    refine ⟨m', fun blanks hb => ?_⟩
    rw [List.cons_append, strip_seeking_cons feed (solid.head?_append_ne_feed hb ret),
      step blanks hb]
    · rfl
    · intro hc head
      rcases solid.head?_append hb head with ⟨ds, hd⟩ | ⟨-, blank⟩
      · exact slash ds hc hd
      · exact absurd blank (by decide)
  | case7 c cs feed ret ih =>
    obtain ⟨m', step⟩ := ih solid.tail
    refine ⟨m', fun blanks hb => ?_⟩
    rw [List.cons_append, strip_kept_cons feed (solid.head?_append_ne_feed hb ret),
      step blanks hb]
    rfl
  | case8 c cs feed ret ih =>
    obtain ⟨m', step⟩ := ih solid.tail
    exact ⟨m', fun blanks hb => by
      rw [List.cons_append, strip_dropped_cons feed, step blanks hb]⟩

end BicepForge.Check
