import BicepForge.Check.Code
import BicepForge.Proofs.Text.Letters
import Mathlib.Data.List.TakeWhile
import Mathlib.Tactic.Common

/-!
# Counting declarations without fuel

A search for declarations is either at the start of a line or behind it. The equations of
`countFrom` say how it goes on from there, and what follows is told in terms of the first word of
a line: a keyword with a blank behind it makes a declaration, any other word makes none.
-/

namespace BicepForge.Check

variable {keyword : List Char}

/-- The characters of names are letters, digits and underscores of ASCII, and these are no
blanks. -/
theorem isBlank_of_continuesName {c : Char} (h : continuesName c = true) :
    Text.isBlank c = false := by
  rw [continuesName, Bool.or_eq_true, beq_iff_eq, Text.isAlphanum_iff] at h
  rcases h with range | rfl
  · simp only [Text.isBlank, Bool.or_eq_false_iff, Bool.and_eq_false_iff, decide_eq_false_iff_not]
    omega
  · decide

theorem continuesName_of_beginsName {c : Char} (h : beginsName c = true) :
    continuesName c = true := by
  simp only [beginsName, continuesName, Char.isAlphanum, Bool.or_eq_true] at h ⊢
  tauto

/-- What a declaration looks like: blanks, the keyword, at least one blank, a name. -/
theorem eq_append_of_afterDeclaration? {cs rest : List Char}
    (h : afterDeclaration? keyword cs = some rest) :
    ∃ front b gap c tail, cs = front ++ keyword ++ b :: (gap ++ c :: tail) ∧
      rest = tail.dropWhile continuesName := by
  simp only [afterDeclaration?] at h
  by_cases start : keyword.isPrefixOf (cs.dropWhile Text.isBlank) = true
  · rw [if_pos start] at h
    obtain ⟨behind, hb⟩ := List.isPrefixOf_iff_prefix.mp start
    have whole : cs = cs.takeWhile Text.isBlank ++ keyword ++ behind := by
      rw [List.append_assoc, hb, List.takeWhile_append_dropWhile]
    rw [← hb, List.drop_left] at h
    cases behind with
    | nil => cases h
    | cons b more =>
      by_cases blank : Text.isBlank b = true
      · simp only [if_pos blank] at h
        have split := (more.takeWhile_append_dropWhile (p := Text.isBlank)).symm
        cases name : more.dropWhile Text.isBlank with
        | nil => simp [name] at h
        | cons c tail =>
          rw [name] at h split
          by_cases begins : beginsName c = true
          · simp only [if_pos begins, Option.some.injEq] at h
            exact ⟨_, b, _, c, tail, split ▸ whole, h.symm⟩
          · simp [begins] at h
      · simp [blank] at h
  · simp [start] at h

/-- A declaration takes up at least one character. -/
theorem length_afterDeclaration? {cs rest : List Char}
    (h : afterDeclaration? keyword cs = some rest) : rest.length < cs.length := by
  obtain ⟨front, b, gap, c, tail, rfl, rfl⟩ := eq_append_of_afterDeclaration? h
  have name := (List.dropWhile_sublist continuesName (l := tail)).length_le
  simp only [List.length_append, List.length_cons]
  omega

/-- The number of declarations from some place of a text on. -/
def countFrom (keyword : List Char) (lineStart : Bool) (cs : List Char) : Nat :=
  countDeclarations keyword (cs.length + 1) lineStart cs

theorem countDeclarations_succ_eq (fuel : Nat) (lineStart : Bool) (cs : List Char) :
    countDeclarations keyword (fuel + 1) lineStart cs =
      match if lineStart then afterDeclaration? keyword cs else none with
      | some rest => countDeclarations keyword fuel false rest + 1
      | none =>
        match cs with
        | [] => 0
        | c :: cs => countDeclarations keyword fuel (c == '\n') cs := rfl

/-- One unit of fuel more than the length of the text is enough. -/
theorem countDeclarations_succ : ∀ (fuel : Nat) (lineStart : Bool) (cs : List Char),
    cs.length < fuel →
    countDeclarations keyword (fuel + 1) lineStart cs = countDeclarations keyword fuel lineStart cs
  | 0, _, _, h => absurd h (Nat.not_lt_zero _)
  | fuel + 1, lineStart, cs, h => by
    rw [countDeclarations_succ_eq, countDeclarations_succ_eq fuel]
    cases found : if lineStart then afterDeclaration? keyword cs else none with
    | some rest =>
      have shorter : rest.length < cs.length := by
        cases lineStart with
        | true => exact length_afterDeclaration? found
        | false => cases found
      simp only [countDeclarations_succ fuel false rest (by omega)]
    | none =>
      cases cs with
      | nil => rfl
      | cons c cs =>
        simp only [List.length_cons] at h
        simp only [countDeclarations_succ fuel (c == '\n') cs (by omega)]

theorem countDeclarations_of_lt {fuel : Nat} {lineStart : Bool} {cs : List Char}
    (h : cs.length < fuel) :
    countDeclarations keyword fuel lineStart cs = countFrom keyword lineStart cs := by
  induction fuel with
  | zero => exact absurd h (Nat.not_lt_zero _)
  | succ fuel ih =>
    rcases Nat.lt_succ_iff_lt_or_eq.mp h with less | rfl
    · rw [countDeclarations_succ fuel lineStart cs less, ih less]
    · rfl

/-! ## How a search goes on -/

@[simp] theorem countFrom_nil (lineStart : Bool) : countFrom keyword lineStart [] = 0 := by
  cases lineStart with
  | false => rfl
  | true =>
    cases found : afterDeclaration? keyword [] with
    | some rest => exact absurd (length_afterDeclaration? found) (Nat.not_lt_zero _)
    | none => simp [countFrom, countDeclarations, found]

/-- Behind the start of a line nothing is found before the next line. -/
theorem countFrom_false_cons (c : Char) (cs : List Char) :
    countFrom keyword false (c :: cs) = countFrom keyword (c == '\n') cs := rfl

/-- At the start of a line there is a declaration, or the search goes on behind it. -/
theorem countFrom_true (cs : List Char) :
    countFrom keyword true cs =
      match afterDeclaration? keyword cs with
      | some rest => countFrom keyword false rest + 1
      | none => countFrom keyword false cs := by
  rw [countFrom, countDeclarations_succ_eq, if_pos rfl]
  cases found : afterDeclaration? keyword cs with
  | some rest => simp only [countDeclarations_of_lt (length_afterDeclaration? found)]
  | none => rfl

/-- The rest of a line holds no declaration. -/
theorem countFrom_false_append {line : List Char} (own : '\n' ∉ line) (cs : List Char) :
    countFrom keyword false (line ++ cs) = countFrom keyword false cs := by
  induction line with
  | nil => rfl
  | cons c line ih =>
    obtain ⟨feed, own⟩ := not_or.mp (List.mem_cons.not.mp own)
    have other : (c == '\n') = false := by simp [Ne.symm feed]
    rw [List.cons_append, countFrom_false_cons, other, ih own]

/-! ## Blanks -/

theorem afterDeclaration?_blank {b : Char} (blank : Text.isBlank b = true) (cs : List Char) :
    afterDeclaration? keyword (b :: cs) = afterDeclaration? keyword cs := by
  simp [afterDeclaration?, blank]

/-- Blanks ahead of a line do not matter, be they indentation or empty lines. -/
theorem countFrom_true_blank {b : Char} (blank : Text.isBlank b = true) (cs : List Char) :
    countFrom keyword true (b :: cs) = countFrom keyword true cs := by
  rw [countFrom_true, countFrom_true cs, afterDeclaration?_blank blank]
  cases found : afterDeclaration? keyword cs with
  | some rest => rfl
  | none =>
    rw [countFrom_false_cons]
    cases b == '\n' with
    | false => rfl
    | true => simp only [countFrom_true, found]

theorem countFrom_true_blanks {blanks : List Char} (h : ∀ b ∈ blanks, Text.isBlank b = true)
    (cs : List Char) :
    countFrom keyword true (blanks ++ cs) = countFrom keyword true cs := by
  induction blanks with
  | nil => rfl
  | cons b blanks ih =>
    rw [List.cons_append, countFrom_true_blank (h b (by simp)),
      ih fun b hb => h b (List.mem_cons_of_mem _ hb)]

theorem dropWhile_isBlank_append {blanks : List Char} (h : ∀ b ∈ blanks, Text.isBlank b = true)
    (cs : List Char) :
    (cs ++ blanks).dropWhile Text.isBlank =
      if cs.dropWhile Text.isBlank = [] then []
      else cs.dropWhile Text.isBlank ++ blanks := by
  induction cs with
  | nil => simpa [List.dropWhile_eq_nil_iff] using h
  | cons c cs ih =>
    cases blank : Text.isBlank c with
    | true => simpa [blank] using ih
    | false => simp [blank]

theorem dropWhile_continuesName_append {blanks : List Char}
    (h : ∀ b ∈ blanks, Text.isBlank b = true) (cs : List Char) :
    (cs ++ blanks).dropWhile continuesName = cs.dropWhile continuesName ++ blanks := by
  induction cs with
  | nil =>
    cases blanks with
    | nil => rfl
    | cons b bs =>
      cases name : continuesName b with
      | false => simp [name]
      | true => exact absurd (h b (by simp)) (by simp [isBlank_of_continuesName name])
  | cons c cs ih => cases name : continuesName c <;> simp [name, ih]

/-- A word of names begins a text with blanks behind it just if it begins the text. -/
theorem prefix_append_blanks_iff {blanks : List Char}
    (h : ∀ b ∈ blanks, Text.isBlank b = true) (own : ∀ c ∈ keyword, continuesName c = true)
    (cs : List Char) : keyword <+: cs ++ blanks ↔ keyword <+: cs := by
  refine ⟨fun long => ?_, fun start => start.trans (List.prefix_append cs blanks)⟩
  rcases List.prefix_or_prefix_of_prefix long (List.prefix_append cs blanks) with start | more
  · exact start
  · obtain ⟨gap, rfl⟩ := more
    rw [List.prefix_append_right_inj] at long
    cases gap with
    | nil => simp
    | cons b gap =>
      have blank := h b (long.subset (by simp))
      exact absurd blank (by simp [isBlank_of_continuesName (own b (by simp))])

/-- Blanks behind a text make no declaration of it, and no longer one. -/
theorem afterDeclaration?_append_blanks {blanks : List Char}
    (h : ∀ b ∈ blanks, Text.isBlank b = true) (own : ∀ c ∈ keyword, continuesName c = true)
    (cs : List Char) :
    afterDeclaration? keyword (cs ++ blanks) =
      (afterDeclaration? keyword cs).map (· ++ blanks) := by
  simp only [afterDeclaration?, dropWhile_isBlank_append h]
  generalize cs.dropWhile Text.isBlank = ds
  by_cases empty : ds = []
  · subst empty
    cases keyword <;> rfl
  rw [if_neg empty]
  by_cases start : keyword <+: ds
  · obtain ⟨behind, rfl⟩ := start
    rw [if_pos (by simp), if_pos (by simp), List.append_assoc, List.drop_left, List.drop_left]
    cases behind with
    | nil =>
      cases blanks with
      | nil => rfl
      | cons b bs =>
        have rest : bs.dropWhile Text.isBlank = [] := by
          simpa [List.dropWhile_eq_nil_iff] using fun c hc => h c (List.mem_cons_of_mem _ hc)
        simp [rest]
    | cons b more =>
      simp only [List.cons_append, dropWhile_isBlank_append h]
      cases blank : Text.isBlank b with
      | false => simp
      | true =>
        cases name : more.dropWhile Text.isBlank with
        | nil => simp
        | cons c tail =>
          cases begins : beginsName c <;> simp [begins, dropWhile_continuesName_append h]
  · have longer := (prefix_append_blanks_iff h own ds).not.mpr start
    rw [if_neg (by simpa using longer), if_neg (by simpa using start)]
    rfl

theorem countFrom_of_blanks {blanks : List Char} (h : ∀ b ∈ blanks, Text.isBlank b = true)
    (lineStart : Bool) :
    countFrom keyword lineStart blanks = 0 := by
  induction blanks generalizing lineStart with
  | nil => exact countFrom_nil lineStart
  | cons b blanks ih =>
    have rest := ih fun c hc => h c (List.mem_cons_of_mem _ hc)
    cases lineStart with
    | false => rw [countFrom_false_cons, rest]
    | true => rw [countFrom_true_blank (h b (by simp)), rest]

/-- Blanks at the end of a text do not matter. -/
theorem countFrom_append_blanks {blanks : List Char} (h : ∀ b ∈ blanks, Text.isBlank b = true)
    (own : ∀ c ∈ keyword, continuesName c = true) (lineStart : Bool) (cs : List Char) :
    countFrom keyword lineStart (cs ++ blanks) = countFrom keyword lineStart cs := by
  induction hn : cs.length using Nat.strongRecOn generalizing cs lineStart with
  | ind n ih =>
    have behind : countFrom keyword false (cs ++ blanks) = countFrom keyword false cs := by
      cases cs with
      | nil => rw [List.nil_append, countFrom_of_blanks h, countFrom_nil]
      | cons c cs =>
        simp only [List.length_cons] at hn
        rw [List.cons_append, countFrom_false_cons, countFrom_false_cons,
          ih cs.length (by omega) _ _ rfl]
    cases lineStart with
    | false => exact behind
    | true =>
      rw [countFrom_true, countFrom_true cs, afterDeclaration?_append_blanks h own]
      cases found : afterDeclaration? keyword cs with
      | some rest =>
        have shorter := length_afterDeclaration? found
        simp only [Option.map_some, ih rest.length (by omega) false rest rfl]
      | none => exact behind

/-! ## Words -/

def keywords : List (List Char) :=
  declarationKinds.map (·.1.toList)

theorem continuesName_of_keyword (h : keyword ∈ keywords) :
    ∀ c ∈ keyword, continuesName c = true := by
  revert keyword
  decide

/-- A line that begins with a word declares nothing, unless the word is a keyword and stands
before a blank. -/
theorem afterDeclaration?_word (h : keyword ∈ keywords) {word : List Char}
    (name : ∀ c ∈ word, continuesName c = true) {d : Char} (stop : continuesName d = false)
    (front : word = [] → Text.isBlank d = false)
    (other : word = keyword → Text.isBlank d = false) (cs : List Char) :
    afterDeclaration? keyword (word ++ d :: cs) = none := by
  have start : (word ++ d :: cs).dropWhile Text.isBlank = word ++ d :: cs := by
    cases word with
    | nil => simp [front rfl]
    | cons c word => simp [isBlank_of_continuesName (name c (by simp))]
  simp only [afterDeclaration?, start]
  by_cases begins : keyword <+: word ++ d :: cs
  · rw [if_pos (by simpa using begins)]
    obtain ⟨more, rfl⟩ : keyword <+: word := by
      rcases List.prefix_or_prefix_of_prefix begins (List.prefix_append word _) with short | long
      · exact short
      · obtain ⟨more, rfl⟩ := long
        rw [List.prefix_append_right_inj] at begins
        cases more with
        | nil => simp
        | cons c more =>
          obtain ⟨rfl, -⟩ := List.cons_prefix_cons.mp begins
          exact absurd (continuesName_of_keyword h c (by simp)) (by simp [stop])
    rw [List.append_assoc, List.drop_left]
    cases more with
    | nil => simp [other (by simp)]
    | cons b more => simp [isBlank_of_continuesName (name b (by simp))]
  · rw [if_neg (by simpa using begins)]

theorem afterDeclaration?_self (h : keyword ∈ keywords) {c : Char} (name : beginsName c = true)
    (cs : List Char) :
    afterDeclaration? keyword (keyword ++ ' ' :: c :: cs) = some (cs.dropWhile continuesName) := by
  have start : (keyword ++ ' ' :: c :: cs).dropWhile Text.isBlank = keyword ++ ' ' :: c :: cs := by
    have own := continuesName_of_keyword h
    cases keyword with
    | nil => exact absurd h (by decide)
    | cons k _ => simp [isBlank_of_continuesName (own k (by simp))]
  have letter := isBlank_of_continuesName (continuesName_of_beginsName name)
  have gap : Text.isBlank ' ' = true := by decide
  simp [afterDeclaration?, start, gap, letter, name]

theorem notMem_feed_of_continuesName {cs : List Char} (name : ∀ c ∈ cs, continuesName c = true) :
    '\n' ∉ cs :=
  fun feed => absurd (name _ feed) (by decide)

/-- The search goes on behind a name as it does inside of it. -/
theorem countFrom_dropWhile (cs : List Char) :
    countFrom keyword false (cs.dropWhile continuesName) = countFrom keyword false cs := by
  have own : '\n' ∉ cs.takeWhile continuesName :=
    notMem_feed_of_continuesName fun c hc => List.mem_takeWhile_imp hc
  conv_rhs => rw [← List.takeWhile_append_dropWhile (p := continuesName) (l := cs)]
  rw [countFrom_false_append own]

/-- A line that begins with a keyword, a blank and the first letter of a name is one declaration
of that keyword, and none of any other. -/
theorem countFrom_declaration (h : keyword ∈ keywords) {word : List Char} (hw : word ∈ keywords)
    {c : Char} (name : beginsName c = true) (cs : List Char) :
    countFrom keyword true (word ++ ' ' :: c :: cs) =
      countFrom keyword false cs + if keyword = word then 1 else 0 := by
  rw [countFrom_true]
  by_cases same : keyword = word
  · subst same
    rw [afterDeclaration?_self h name, if_pos rfl]
    simp only [countFrom_dropWhile]
  · have front : word ≠ [] := by
      rintro rfl
      exact absurd hw (by decide)
    have own := notMem_feed_of_continuesName (continuesName_of_keyword hw)
    have letter : '\n' ∉ [' ', c] := by
      intro feed
      have : c = '\n' := by simpa [eq_comm] using feed
      subst this
      exact absurd name (by decide)
    rw [afterDeclaration?_word h (continuesName_of_keyword hw) (by decide)
      (fun e => absurd e front) (fun e => absurd e.symm same), if_neg same]
    simp only [countFrom_false_append own]
    exact countFrom_false_append letter cs

end BicepForge.Check
