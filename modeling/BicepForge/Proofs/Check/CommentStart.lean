import BicepForge.Proofs.Check.Comments
import Mathlib.Algebra.Ring.Parity

/-!
# Where comments begin

A comment begins at the first pair of slashes in a line that stands outside of strings. The check
looks for the first pair of slashes at all, and takes it for the beginning of a comment if the
quotes ahead of it are even in number. Main statement: a text in a string is cut away exactly where
that number is even although the pair stands in a string, and the cut is right if a comment is never
taken for a part of a string either.
-/

namespace BicepForge.Check

/-! ## Strings and comments -/

/-- Where a character of a line stands. -/
inductive Place where
  | code
  | string
  /-- Behind a backslash in a string. -/
  | escaped
deriving DecidableEq

/-- Where the character behind another one stands. -/
def Place.next : Place → Char → Place
  | code, c => if c = '\'' then string else code
  | string, c => if c = '\'' then code else if c = '\\' then escaped else string
  | escaped, _ => string

/-- Where the character behind the beginning of a line stands. -/
def placeAfter (front : List Char) : Place :=
  front.foldl Place.next .code

/-- The first pair of slashes in a line stands behind `front`. -/
structure FirstSlashes (line front : List Char) : Prop where
  there : front ++ ['/', '/'] <+: line
  first : ∀ shorter, shorter ++ ['/', '/'] <+: line → front.length ≤ shorter.length

/-- The comment of a line begins behind `front`, with the first pair of slashes that stands outside
of strings. -/
structure CommentBegins (line front : List Char) : Prop where
  there : front ++ ['/', '/'] <+: line
  outside : placeAfter front = .code
  first : ∀ shorter, shorter ++ ['/', '/'] <+: line → placeAfter shorter = .code →
    front.length ≤ shorter.length

/-- The character of a line behind `front` stands in a string, and not in a comment. -/
structure InString (line front : List Char) : Prop where
  inside : placeAfter front ≠ .code
  ahead : ∀ shorter, shorter ++ ['/', '/'] <+: line → placeAfter shorter = .code →
    front.length ≤ shorter.length

/-- If the line has a comment, the quotes ahead of its first pair of slashes are even in number. -/
def CommentIgnored (line : List Char) : Prop :=
  ∀ front front', FirstSlashes line front → CommentBegins line front' → Even (front.count '\'')

/-- If the first pair of slashes stands in a string, the quotes ahead of it are odd in number. -/
def StringHeeded (line : List Char) : Prop :=
  ∀ front, FirstSlashes line front → placeAfter front ≠ .code → Odd (front.count '\'')

/-- No character of a string is cut away from the line. -/
def StringsKept (line : List Char) : Prop :=
  ∀ front c, front ++ [c] <+: line → InString line front → front ++ [c] <+: withoutComment line

/-! ## The cut -/

section Cut

variable {line front front' : List Char}

theorem prefix_of_slashes (h : front ++ ['/', '/'] <+: line) : front <+: line :=
  (List.prefix_append _ _).trans h

/-- Two beginnings of a line of one length are the same. -/
theorem eq_of_slashes (h : front ++ ['/', '/'] <+: line) (h' : front' ++ ['/', '/'] <+: line)
    (length : front.length = front'.length) : front = front' :=
  (List.prefix_of_prefix_length_le (prefix_of_slashes h) (prefix_of_slashes h')
    (Nat.le_of_eq length)).eq_of_length length

theorem FirstSlashes.unique (h : FirstSlashes line front) (h' : FirstSlashes line front') :
    front = front' :=
  eq_of_slashes h.there h'.there (Nat.le_antisymm (h.first _ h'.there) (h'.first _ h.there))

theorem CommentBegins.unique (h : CommentBegins line front) (h' : CommentBegins line front') :
    front = front' :=
  eq_of_slashes h.there h'.there
    (Nat.le_antisymm (h.first _ h'.there h'.outside) (h'.first _ h.there h.outside))

/-- The first pair of slashes begins the comment if it stands outside of strings. -/
theorem FirstSlashes.commentBegins (h : FirstSlashes line front)
    (outside : placeAfter front = .code) : CommentBegins line front where
  there := h.there
  outside := outside
  first shorter there _ := h.first shorter there

theorem firstSlashes_cons {c : Char} (none : c = '/' → line.head? ≠ some '/')
    (h : FirstSlashes line front) : FirstSlashes (c :: line) (c :: front) where
  there := List.cons_prefix_cons.mpr ⟨rfl, h.there⟩
  first := by
    intro shorter there
    cases shorter with
    | nil =>
      obtain ⟨rest, same⟩ := there
      obtain ⟨rfl, rfl⟩ := List.cons.inj same
      exact absurd rfl (none rfl)
    | cons d ds =>
      obtain ⟨-, there⟩ := List.cons_prefix_cons.mp there
      exact Nat.succ_le_succ (h.first ds there)

/-- The search finds the first pair of slashes, or there is none. -/
theorem firstSlashes_of_beforeSlashes? (line : List Char) :
    match beforeSlashes? line with
    | some front => FirstSlashes line front
    | none => ∀ front, ¬ front ++ ['/', '/'] <+: line := by
  induction line using beforeSlashes?.induct with
  | case1 =>
    intro front there
    simpa using List.prefix_nil.mp there
  | case2 rest => exact ⟨⟨rest, rfl⟩, fun _ _ => Nat.zero_le _⟩
  | case3 c cs other ih =>
    have none : c = '/' → cs.head? ≠ some '/' := by
      intro slash second
      cases cs with
      | nil => cases second
      | cons d ds => exact other ds slash (by rw [Option.some.inj second])
    rw [beforeSlashes?_cons none]
    cases found : beforeSlashes? cs with
    | some front =>
      rw [found] at ih
      exact firstSlashes_cons none ih
    | none =>
      rw [found] at ih
      intro front there
      cases front with
      | nil =>
        obtain ⟨rest, same⟩ := there
        obtain ⟨rfl, rfl⟩ := List.cons.inj same
        exact none rfl rfl
      | cons d ds => exact ih ds (List.cons_prefix_cons.mp there).2

theorem firstSlashes_iff : FirstSlashes line front ↔ beforeSlashes? line = some front := by
  have found := firstSlashes_of_beforeSlashes? line
  constructor
  · intro h
    cases search : beforeSlashes? line with
    | some front' =>
      rw [search] at found
      rw [h.unique found]
    | none =>
      rw [search] at found
      exact absurd h.there (found front)
  · intro search
    rw [search] at found
    exact found

theorem endsInString_iff : endsInString front = true ↔ Odd (front.count '\'') := by
  rw [endsInString, beq_iff_eq, Nat.odd_iff]

/-- What the cut does to a line. -/
inductive Cut (line : List Char) : Prop where
  | unmarked (none : ∀ front, ¬ front ++ ['/', '/'] <+: line) (kept : withoutComment line = line)
  | taken (front : List Char) (first : FirstSlashes line front) (even : Even (front.count '\''))
      (cut : withoutComment line = front)
  | passed (front : List Char) (first : FirstSlashes line front) (odd : Odd (front.count '\''))
      (kept : withoutComment line = line)

/-- A line is cut at its first pair of slashes or not at all, as the quotes ahead of it decide. -/
theorem cut (line : List Char) : Cut line := by
  have found := firstSlashes_of_beforeSlashes? line
  cases search : beforeSlashes? line with
  | none =>
    rw [search] at found
    exact .unmarked found (by rw [withoutComment, search])
  | some front =>
    rw [search] at found
    by_cases odd : Odd (front.count '\'')
    · refine .passed front found odd ?_
      simp only [withoutComment, search, endsInString_iff.mpr odd, if_true]
    · have even : endsInString front = false := Bool.eq_false_iff.mpr (mt endsInString_iff.mp odd)
      refine .taken front found (Nat.not_odd_iff_even.mp odd) ?_
      simp only [withoutComment, search, even, Bool.false_eq_true, if_false]

end Cut

/-! ## Strings that are kept -/

section Strings

variable {line front : List Char}

theorem length_lt_of_slashes (h : front ++ ['/', '/'] <+: line) : front.length < line.length := by
  have bound := h.length_le
  simp only [List.length_append, List.length_cons, List.length_nil] at bound
  omega

/-- No character of a string is cut away exactly if a first pair of slashes that stands in a string
is taken for such. -/
theorem stringsKept_iff (line : List Char) : StringsKept line ↔ StringHeeded line := by
  constructor
  · intro kept front first inside
    by_contra even
    cases cut line with
    | unmarked none _ => exact none front first.there
    | passed front' first' odd _ => exact even (first.unique first' ▸ odd)
    | taken front' first' _ cut =>
      obtain rfl := first.unique first'
      -- the first slash stands in the string and is the first character that is lost
      have slash : front ++ ['/'] <+: line := by
        refine List.IsPrefix.trans ⟨['/'], ?_⟩ first.there
        rw [List.append_assoc]
        rfl
      have lost := kept front '/' slash ⟨inside, fun shorter there _ => first.first shorter there⟩
      rw [cut] at lost
      have bound := lost.length_le
      rw [List.length_append, List.length_singleton] at bound
      exact Nat.not_succ_le_self _ bound
  · intro heeded front c there quoted
    cases cut line with
    | unmarked _ kept | passed _ _ _ kept =>
      rw [kept]
      exact there
    | taken front' first even cut =>
      have outside : placeAfter front' = .code := by
        by_contra inside
        exact Nat.not_odd_iff_even.mpr even (heeded front' first inside)
      have bound := quoted.ahead front' first.there outside
      have apart : front.length ≠ front'.length := by
        intro same
        have equal := (List.prefix_of_prefix_length_le ((List.prefix_append _ _).trans there)
          (prefix_of_slashes first.there) (Nat.le_of_eq same)).eq_of_length same
        exact quoted.inside (equal ▸ outside)
      rw [cut]
      refine List.prefix_of_prefix_length_le there (prefix_of_slashes first.there) ?_
      simp only [List.length_append, List.length_singleton]
      omega

/-- The cut takes away the comment and nothing else. -/
structure CutsComment (line : List Char) : Prop where
  comment : ∀ front, CommentBegins line front → withoutComment line = front
  none : (∀ front, ¬ CommentBegins line front) → withoutComment line = line

theorem cutsComment_iff (line : List Char) :
    CutsComment line ↔ CommentIgnored line ∧ StringHeeded line := by
  constructor
  · rintro ⟨comment, none⟩
    constructor
    · intro front front' first begins
      by_contra odd
      cases cut line with
      | unmarked none _ => exact none front first.there
      | taken _ first' even _ => exact odd (first.unique first' ▸ even)
      | passed _ _ _ kept =>
        have short := length_lt_of_slashes begins.there
        rw [← comment front' begins, kept] at short
        exact lt_irrefl _ short
    · intro front first inside
      by_contra even
      cases cut line with
      | unmarked none _ => exact none front first.there
      | passed _ first' odd _ => exact even (first.unique first' ▸ odd)
      | taken front' first' _ cut =>
        obtain rfl := first.unique first'
        by_cases begins : ∃ front', CommentBegins line front'
        · obtain ⟨front', begins⟩ := begins
          have same := (comment front' begins).symm.trans cut
          exact inside (same ▸ begins.outside)
        · have short := length_lt_of_slashes first.there
          rw [← cut, none (not_exists.mp begins)] at short
          exact lt_irrefl _ short
  · rintro ⟨ignored, heeded⟩
    cases cut line with
    | unmarked none kept =>
      exact ⟨fun front begins => absurd begins.there (none front), fun _ => kept⟩
    | taken front first even cut =>
      have outside : placeAfter front = .code := by
        by_contra inside
        exact Nat.not_odd_iff_even.mpr even (heeded front first inside)
      have begins := first.commentBegins outside
      exact ⟨fun front' begins' => cut.trans (begins.unique begins'),
        fun none => absurd begins (none front)⟩
    | passed front first odd kept =>
      exact ⟨fun front' begins => absurd odd (Nat.not_odd_iff_even.mpr
        (ignored front front' first begins)), fun _ => kept⟩

end Strings

end BicepForge.Check
