import BicepForge.Proofs.Check.CommentStart
import BicepForge.Proofs.Check.Reports
import Mathlib.Data.List.Forall2

/-!
# What comments say

The report on a text does not depend on what its comments say exactly if the quotes ahead of the
first pair of slashes are even in number in each line with a comment. A string with slashes in front
of a comment makes them odd, and so does a quote behind a backslash: then the comment counts, and
braces in it balance those of the text or put them out of balance.
-/

namespace BicepForge.Check

/-- Two lines are the same but for what their comments say. -/
inductive SameButComment : List Char → List Char → Prop
  | same (line : List Char) : SameButComment line line
  | comment {front said said' : List Char}
      (h : CommentBegins (front ++ '/' :: '/' :: said) front)
      (h' : CommentBegins (front ++ '/' :: '/' :: said') front) :
      SameButComment (front ++ '/' :: '/' :: said) (front ++ '/' :: '/' :: said')

/-- Two texts are the same but for what the comments in their lines say. -/
def SameButComments (s t : String) : Prop :=
  List.Forall₂ SameButComment (Text.splitOn '\n' s.toList) (Text.splitOn '\n' t.toList)

/-! ## What a comment says -/

section Comments

variable {front : List Char}

theorem slashes_there (front said : List Char) :
    front ++ ['/', '/'] <+: front ++ '/' :: '/' :: said :=
  ⟨said, by rw [List.append_assoc, List.cons_append, List.cons_append, List.nil_append]⟩

/-- Pairs of slashes that begin ahead of a pair do not depend on what is behind it. -/
theorem slashes_ahead {shorter said : List Char}
    (h : shorter ++ ['/', '/'] <+: front ++ '/' :: '/' :: said)
    (ahead : shorter.length < front.length) (said' : List Char) :
    shorter ++ ['/', '/'] <+: front ++ '/' :: '/' :: said' := by
  have whole := List.prefix_of_prefix_length_le h (slashes_there front said) <| by
    rw [List.length_append, List.length_append]
    omega
  exact whole.trans (slashes_there front said')

/-- Where a comment begins does not depend on what it says. -/
theorem CommentBegins.exchange {said : List Char}
    (h : CommentBegins (front ++ '/' :: '/' :: said) front) (said' : List Char) :
    CommentBegins (front ++ '/' :: '/' :: said') front where
  there := slashes_there front said'
  outside := h.outside
  first := by
    intro shorter there outside
    by_contra less
    exact less (h.first shorter (slashes_ahead there (Nat.lt_of_not_le less) said) outside)

/-- Nor does where the first pair of slashes stands. -/
theorem FirstSlashes.exchange {first said : List Char}
    (h : FirstSlashes (front ++ '/' :: '/' :: said) first) (said' : List Char) :
    FirstSlashes (front ++ '/' :: '/' :: said') first := by
  have bound := h.first front (slashes_there front said)
  rcases Nat.lt_or_eq_of_le bound with less | same
  · refine ⟨slashes_ahead h.there less said', fun shorter there => ?_⟩
    by_contra sooner
    have sooner := Nat.lt_of_not_le sooner
    have before := h.first shorter (slashes_ahead there (Nat.lt_trans sooner less) said)
    exact absurd sooner (Nat.not_lt_of_le before)
  · obtain rfl := eq_of_slashes h.there (slashes_there front said) same
    refine ⟨slashes_there first said', fun shorter there => ?_⟩
    by_contra sooner
    have sooner := Nat.lt_of_not_le sooner
    exact absurd sooner (Nat.not_lt_of_le (h.first shorter (slashes_ahead there sooner said)))

theorem exists_firstSlashes {line : List Char} (h : front ++ ['/', '/'] <+: line) :
    ∃ first, FirstSlashes line first := by
  have found := firstSlashes_of_beforeSlashes? line
  cases search : beforeSlashes? line with
  | some first =>
    rw [search] at found
    exact ⟨first, found⟩
  | none =>
    rw [search] at found
    exact absurd h (found front)

/-- A line with a comment is cut alike whatever the comment says, or it is kept with all that the
comment says. -/
theorem withoutComment_exchange {said : List Char}
    (h : CommentBegins (front ++ '/' :: '/' :: said) front) :
    (CommentIgnored (front ++ '/' :: '/' :: said) ∧
      ∃ first, ∀ said', withoutComment (front ++ '/' :: '/' :: said') = first) ∨
    (¬ CommentIgnored (front ++ '/' :: '/' :: said) ∧
      ∀ said', withoutComment (front ++ '/' :: '/' :: said') = front ++ '/' :: '/' :: said') := by
  obtain ⟨first, stands⟩ := exists_firstSlashes h.there
  have cutAt (said' : List Char) := cut (front ++ '/' :: '/' :: said')
  by_cases even : Even (first.count '\'')
  · refine .inl ⟨fun first' _ stands' _ => stands'.unique stands ▸ even, first, fun said' => ?_⟩
    have stands := stands.exchange said'
    cases cutAt said' with
    | unmarked none _ => exact absurd stands.there (none first)
    | taken first' stands' _ cut => rw [cut, stands'.unique stands]
    | passed first' stands' odd _ =>
      exact absurd even (Nat.not_even_iff_odd.mpr (stands'.unique stands ▸ odd))
  · refine .inr ⟨fun ignored => even (ignored first front stands h), fun said' => ?_⟩
    have stands := stands.exchange said'
    cases cutAt said' with
    | unmarked _ kept | passed _ _ _ kept => exact kept
    | taken first' stands' even' _ => exact absurd (stands'.unique stands ▸ even') even

end Comments

/-! ## Texts -/

/-- The lines of a text in pieces between line feeds. -/
def linesOf : List (List Char) → List (List Char)
  | [] => []
  | [last] => if last = [] then [] else [last]
  | piece :: next :: more => withoutReturn piece :: linesOf (next :: more)

theorem lines_eq_linesOf (s : String) : Text.lines s = linesOf (Text.splitOn '\n' s.toList) := by
  unfold Text.lines
  generalize Text.splitOn '\n' s.toList = pieces
  induction pieces with
  | nil => rfl
  | cons piece more ih =>
    cases more with
    | nil => cases piece <;> rfl
    | cons next more =>
      rw [linesOf, ← ih]
      simp only [List.dropLast_cons_cons, List.getLast?_cons_cons, List.map_cons]
      cases (next :: more).getLast? with
      | none => rfl
      | some last => cases last <;> rfl

theorem withoutReturn_append_cons (front : List Char) (c : Char) (cs : List Char) :
    withoutReturn (front ++ c :: cs) = front ++ withoutReturn (c :: cs) := by
  induction front with
  | nil => rfl
  | cons d ds ih =>
    rw [List.cons_append, withoutReturn_cons fun nil => by simp at nil, ih, List.cons_append]

theorem withoutReturn_comment (front said : List Char) :
    withoutReturn (front ++ '/' :: '/' :: said) = front ++ '/' :: '/' :: withoutReturn said := by
  rw [withoutReturn_append_cons, withoutReturn_cons fun _ => by decide,
    withoutReturn_cons fun _ => by decide]

theorem withoutReturn_append {front : List Char} (none : '\r' ∉ front) (cs : List Char) :
    withoutReturn (front ++ cs) = front ++ withoutReturn cs := by
  induction front with
  | nil => rfl
  | cons d ds ih =>
    obtain ⟨other, none⟩ := not_or.mp (List.mem_cons.not.mp none)
    rw [List.cons_append, withoutReturn_cons fun _ => Ne.symm other, ih none, List.cons_append]

/-- What the check sees of a text in pieces, line by line. -/
def seenOf (pieces : List (List Char)) : List (List Char) :=
  (linesOf pieces).map withoutComment

theorem withoutComments_eq (s : String) :
    withoutComments s = ['\n'].intercalate (seenOf (Text.splitOn '\n' s.toList)) := by
  rw [withoutComments, lines_eq_linesOf, seenOf]

theorem seenOf_singleton {last : List Char} (some : last ≠ []) :
    seenOf [last] = [withoutComment last] := by
  rw [seenOf, linesOf, if_neg some, List.map_singleton]

theorem seenOf_cons {pieces : List (List Char)} (some : pieces ≠ []) (piece : List Char) :
    seenOf (piece :: pieces) = withoutComment (withoutReturn piece) :: seenOf pieces := by
  obtain ⟨next, more, rfl⟩ := List.exists_cons_of_ne_nil some
  rfl

/-! ### Comments that are ignored -/

/-- Lines that are the same but for a comment that is ignored are cut alike. -/
theorem SameButComment.cut_eq {line line' : List Char} (h : SameButComment line line')
    (ignored : CommentIgnored line) :
    withoutComment line = withoutComment line' ∧
      withoutComment (withoutReturn line) = withoutComment (withoutReturn line') ∧
      (line = [] ↔ line' = []) := by
  cases h with
  | same => exact ⟨rfl, rfl, Iff.rfl⟩
  | comment begins _ =>
    rcases withoutComment_exchange begins with ⟨-, first, cut⟩ | ⟨counts, -⟩
    · rw [withoutReturn_comment, withoutReturn_comment, cut, cut, cut, cut]
      exact ⟨rfl, rfl, by simp⟩
    · exact absurd ignored counts

theorem seenOf_eq {pieces pieces' : List (List Char)}
    (h : List.Forall₂ SameButComment pieces pieces')
    (ignored : ∀ line ∈ pieces, CommentIgnored line) : seenOf pieces = seenOf pieces' := by
  induction h with
  | nil => rfl
  | @cons line line' more more' same others ih =>
    rw [List.forall_mem_cons] at ignored
    obtain ⟨last, ended, empty⟩ := same.cut_eq ignored.1
    cases others with
    | nil =>
      by_cases none : line = []
      · rw [none, empty.mp none]
      · rw [seenOf_singleton none, seenOf_singleton (mt empty.mpr none), last]
    | cons _ _ =>
      rw [seenOf_cons (List.cons_ne_nil _ _), seenOf_cons (List.cons_ne_nil _ _), ended,
        ih ignored.2]

/-- A check sees a text through its cut only. -/
theorem checkCode_congr {s t : String} (h : withoutComments s = withoutComments t) :
    checkCode s = checkCode t := by
  rw [checkCode, checkCode, h]

/-! ### Comments that count -/

theorem count_intercalate {c : Char} (other : c ≠ '\n') (lines : List (List Char)) :
    (['\n'].intercalate lines).count c = (lines.map (List.count c)).sum := by
  induction lines with
  | nil => rfl
  | cons line lines ih =>
    cases lines with
    | nil => simp [List.intercalate]
    | cons next more =>
      rw [Text.intercalate_cons_cons, List.count_append, List.count_append, ih,
        List.count_singleton, List.map_cons, List.sum_cons]
      simp [Ne.symm other]

/-- A line that is kept with its comment. -/
structure Outspoken (front said : List Char) : Prop where
  begins : CommentBegins (front ++ '/' :: '/' :: said) front
  counts : ¬ CommentIgnored (front ++ '/' :: '/' :: said)

theorem Outspoken.kept {front said : List Char} (h : Outspoken front said) (said' : List Char) :
    withoutComment (front ++ '/' :: '/' :: said') = front ++ '/' :: '/' :: said' := by
  rcases withoutComment_exchange h.begins with ⟨ignored, -⟩ | ⟨-, kept⟩
  · exact absurd ignored h.counts
  · exact kept said'

/-- What is added to a comment that counts is counted. -/
theorem Outspoken.count_seenOf {front said : List Char} (h : Outspoken front said)
    {added : List Char} (none : '\r' ∉ added) (c : Char) (before after : List (List Char)) :
    ((seenOf (before ++ (front ++ '/' :: '/' :: (added ++ said)) :: after)).map
        (List.count c)).sum =
      added.count c +
        ((seenOf (before ++ (front ++ '/' :: '/' :: said) :: after)).map (List.count c)).sum := by
  induction before with
  | nil =>
    rw [List.nil_append, List.nil_append]
    cases after with
    | nil =>
      rw [seenOf_singleton (by simp), seenOf_singleton (by simp), h.kept, h.kept]
      simp only [List.map_cons, List.map_nil, List.sum_cons, List.sum_nil, List.count_append,
        List.count_cons]
      omega
    | cons next more =>
      rw [seenOf_cons (List.cons_ne_nil _ _), seenOf_cons (List.cons_ne_nil _ _),
        withoutReturn_comment, withoutReturn_comment, withoutReturn_append none, h.kept, h.kept]
      simp only [List.map_cons, List.sum_cons, List.count_append, List.count_cons]
      omega
  | cons piece more ih =>
    rw [List.cons_append, List.cons_append, seenOf_cons (by simp), seenOf_cons (by simp),
      List.map_cons, List.map_cons, List.sum_cons, List.sum_cons, ih]
    omega

theorem forall₂_sameButComment_self (pieces : List (List Char)) :
    List.Forall₂ SameButComment pieces pieces :=
  List.forall₂_same.mpr fun line _ => .same line

/-- To a comment that counts, anything can be added in its line. -/
theorem Outspoken.exists_added {s : String} {front said : List Char} (h : Outspoken front said)
    (mem : front ++ '/' :: '/' :: said ∈ Text.splitOn '\n' s.toList) {added : List Char}
    (noFeed : '\n' ∉ added) (noReturn : '\r' ∉ added) :
    ∃ t, SameButComments s t ∧ ∀ c ≠ '\n',
      (withoutComments t).count c = added.count c + (withoutComments s).count c := by
  obtain ⟨before, after, pieces⟩ := List.append_of_mem mem
  let changed := before ++ (front ++ '/' :: '/' :: (added ++ said)) :: after
  have own : ∀ piece ∈ changed, '\n' ∉ piece := by
    have all : ∀ piece ∈ Text.splitOn '\n' s.toList, '\n' ∉ piece :=
      Text.notMem_of_mem_splitOn
    rw [pieces, List.forall_mem_append, List.forall_mem_cons] at all
    rw [List.forall_mem_append, List.forall_mem_cons]
    refine ⟨all.1, ?_, all.2.2⟩
    have line := all.2.1
    simp only [List.mem_append, List.mem_cons, not_or] at line ⊢
    exact ⟨line.1, line.2.1, line.2.2.1, noFeed, line.2.2.2⟩
  let t := String.ofList (['\n'].intercalate changed)
  have split : Text.splitOn '\n' t.toList = changed := by
    rw [String.toList_ofList, Text.splitOn_eq, List.splitOn_intercalate _ own (by simp [changed])]
  refine ⟨t, ?_, fun c other => ?_⟩
  · rw [SameButComments, pieces, split]
    refine List.rel_append (forall₂_sameButComment_self before) (.cons ?_ ?_)
    · exact .comment h.begins (h.begins.exchange _)
    · exact forall₂_sameButComment_self after
  · rw [withoutComments_eq, withoutComments_eq, split, pieces, count_intercalate other,
      count_intercalate other]
    exact h.count_seenOf noReturn c before after

theorem errors_checkCode (s : String) :
    (checkCode s).errors =
      balanceErrors '\x7b' '\x7d' "braces" (withoutComments s) ++
        balanceErrors '[' ']' "brackets" (withoutComments s) := by
  simp only [checkCode]
  rw [Report.errors_withNotes, Report.errors_withWarnings, Report.errors_withErrors]
  rfl

theorem balanceErrors_eq_nil_iff {opening closing : Char} {what : String} {code : List Char} :
    balanceErrors opening closing what code = [] ↔ code.count opening = code.count closing := by
  rw [balanceErrors]
  split <;> simp_all

/-- With a comment that counts, the report on a text depends on what the comment says: braces in it
balance those of the text or put them out of balance. -/
theorem Outspoken.exists_other_report {s : String} {front said : List Char}
    (h : Outspoken front said) (mem : front ++ '/' :: '/' :: said ∈ Text.splitOn '\n' s.toList) :
    ∃ t, SameButComments s t ∧ checkCode t ≠ checkCode s := by
  generalize opened : (withoutComments s).count '\x7b' = m
  generalize closed : (withoutComments s).count '\x7d' = n
  obtain ⟨k, l, flips⟩ : ∃ k l, k + m = l + n ↔ m ≠ n := by
    by_cases balanced : m = n
    · exact ⟨1, 0, by omega⟩
    · exact ⟨n - m, m - n, by omega⟩
  let added := List.replicate k '\x7b' ++ List.replicate l '\x7d'
  have only : ∀ c ∈ added, c = '\x7b' ∨ c = '\x7d' := by
    intro c mem
    rcases List.mem_append.mp mem with mem | mem
    · exact .inl (List.eq_of_mem_replicate mem)
    · exact .inr (List.eq_of_mem_replicate mem)
  have noFeed : '\n' ∉ added := fun mem => by simpa using only _ mem
  have noReturn : '\r' ∉ added := fun mem => by simpa using only _ mem
  obtain ⟨t, same, counts⟩ := h.exists_added mem noFeed noReturn
  refine ⟨t, same, fun equal => ?_⟩
  have errors := congrArg Report.errors equal
  have brackets : balanceErrors '[' ']' "brackets" (withoutComments t) =
      balanceErrors '[' ']' "brackets" (withoutComments s) := by
    rw [balanceErrors, balanceErrors, counts '[' (by decide), counts ']' (by decide)]
    simp [added, List.count_replicate]
  rw [errors_checkCode, errors_checkCode, brackets, List.append_left_inj] at errors
  have balance : (withoutComments t).count '\x7b' = (withoutComments t).count '\x7d' ↔
      (withoutComments s).count '\x7b' = (withoutComments s).count '\x7d' := by
    rw [← balanceErrors_eq_nil_iff, ← balanceErrors_eq_nil_iff, errors]
  rw [counts _ (by decide), counts _ (by decide), opened, closed] at balance
  simp [added, List.count_replicate] at balance
  omega

/-! ## The check -/

/-- What the comments of a text say makes no difference to its report exactly if each comment has an
even number of quotes ahead of the first pair of slashes in its line. Of a line nothing in a string
is cut away exactly if the quotes are odd in number where that pair stands in a string; with both,
the cut takes away the comment and nothing else. -/
theorem checkCode_comments (s : String) :
    ((∀ t, SameButComments s t → checkCode t = checkCode s) ↔
      ∀ line ∈ Text.splitOn '\n' s.toList, CommentIgnored line) ∧
    ∀ line, (StringsKept line ↔ StringHeeded line) ∧
      (CutsComment line ↔ CommentIgnored line ∧ StringHeeded line) := by
  refine ⟨⟨fun constant line mem => ?_, fun ignored t same => ?_⟩,
    fun line => ⟨stringsKept_iff line, cutsComment_iff line⟩⟩
  · by_contra counts
    obtain ⟨front, begins⟩ : ∃ front, CommentBegins line front := by
      by_contra none
      exact counts fun _ front _ begins => absurd ⟨front, begins⟩ none
    obtain ⟨said, rfl⟩ := begins.there
    rw [List.append_assoc, List.cons_append, List.cons_append, List.nil_append] at mem begins counts
    obtain ⟨t, same, other⟩ := Outspoken.exists_other_report ⟨begins, counts⟩ mem
    exact other (constant t same)
  · apply checkCode_congr
    rw [withoutComments_eq, withoutComments_eq, seenOf_eq same ignored]

/-- Only the beginnings of a line have to be looked at for its comment. -/
theorem commentBegins_iff {line front : List Char} :
    CommentBegins line front ↔ front ++ ['/', '/'] <+: line ∧ placeAfter front = .code ∧
      ∀ n < front.length, line.take n ++ ['/', '/'] <+: line →
        placeAfter (line.take n) ≠ .code := by
  constructor
  · rintro ⟨there, outside, first⟩
    refine ⟨there, outside, fun n less slashes code => ?_⟩
    have bound := Nat.le_trans (first _ slashes code) (List.length_take_le n line)
    exact absurd less (Nat.not_lt_of_le bound)
  · rintro ⟨there, outside, first⟩
    refine ⟨there, outside, fun shorter slashes code => ?_⟩
    by_contra less
    have beginning := List.prefix_iff_eq_take.mp (prefix_of_slashes slashes)
    rw [beginning] at slashes code
    exact first shorter.length (Nat.lt_of_not_le less) slashes code

instance (line front : List Char) : Decidable (CommentBegins line front) :=
  decidable_of_iff _ commentBegins_iff.symm

theorem sameButComments_line {front : String}
    (h : CommentBegins (front ++ "//").toList front.toList) {said said' : String}
    (noFeed : '\n' ∉ (front ++ "//" ++ said).toList)
    (noFeed' : '\n' ∉ (front ++ "//" ++ said').toList) :
    SameButComments (front ++ "//" ++ said) (front ++ "//" ++ said') := by
  have line (said : String) :
      (front ++ "//" ++ said).toList = front.toList ++ '/' :: '/' :: said.toList := by
    rw [String.toList_append, String.toList_append, List.append_assoc]
    rfl
  rw [String.toList_append] at h
  rw [SameButComments, Text.splitOn_of_notMem noFeed, Text.splitOn_of_notMem noFeed', line, line]
  exact .cons (.comment (h.exchange _) (h.exchange _)) .nil

/-- A brace in a comment counts behind a string with slashes and behind one with a quote, and a
brace in a string does not count behind a quote and slashes in it. -/
theorem comment_counts :
    let behindSlashes := "resource x 'https://a@1' = \x7b\x7d "
    let behindQuote := "resource x 'a\\'b@1' = \x7b\x7d "
    let inString := "resource x 'a\\'//\x7b' = \x7b\x7d".toList
    (∀ front ∈ [behindSlashes, behindQuote],
        SameButComments (front ++ "//" ++ "") (front ++ "//" ++ "\x7b") ∧
          (checkCode (front ++ "//" ++ "")).errors = [] ∧
          (checkCode (front ++ "//" ++ "\x7b")).errors =
            ["Mismatched braces: 2 opening, 1 closing"]) ∧
      withoutComment inString = "resource x 'a\\'".toList ∧ ¬ StringsKept inString := by
  intro behindSlashes behindQuote inString
  refine ⟨?_, by decide +kernel, ?_⟩
  · simp only [List.forall_mem_cons, List.not_mem_nil, false_imp_iff, implies_true, and_true]
    exact
      ⟨⟨sameButComments_line (by decide +kernel) (by decide +kernel) (by decide +kernel),
          by decide +kernel, by decide +kernel⟩,
        ⟨sameButComments_line (by decide +kernel) (by decide +kernel) (by decide +kernel),
          by decide +kernel, by decide +kernel⟩⟩
  · intro kept
    have first : FirstSlashes inString "resource x 'a\\'".toList :=
      firstSlashes_iff.mpr (by decide +kernel)
    have odd := (stringsKept_iff _).mp kept _ first (by decide +kernel)
    exact absurd odd (by decide +kernel)

end BicepForge.Check
