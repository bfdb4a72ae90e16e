import BicepForge.Proofs.Bicep.Escaping
import BicepForge.Proofs.Check.Recipes

/-!
# Lines that begin with a keyword

How many lines of a text begin with the keyword of a section is told part by part: within a line a
part goes on to the lines behind its first one, and whole lines hold what each of them holds. The
lines of a value begin with blanks or a sign, however it is laid out, and literals are escaped and go
on to no line of their own. Main statement: a value whose raw expressions are on one line each goes on
to the lines of its comments, and to no others that begin with a keyword.
-/

namespace BicepForge.Bicep

open Check

/-- The word that the declarations of a section begin with. -/
def SectionKind.keyword : SectionKind → String
  | parameters => "param "
  | vars => "var "
  | resources => "resource "
  | outputs => "output "

/-- How many lines begin with the keyword of a section. -/
def SectionKind.begun (kind : SectionKind) (lines : List (List Char)) : Nat :=
  lines.countP (kind.keyword.toList.isPrefixOf ·)

/-- The lines of a text behind its first one. -/
def continuations (cs : List Char) : List (List Char) :=
  (Text.splitOn '\n' cs).tail

/-- The lines behind the first one of each of several texts. -/
def continuationsOf (texts : List String) : List (List Char) :=
  texts.flatMap fun text => continuations text.toList

/-! ## Splitting -/

theorem continuations_of_notMem {cs : List Char} (own : '\n' ∉ cs) : continuations cs = [] := by
  rw [continuations, Text.splitOn_of_notMem own, List.tail_cons]

theorem continuations_append_feed (cs rest : List Char) :
    continuations (cs ++ '\n' :: rest) = continuations cs ++ Text.splitOn '\n' rest := by
  rw [continuations, Text.splitOn_append, continuations, List.tail_append_of_ne_nil (Text.splitOn_ne_nil _ cs)]

theorem continuations_feed (rest : List Char) :
    continuations ('\n' :: rest) = Text.splitOn '\n' rest :=
  continuations_append_feed [] rest

/-- What stands ahead of a text in its first line does not matter to the lines behind it. -/
theorem continuations_append_of_notMem {cs : List Char} (own : '\n' ∉ cs) (rest : List Char) :
    continuations (cs ++ rest) = continuations rest := by
  induction rest using lineInduction with
  | last line more =>
    rw [continuations_of_notMem more, continuations_of_notMem (by simp [own, more])]
  | line line rest more _ =>
    rw [← List.append_assoc, continuations_append_feed, continuations_append_feed,
      continuations_of_notMem more, continuations_of_notMem (by simp [own, more])]

@[simp] theorem continuationsOf_nil : continuationsOf [] = [] := rfl

theorem continuationsOf_append (texts more : List String) :
    continuationsOf (texts ++ more) = continuationsOf texts ++ continuationsOf more :=
  List.flatMap_append

theorem continuationsOf_congr {α : Type} {items : List α} {texts more : α → List String}
    (h : ∀ x ∈ items, continuationsOf (texts x) = continuationsOf (more x)) :
    continuationsOf (items.flatMap texts) = continuationsOf (items.flatMap more) := by
  induction items with
  | nil => rfl
  | cons x items ih =>
    rw [List.forall_mem_cons] at h
    rw [List.flatMap_cons, List.flatMap_cons, continuationsOf_append, continuationsOf_append, h.1,
      ih h.2]

theorem notMem_of_isLine {s : String} (h : isLine s = true) : '\n' ∉ s.toList := by
  rwa [isLine, Bool.not_eq_true', List.contains_eq_mem, decide_eq_false_iff_not] at h

theorem continuationsOf_cons {s : String} (h : isLine s = true) (texts : List String) :
    continuationsOf (s :: texts) = continuationsOf texts := by
  rw [continuationsOf, List.flatMap_cons, continuations_of_notMem (notMem_of_isLine h),
    List.nil_append, continuationsOf]

/-- Lines go on nowhere. -/
theorem continuationsOf_of_isLine {texts : List String} (h : ∀ text ∈ texts, isLine text = true) :
    continuationsOf texts = [] :=
  List.flatMap_eq_nil_iff.mpr fun text mem => continuations_of_notMem (notMem_of_isLine (h text mem))

/-! ## Keywords -/

namespace SectionKind

variable (kind : SectionKind)

@[simp] theorem begun_nil : kind.begun [] = 0 := rfl

theorem begun_append (lines more : List (List Char)) :
    kind.begun (lines ++ more) = kind.begun lines + kind.begun more :=
  List.countP_append

/-- The letters that keywords begin with. -/
def initials : List Char := ['p', 'v', 'r', 'o']

theorem keyword_eq_cons : ∃ c cs, kind.keyword.toList = c :: cs ∧ c ∈ initials := by
  cases kind <;> exact ⟨_, _, rfl, by decide⟩

/-- A keyword holds no character that could end a line or a literal. -/
theorem notMem_keyword {c : Char} (h : c ∈ ['\n', '\'']) : c ∉ kind.keyword.toList := by
  revert h c
  cases kind <;> decide

/-- A line that begins with another character is no declaration. -/
theorem isPrefixOf_keyword_cons {c : Char} (other : c ∉ initials) (cs : List Char) :
    kind.keyword.toList.isPrefixOf (c :: cs) = false := by
  obtain ⟨d, ds, letters, initial⟩ := kind.keyword_eq_cons
  have ne : d ≠ c := by
    rintro rfl
    exact other initial
  rw [letters, List.isPrefixOf_cons_cons, beq_eq_false_iff_ne.mpr ne, Bool.false_and]

/-- Keywords begin with different letters. -/
theorem isPrefixOf_keyword_append (kind' : SectionKind) (cs : List Char) :
    kind.keyword.toList.isPrefixOf (kind'.keyword.toList ++ cs) = decide (kind = kind') := by
  cases kind <;> cases kind' <;> rfl

/-- A word is searched up to a character that it does not hold. -/
theorem isPrefixOf_append_cons {word : List Char} {c : Char} (foreign : c ∉ word)
    (cs rest : List Char) : word.isPrefixOf (cs ++ c :: rest) = word.isPrefixOf cs := by
  rw [Bool.eq_iff_iff, List.isPrefixOf_iff_prefix, List.isPrefixOf_iff_prefix]
  refine ⟨fun h => ?_, fun h => h.trans (List.prefix_append _ _)⟩
  rcases List.prefix_or_prefix_of_prefix h (List.prefix_append cs (c :: rest)) with short | long
  · exact short
  · obtain ⟨more, rfl⟩ := long
    have behind := (List.prefix_append_right_inj cs).mp h
    cases more with
    | nil => simp
    | cons d more =>
      obtain rfl := (List.cons_prefix_cons.mp behind).1
      exact absurd (by simp) foreign

/-- A text has the lines behind its first one, and the first one if it begins with the keyword. -/
theorem begun_splitOn (cs : List Char) :
    kind.begun (Text.splitOn '\n' cs) =
      (kind.keyword.toList.isPrefixOf cs).toNat + kind.begun (continuations cs) := by
  have single (line : List Char) :
      kind.begun [line] = (kind.keyword.toList.isPrefixOf line).toNat := by
    rw [begun, List.countP_singleton]
    cases kind.keyword.toList.isPrefixOf line <;> rfl
  induction cs using lineInduction with
  | last line own =>
    rw [Text.splitOn_of_notMem own, continuations_of_notMem own, single, begun_nil, Nat.add_zero]
  | line line cs own _ =>
    have first := isPrefixOf_append_cons (kind.notMem_keyword (c := '\n') (by simp)) line cs
    rw [Text.splitOn_line own, continuations_append_feed, continuations_of_notMem own, List.nil_append,
      first, ← single, ← begun_append, List.singleton_append]

end SectionKind

/-! ## Parts of a text -/

section Parts

variable {kind : SectionKind}

/-- Within a line, a text goes on to the lines behind the first ones of some texts, as far as lines
are told that begin with the keyword. -/
def Continues (kind : SectionKind) (cs : List Char) (texts : List String) : Prop :=
  ∀ rest, kind.begun (continuations (cs ++ rest)) =
    kind.begun (continuationsOf texts) + kind.begun (continuations rest)

/-- A text of whole lines holds a number of lines that begin with the keyword, and those behind the
first ones of some texts. -/
def Holds (kind : SectionKind) (cs : List Char) (declared : Nat) (texts : List String) : Prop :=
  ∀ rest, kind.begun (Text.splitOn '\n' (cs ++ rest)) =
    declared + kind.begun (continuationsOf texts) + kind.begun (Text.splitOn '\n' rest)

theorem Continues.flat {cs : List Char} (own : '\n' ∉ cs) : Continues kind cs [] := by
  intro rest
  rw [continuations_append_of_notMem own, continuationsOf_nil, SectionKind.begun_nil, Nat.zero_add]

theorem Continues.append {xs ys : List Char} {texts more : List String}
    (hx : Continues kind xs texts) (hy : Continues kind ys more) :
    Continues kind (xs ++ ys) (texts ++ more) := by
  intro rest
  rw [List.append_assoc, hx, hy, continuationsOf_append, SectionKind.begun_append]
  omega

/-- Between quotes a text is written as it is. The quote behind it is in no keyword, so that the last
of its lines is judged without what follows. -/
theorem Continues.quoted (text : String) :
    Continues kind (Value.inQuotes text.toList) [text] := by
  intro rest
  have foreign := kind.notMem_keyword (c := '\'') (by simp)
  -- it is enough to look at the text with one line after the other cut off
  suffices h : ∀ cs : List Char, kind.begun (continuations (cs ++ '\'' :: rest)) =
      kind.begun (continuations cs) + kind.begun (continuations rest) by
    rw [Value.inQuotes, List.cons_append, List.cons_append, List.append_assoc,
      List.singleton_append, ← List.singleton_append, continuations_append_of_notMem (by decide), h]
    simp [continuationsOf]
  intro cs
  induction cs using lineInduction with
  | last line own =>
    have front : '\n' ∉ line ++ ['\''] := by simp [own]
    rw [List.append_cons, continuations_append_of_notMem front, continuations_of_notMem own,
      SectionKind.begun_nil, Nat.zero_add]
  | line line cs own ih =>
    rw [List.append_assoc, List.cons_append, continuations_append_feed, continuations_append_feed,
      continuations_of_notMem own, List.nil_append, List.nil_append, kind.begun_splitOn,
      kind.begun_splitOn, ih, SectionKind.isPrefixOf_append_cons foreign]
    omega

theorem Holds.nil : Holds kind [] 0 [] := by
  intro rest
  simp

theorem Holds.append {xs ys : List Char} {m n : Nat} {texts more : List String}
    (hx : Holds kind xs m texts) (hy : Holds kind ys n more) :
    Holds kind (xs ++ ys) (m + n) (texts ++ more) := by
  intro rest
  rw [List.append_assoc, hx, hy, continuationsOf_append, SectionKind.begun_append]
  omega

/-- A line that is known to begin with the keyword or not. -/
theorem Holds.line {cs : List Char} {texts : List String} (h : Continues kind cs texts)
    {begins : Bool}
    (first : ∀ rest, kind.keyword.toList.isPrefixOf (cs ++ '\n' :: rest) = begins) :
    Holds kind (cs ++ ['\n']) begins.toNat texts := by
  intro rest
  rw [List.append_assoc, List.singleton_append, kind.begun_splitOn, first, h, continuations_feed]
  omega

/-- A line that begins with another character than a keyword. -/
theorem Holds.other {c : Char} {cs : List Char} {texts : List String}
    (other : c ∉ SectionKind.initials) (h : Continues kind (c :: cs) texts) :
    Holds kind (c :: cs ++ ['\n']) 0 texts :=
  Holds.line h fun _ => kind.isPrefixOf_keyword_cons other _

theorem Holds.feed : Holds kind ['\n'] 0 [] := by
  intro rest
  rw [List.singleton_append, kind.begun_splitOn, continuations_feed,
    kind.isPrefixOf_keyword_cons (by decide)]
  simp

/-- A text behind slashes goes on to its own lines. -/
theorem Holds.comment {c : Char} (other : c ∉ SectionKind.initials) {front : List Char}
    (own : '\n' ∉ c :: front) (text : String) :
    Holds kind (c :: front ++ text.toList ++ ['\n']) 0 [text] := by
  intro rest
  rw [List.append_assoc, List.append_assoc, kind.begun_splitOn, List.cons_append,
    kind.isPrefixOf_keyword_cons other, ← List.cons_append, continuations_append_of_notMem own,
    List.singleton_append, continuations_append_feed, SectionKind.begun_append]
  simp [continuationsOf]

/-- Lines between signs are within the line that the first one is in. -/
theorem Continues.enclosed {opening closing : Char} (open_ : opening ≠ '\n')
    (close : closing ∉ '\n' :: SectionKind.initials) {cs : List Char} {texts : List String}
    (h : Holds kind cs 0 texts) (depth : Nat) :
    Continues kind (opening :: '\n' :: cs ++ Value.indent depth ++ [closing]) texts := by
  intro rest
  obtain ⟨feed, other⟩ := not_or.mp (List.mem_cons.not.mp close)
  have own : '\n' ∉ Value.indent depth ++ [closing] := by
    simp [Value.indent, List.mem_replicate, Ne.symm feed]
  have last : kind.keyword.toList.isPrefixOf (Value.indent depth ++ [closing] ++ rest) = false := by
    cases depth with
    | zero => exact kind.isPrefixOf_keyword_cons other rest
    | succ depth => exact kind.isPrefixOf_keyword_cons (by decide) _
  have text : opening :: '\n' :: cs ++ Value.indent depth ++ [closing] ++ rest =
      [opening] ++ '\n' :: (cs ++ (Value.indent depth ++ [closing] ++ rest)) := by
    simp
  rw [text, continuations_append_feed, continuations_of_notMem (by simpa using Ne.symm open_),
    List.nil_append, h, kind.begun_splitOn, last, continuations_append_of_notMem own]
  simp

end Parts

/-! ## Values -/

namespace Value

mutual
def isFlat : Value → Bool
  | .expr e => isLine e
  | .str _ | .interp _ | .bool _ | .int _ | .null => true
  | .array items => areFlat items
  | .object body => isFlatBody body
  | .call function arguments => isLine function && areFlat arguments
  | .forEach binding source body => isLine binding && isLine source && isFlat body
  | .conditional condition yes no => isLine condition && isFlat yes && isFlat no
def areFlat : List Value → Bool
  | [] => true
  | v :: vs => isFlat v && areFlat vs
def isFlatBody : Body → Bool
  | [] => true
  | e :: es => isFlatEntry e && isFlatBody es
/-- An entry that is flat; a comment is not looked at. -/
def isFlatEntry : Entry → Bool
  | .property _ value => isFlat value
  | .comment _ => true
end

mutual
def comments : Value → List String
  | .str _ | .interp _ | .expr _ | .bool _ | .int _ | .null => []
  | .array items => commentsOfItems items
  | .object body => commentsOfBody body
  | .call _ arguments => commentsOfItems arguments
  | .forEach _ _ body => comments body
  | .conditional _ yes no => comments yes ++ comments no
def commentsOfItems : List Value → List String
  | [] => []
  | v :: vs => comments v ++ commentsOfItems vs
def commentsOfBody : Body → List String
  | [] => []
  | e :: es => commentsOfEntry e ++ commentsOfBody es
def commentsOfEntry : Entry → List String
  | .property _ value => comments value
  | .comment text => [text]
end

theorem commentsOfBody_append (xs ys : Body) :
    commentsOfBody (xs ++ ys) = commentsOfBody xs ++ commentsOfBody ys := by
  induction xs with
  | nil => rfl
  | cons e xs ih => rw [List.cons_append, commentsOfBody, commentsOfBody, ih,
      List.append_assoc]

theorem isFlatBody_append {xs ys : Body} (hx : isFlatBody xs = true)
    (hy : isFlatBody ys = true) : isFlatBody (xs ++ ys) = true := by
  induction xs with
  | nil => exact hy
  | cons e xs ih =>
    rw [isFlatBody, Bool.and_eq_true] at hx
    exact Bool.and_eq_true_iff.mpr ⟨hx.1, ih hx.2⟩

/-! ### Literals and keys are escaped -/

theorem notMem_inQuotes {cs : List Char} (own : '\n' ∉ cs) : '\n' ∉ inQuotes cs := by
  simpa [inQuotes] using own

theorem notMem_keyChars (key : String) : '\n' ∉ keyChars key := by
  unfold keyChars
  split_ifs with bare
  · exact notMem_of_isLine (isLine_of_isClean (isClean_of_isIdentifier bare))
  · exact notMem_inQuotes (Literal.notMem_escape (by decide) _)

/-- Raw text that keeps the rest of its line as it is holds no line feed. -/
theorem isLine_of_isTidy {s : String} (h : isTidy s = true) : isLine s = true := by
  rw [isTidy, Bool.and_eq_true] at h
  rw [isLine, Bool.not_eq_true', List.contains_eq_mem, decide_eq_false_iff_not]
  exact notMem_feed_of_solidFrom h.1

theorem isLine_text (n : Number) : isLine n.text = true :=
  isLine_of_isTidy (isTidy_text n)

end Value

section Values

variable {kind : SectionKind}

open Value

theorem Continues.line {s : String} (h : isLine s = true) : Continues kind s.toList [] :=
  .flat (notMem_of_isLine h)

/-- A line that is set in holds no declaration. -/
theorem Holds.indented {cs : List Char} {texts : List String} (h : Continues kind cs texts)
    (depth : Nat) : Holds kind (indent (depth + 1) ++ cs ++ ['\n']) 0 texts := by
  have blanks : Continues kind (indent (depth + 1)) [] :=
    .flat (by simp [indent, List.mem_replicate])
  exact Holds.other (c := ' ') (by decide) (blanks.append h)

mutual
/-- The text of a flat value goes on to the lines of its comments. -/
theorem continues_chars (depth : Nat) :
    ∀ v : Value, isFlat v = true → Continues kind (v.chars depth) (comments v)
  | .str s, _ => .flat (notMem_inQuotes (Literal.notMem_escapeLiteral (by decide) _))
  | .interp s, _ => .flat (notMem_inQuotes (Literal.notMem_escape (by decide) _))
  | .expr e, h => .line h
  | .bool true, _ => .line (s := "true") (by decide)
  | .bool false, _ => .line (s := "false") (by decide)
  | .int i, _ => .line (isLine_text (.int i))
  | .null, _ => .line (s := "null") (by decide)
  | .array items, h => by
    rw [isFlat] at h
    rw [chars_array, comments]
    split_ifs with scalars
    · have opening : Continues kind ['['] [] := .flat (by decide)
      have closing : Continues kind [']'] [] := .flat (by decide)
      simpa using (opening.append (continues_itemChars depth items h)).append closing
    · exact Continues.enclosed (by decide) (by decide) (holds_itemLines depth items h) depth
  | .object [], _ => by
    have own : '\n' ∉ ['\x7b', '\x7d'] := by decide
    exact .flat own
  | .object (e :: es), h => by
    rw [isFlat] at h
    rw [chars_object_cons, comments]
    exact Continues.enclosed (by decide) (by decide) (holds_entryLines depth (e :: es) h) depth
  | .call function arguments, h => by
    rw [isFlat, Bool.and_eq_true] at h
    have opening : Continues kind ['('] [] := .flat (by decide)
    have closing : Continues kind [')'] [] := .flat (by decide)
    have inside := (opening.append (continues_itemChars depth arguments h.2)).append closing
    rw [chars_call, comments]
    simpa using (Continues.line h.1).append inside
  | .forEach binding source body, h => by
    rw [isFlat, Bool.and_eq_true, Bool.and_eq_true] at h
    obtain ⟨⟨hb, hs⟩, h⟩ := h
    have colon : Continues kind [':', ' '] [] := .flat (by decide)
    have closing : Continues kind [']'] [] := .flat (by decide)
    have opening : Continues kind "[for ".toList [] := .line (by decide)
    have among : Continues kind " in ".toList [] := .line (by decide)
    have head := ((opening.append (.line hb)).append among).append (.line hs)
    rw [chars_forEach, comments]
    simpa using ((head.append colon).append (continues_chars depth body h)).append closing
  | .conditional condition yes no, h => by
    rw [isFlat, Bool.and_eq_true, Bool.and_eq_true] at h
    obtain ⟨⟨hc, hy⟩, hn⟩ := h
    have question : Continues kind " ? ".toList [] := .line (by decide)
    have colon : Continues kind " : ".toList [] := .line (by decide)
    rw [chars_conditional, comments]
    simpa using ((((Continues.line hc).append question).append
      (continues_chars depth yes hy)).append colon).append (continues_chars depth no hn)
theorem continues_itemChars (depth : Nat) : ∀ vs : List Value, areFlat vs = true →
    Continues kind ([',', ' '].intercalate (itemChars depth vs)) (commentsOfItems vs)
  | [], _ => .flat List.not_mem_nil
  | [v], h => by
    rw [areFlat, Bool.and_eq_true] at h
    simpa [List.intercalate, commentsOfItems] using continues_chars depth v h.1
  | v :: w :: vs, h => by
    rw [areFlat, Bool.and_eq_true] at h
    have comma : Continues kind [',', ' '] [] := .flat (by decide)
    have row := ((continues_chars depth v h.1).append comma).append
      (continues_itemChars depth (w :: vs) h.2)
    rw [itemChars_cons, itemChars_cons, Text.intercalate_cons_cons, commentsOfItems]
    rwa [List.append_nil] at row
theorem holds_itemLines (depth : Nat) : ∀ vs : List Value, areFlat vs = true →
    Holds kind (itemLines (depth + 1) vs) 0 (commentsOfItems vs)
  | [], _ => .nil
  | v :: vs, h => by
    rw [areFlat, Bool.and_eq_true] at h
    have line := Holds.indented (continues_chars (depth + 1) v h.1) depth
    have more := line.append (holds_itemLines depth vs h.2)
    rw [itemLines_cons, commentsOfItems]
    simpa using more
theorem holds_entryLines (depth : Nat) : ∀ es : Body, isFlatBody es = true →
    Holds kind (entryLines (depth + 1) es) 0 (commentsOfBody es)
  | [], _ => .nil
  | e :: es, h => by
    rw [isFlatBody, Bool.and_eq_true] at h
    have more := (holds_entry depth e h.1).append (holds_entryLines depth es h.2)
    rw [entryLines_cons, commentsOfBody]
    simpa using more
theorem holds_entry (depth : Nat) : ∀ e : Entry, isFlatEntry e = true →
    Holds kind (indent (depth + 1) ++ entryChars (depth + 1) e ++ ['\n']) 0 (commentsOfEntry e)
  | .property key value, h => by
    rw [isFlatEntry] at h
    have front : Continues kind (keyChars key ++ [':', ' ']) [] :=
      .flat (by simpa using notMem_keyChars key)
    rw [entryChars_property, commentsOfEntry]
    exact Holds.indented (front.append (continues_chars (depth + 1) value h)) depth
  | .comment text, _ => by
    have own : '\n' ∉ indent (depth + 1) ++ ['/', '/', ' '] := by
      simp [indent, List.mem_replicate]
    have line : Holds kind (indent (depth + 1) ++ ['/', '/', ' '] ++ text.toList ++ ['\n']) 0
        [text] := Holds.comment (c := ' ') (by decide) own text
    rw [entryChars_comment, commentsOfEntry]
    simpa using line
end

end Values

end BicepForge.Bicep
