import BicepForge.Proofs.Check.Comments
import BicepForge.Proofs.Check.Counting

/-!
# Fragments that the check does not notice

A document is written from the inside out, and the check reads it from left to right. Two
properties of a fragment of its text meet in the middle. An inline fragment stands somewhere in a
line and may go on over several lines; a block is made of whole lines. Both say how the comment
automaton comes out of the fragment, that what is left is balanced, and how many declarations are
found in it whatever follows. Both are closed under everything that writes a document.
-/

namespace BicepForge.Check

/-! ## Balance -/

/-- As many signs are closed as are opened. -/
structure Balanced (cs : List Char) : Prop where
  braces : cs.count '\x7b' = cs.count '\x7d'
  brackets : cs.count '[' = cs.count ']'

instance (cs : List Char) : Decidable (Balanced cs) :=
  decidable_of_iff (cs.count '\x7b' = cs.count '\x7d' ∧ cs.count '[' = cs.count ']')
    ⟨fun h => ⟨h.1, h.2⟩, fun h => ⟨h.braces, h.brackets⟩⟩

theorem Balanced.nil : Balanced [] := by decide

theorem Balanced.append {xs ys : List Char} (hx : Balanced xs) (hy : Balanced ys) :
    Balanced (xs ++ ys) := by
  constructor
  · simp only [List.count_append, hx.braces, hy.braces]
  · simp only [List.count_append, hx.brackets, hy.brackets]

/-- The signs that come in pairs. -/
def signs : List Char := ['\x7b', '\x7d', '[', ']']

theorem Balanced.of_notMem {cs : List Char} (h : ∀ c ∈ cs, c ∉ signs) : Balanced cs := by
  have none : ∀ sign ∈ signs, cs.count sign = 0 :=
    fun sign hs => List.count_eq_zero.mpr fun hc => h sign hc hs
  constructor
  · rw [none _ (by decide), none _ (by decide)]
  · rw [none _ (by decide), none _ (by decide)]

/-- A sign and the one that closes it. -/
def IsPair (opening closing : Char) : Prop :=
  (opening = '\x7b' ∧ closing = '\x7d') ∨ (opening = '[' ∧ closing = ']')

theorem Balanced.enclose {opening closing : Char} (pair : IsPair opening closing)
    {cs : List Char} (h : Balanced cs) : Balanced (opening :: (cs ++ [closing])) := by
  have braces := h.braces
  have brackets := h.brackets
  rcases pair with ⟨rfl, rfl⟩ | ⟨rfl, rfl⟩
  · constructor <;> simp [braces, brackets]
  · constructor <;> simp [braces, brackets]

/-! ## Passing a fragment -/

/-- A place outside of strings and comments. -/
def Mode.Outside (m : Mode) : Prop :=
  m = seeking false ∨ m = kept

/-- The automaton enters a fragment in one mode and leaves it in another, whatever follows. -/
def Passes (m : Mode) (cs : List Char) (m' : Mode) : Prop :=
  ∀ rest, strip m (cs ++ rest) = strip m cs ++ strip m' rest

theorem Passes.nil (m : Mode) : Passes m [] m := by
  intro rest
  simp

theorem Passes.strip_append {m m' : Mode} {xs : List Char} (hx : Passes m xs m')
    (ys : List Char) : strip m (xs ++ ys) = strip m xs ++ strip m' ys :=
  hx ys

theorem Passes.append {m m' m'' : Mode} {xs ys : List Char} (hx : Passes m xs m')
    (hy : Passes m' ys m'') : Passes m (xs ++ ys) m'' := by
  intro rest
  rw [List.append_assoc, hx (ys ++ rest), hx ys, hy rest, List.append_assoc]

theorem Passes.feed (m : Mode) : Passes m ['\n'] (.seeking false) := by
  intro rest
  simp

/-- The characters of code that the automaton does not look at. -/
def isOrdinary (c : Char) : Bool :=
  c != '\n' && c != '\r' && c != '/' && c != '\''

theorem Passes.ordinary {m : Mode} (outside : m.Outside) {cs : List Char}
    (h : cs.all isOrdinary = true) : strip m cs = cs ∧ Passes m cs m := by
  have step : ∀ rest, strip m (cs ++ rest) = cs ++ strip m rest := by
    intro rest
    induction cs with
    | nil => rfl
    | cons c cs ih =>
      rw [List.all_cons, Bool.and_eq_true] at h
      simp only [isOrdinary, Bool.and_eq_true, bne_iff_ne] at h
      obtain ⟨⟨⟨⟨feed, ret⟩, slash⟩, quote⟩, more⟩ := h
      rw [List.cons_append, List.cons_append, ← ih more]
      rcases outside with rfl | rfl
      · rw [strip_seeking_cons feed (absurd · ret) (absurd · slash), if_neg quote]
      · rw [strip_kept_cons feed (absurd · ret)]
  have whole : strip m cs = cs := by simpa using step []
  exact ⟨whole, fun rest => by rw [step, whole]⟩

/-- Code whose strings end in it: no slash, no line end outside of them, no line feed inside. -/
def solidFrom : (inString : Bool) → List Char → Bool
  | q, [] => !q
  | q, c :: cs =>
    if c = '\'' then solidFrom (!q) cs
    else if q then c != '\n' && solidFrom true cs
    else isOrdinary c && solidFrom false cs

/-- A fragment of a line with whole strings, between which there are no slashes. -/
def isSolid (cs : List Char) : Bool :=
  solidFrom false cs

theorem solidFrom_append {q : Bool} {xs ys : List Char} (hx : solidFrom q xs = true)
    (hy : isSolid ys = true) : solidFrom q (xs ++ ys) = true := by
  induction xs generalizing q with
  | nil =>
    cases q with
    | false => exact hy
    | true => cases hx
  | cons c xs ih =>
    rw [List.cons_append, solidFrom]
    rw [solidFrom] at hx
    split_ifs at hx ⊢
    · exact ih hx
    · rw [Bool.and_eq_true] at hx ⊢
      exact ⟨hx.1, ih hx.2⟩
    · rw [Bool.and_eq_true] at hx ⊢
      exact ⟨hx.1, ih hx.2⟩

theorem notMem_feed_of_solidFrom {q : Bool} {cs : List Char} (h : solidFrom q cs = true) :
    '\n' ∉ cs := by
  induction cs generalizing q with
  | nil => simp
  | cons c cs ih =>
    rw [solidFrom] at h
    rw [List.mem_cons, not_or]
    split_ifs at h with quote open_
    · exact ⟨by rw [quote]; decide, ih h⟩
    · rw [Bool.and_eq_true, bne_iff_ne] at h
      exact ⟨Ne.symm h.1, ih h.2⟩
    · simp only [isOrdinary, Bool.and_eq_true, bne_iff_ne] at h
      exact ⟨Ne.symm h.1.1.1.1, ih h.2⟩

/-- A slash or a carriage return in solid code stands in a string, and the string does not end with
the code. -/
theorem solidFrom_special {q : Bool} {c : Char} {cs : List Char} (hc : c = '\r' ∨ c = '/')
    (h : solidFrom q (c :: cs) = true) :
    q = true ∧ solidFrom true cs = true ∧ ∀ rest, (cs ++ rest).head? = cs.head? := by
  have other : c ≠ '\'' := by rcases hc with rfl | rfl <;> decide
  have special : isOrdinary c = false := by rcases hc with rfl | rfl <;> rfl
  rw [solidFrom, if_neg other] at h
  cases q with
  | false => simp [special] at h
  | true =>
    simp only [if_true, Bool.and_eq_true] at h
    refine ⟨rfl, h.2, fun rest => ?_⟩
    cases cs with
    | nil => exact absurd h.2 (by decide)
    | cons => rfl

/-- Behind a character of solid code there is solid code, with a string open or closed by it. -/
theorem solidFrom_tail {q : Bool} {c : Char} {cs : List Char}
    (h : solidFrom q (c :: cs) = true) : solidFrom (if c = '\'' then !q else q) cs = true := by
  rw [solidFrom] at h
  split_ifs at h ⊢ with quote string
  · exact h
  · rw [Bool.and_eq_true] at h
    exact string ▸ h.2
  · rw [Bool.and_eq_true] at h
    rw [Bool.not_eq_true] at string
    exact string ▸ h.2

/-- The automaton leaves solid code as it is. Where a string holds the first pair of slashes of the
line, it stops looking for one. -/
theorem strip_solidFrom {q : Bool} {m : Mode} (hm : m = .seeking q ∨ m = .kept) {cs : List Char}
    (h : solidFrom q cs = true) :
    ∃ m' : Mode, m'.Outside ∧ ∀ rest, strip m (cs ++ rest) = cs ++ strip m' rest := by
  induction cs generalizing q m with
  | nil =>
    have closed : q = false := by simpa [solidFrom] using h
    subst closed
    exact ⟨m, hm, fun _ => rfl⟩
  | cons c cs ih =>
    obtain ⟨feed, more⟩ := not_or.mp (List.mem_cons.not.mp (notMem_feed_of_solidFrom h))
    have ret : ∀ rest, c = '\r' → (cs ++ rest).head? ≠ some '\n' := by
      intro rest hc
      rw [(solidFrom_special (.inl hc) h).2.2 rest]
      exact fun head => more (List.mem_of_mem_head? head)
    rcases hm with rfl | rfl
    · by_cases slashes : c = '/' ∧ cs.head? = some '/'
      · -- the pair stands in a string, so that all that follows in the line stays
        obtain ⟨rfl, second⟩ := slashes
        obtain ⟨rfl, solid, -⟩ := solidFrom_special (.inr rfl) h
        obtain ⟨m', outside, kept⟩ := ih (.inr rfl) solid
        refine ⟨m', outside, fun rest => ?_⟩
        obtain ⟨ds, rfl⟩ : ∃ ds, cs = '/' :: ds := by
          cases cs <;> simp_all
        have tail := kept rest
        rw [List.cons_append, strip_kept_cons (by decide) (by simp)] at tail
        rw [List.cons_append, List.cons_append, strip_slashes, if_pos rfl, tail]
        rfl
      · obtain ⟨m', outside, seeking⟩ := ih (.inl rfl) (solidFrom_tail h)
        refine ⟨m', outside, fun rest => ?_⟩
        have single : c = '/' → (cs ++ rest).head? ≠ some '/' := by
          intro hc
          rw [(solidFrom_special (.inr hc) h).2.2 rest]
          exact fun head => slashes ⟨hc, head⟩
        rw [List.cons_append, strip_seeking_cons (Ne.symm feed) (ret rest) single, seeking rest,
          List.cons_append]
    · obtain ⟨m', outside, kept⟩ := ih (.inr rfl) (solidFrom_tail h)
      refine ⟨m', outside, fun rest => ?_⟩
      rw [List.cons_append, strip_kept_cons (Ne.symm feed) (ret rest), kept rest, List.cons_append]

theorem Passes.solid {m : Mode} (outside : m.Outside) {cs : List Char} (h : isSolid cs = true) :
    strip m cs = cs ∧ ∃ m' : Mode, m'.Outside ∧ Passes m cs m' := by
  obtain ⟨m', outside', step⟩ := strip_solidFrom outside h
  have whole : strip m cs = cs := by simpa using step []
  exact ⟨whole, m', outside', fun rest => by rw [step, whole]⟩

/-! ## Inline fragments -/

/-- What the check does not notice inside of a line: it is balanced, and holds no declaration. -/
structure Quiet (out : List Char) : Prop where
  balanced : Balanced out
  mute : ∀ keyword ∈ keywords, ∀ rest,
    countFrom keyword false (out ++ rest) = countFrom keyword false rest

theorem Quiet.append {xs ys : List Char} (hx : Quiet xs) (hy : Quiet ys) : Quiet (xs ++ ys) where
  balanced := hx.balanced.append hy.balanced
  mute := by
    intro keyword h rest
    rw [List.append_assoc, hx.mute keyword h, hy.mute keyword h]

/-- A fragment that stands somewhere in a line. -/
def Inline (cs : List Char) : Prop :=
  ∀ m : Mode, m.Outside → Quiet (strip m cs) ∧ ∃ m' : Mode, m'.Outside ∧ Passes m cs m'

theorem Inline.append {xs ys : List Char} (hx : Inline xs) (hy : Inline ys) :
    Inline (xs ++ ys) := by
  intro m outside
  obtain ⟨quiet, m', outside', passes⟩ := hx m outside
  obtain ⟨quiet', m'', outside'', passes'⟩ := hy m' outside'
  rw [passes.strip_append]
  exact ⟨quiet.append quiet', m'', outside'', passes.append passes'⟩

theorem Inline.solid {cs : List Char} (h : isSolid cs = true) (balanced : Balanced cs) :
    Inline cs := by
  intro m outside
  obtain ⟨same, m', outside', passes⟩ := Passes.solid outside h
  rw [same]
  refine ⟨⟨balanced, fun keyword _ rest => ?_⟩, m', outside', passes⟩
  exact countFrom_false_append (notMem_feed_of_solidFrom h) rest

theorem Inline.nil : Inline [] := Inline.solid rfl (by decide)

theorem IsPair.ordinary {opening closing : Char} (pair : IsPair opening closing) :
    [opening].all isOrdinary = true ∧ [closing].all isOrdinary = true := by
  rcases pair with ⟨rfl, rfl⟩ | ⟨rfl, rfl⟩ <;> decide

/-- A pair of signs around a fragment, as in an array on one line. -/
theorem Inline.enclose {opening closing : Char} (pair : IsPair opening closing) {cs : List Char}
    (h : Inline cs) : Inline (opening :: (cs ++ [closing])) := by
  intro m outside
  obtain ⟨first, enters⟩ := Passes.ordinary outside pair.ordinary.1
  obtain ⟨quiet, m', outside', passes⟩ := h m outside
  obtain ⟨last, leaves⟩ := Passes.ordinary outside' pair.ordinary.2
  have out : strip m (opening :: (cs ++ [closing])) = opening :: (strip m cs ++ [closing]) := by
    rw [← List.singleton_append, enters.strip_append, first, passes.strip_append, last]
    rfl
  have feed : '\n' ∉ [opening] ∧ '\n' ∉ [closing] := by
    rcases pair with ⟨rfl, rfl⟩ | ⟨rfl, rfl⟩ <;> decide
  rw [out]
  refine ⟨⟨quiet.balanced.enclose pair, fun keyword hk rest => ?_⟩, m', outside', ?_⟩
  · rw [← List.singleton_append, List.append_assoc, countFrom_false_append feed.1,
      List.append_assoc, quiet.mute keyword hk, countFrom_false_append feed.2]
  · exact enters.append (passes.append leaves)

/-- Fragments in a row. -/
theorem Inline.intercalate {separator : List Char} (hs : Inline separator)
    {parts : List (List Char)} (h : ∀ part ∈ parts, Inline part) :
    Inline (separator.intercalate parts) := by
  induction parts with
  | nil => exact Inline.nil
  | cons part parts ih =>
    have rest := ih fun p hp => h p (List.mem_cons_of_mem _ hp)
    cases parts with
    | nil => simpa [List.intercalate] using h part (by simp)
    | cons next more =>
      rw [Text.intercalate_cons_cons]
      exact ((h part (by simp)).append hs).append rest

/-! ## Blocks -/

/-- Whole lines that hold declarations of the given keywords and nothing else that counts. -/
structure Block (declared : List (List Char)) (cs : List Char) : Prop where
  passes : Passes (.seeking false) cs (.seeking false)
  balanced : Balanced (strip (.seeking false) cs)
  count : ∀ keyword ∈ keywords, ∀ rest,
    countFrom keyword true (strip (.seeking false) cs ++ rest) =
      declared.count keyword + countFrom keyword true rest

theorem Block.nil : Block [] [] where
  passes := Passes.nil _
  balanced := Balanced.nil
  count := by
    intro keyword _ rest
    simp

theorem Block.append {ks ls : List (List Char)} {xs ys : List Char} (hx : Block ks xs)
    (hy : Block ls ys) : Block (ks ++ ls) (xs ++ ys) where
  passes := hx.passes.append hy.passes
  balanced := by
    rw [hx.passes.strip_append]
    exact hx.balanced.append hy.balanced
  count := by
    intro keyword h rest
    rw [hx.passes.strip_append, List.append_assoc, hx.count keyword h, hy.count keyword h,
      List.count_append, Nat.add_assoc]

theorem Block.flatMap {α : Type} (declared : α → List (List Char)) {items : List α}
    {write : α → List Char} (h : ∀ item ∈ items, Block (declared item) (write item)) :
    Block (items.flatMap declared) (items.flatMap write) := by
  induction items with
  | nil => exact Block.nil
  | cons item items ih =>
    exact (h item (by simp)).append (ih fun i hi => h i (List.mem_cons_of_mem _ hi))

theorem Block.both {xs ys : List Char} (hx : Block [] xs) (hy : Block [] ys) :
    Block [] (xs ++ ys) :=
  hx.append hy

/-- Blocks without declarations in a row. -/
theorem Block.rows {α : Type} {items : List α} {write : α → List Char}
    (h : ∀ item ∈ items, Block [] (write item)) : Block [] (items.flatMap write) := by
  have none : items.flatMap (fun _ => ([] : List (List Char))) = [] := by simp
  exact none ▸ Block.flatMap (fun _ => []) h

theorem outside_seeking : Mode.Outside (.seeking false) := .inl rfl

theorem all_isOrdinary_spaces (n : Nat) : (List.replicate n ' ').all isOrdinary = true := by
  simp [isOrdinary]

theorem strip_spaces (n : Nat) (cs : List Char) :
    strip (.seeking false) (List.replicate n ' ' ++ cs) =
      List.replicate n ' ' ++ strip (.seeking false) cs := by
  obtain ⟨same, passes⟩ := Passes.ordinary outside_seeking (all_isOrdinary_spaces n)
  rw [passes.strip_append, same]

/-- Blanks at the front of a block, be they indentation or an empty line. -/
theorem Block.indent {ks : List (List Char)} {cs : List Char} (n : Nat) (h : Block ks cs) :
    Block ks (List.replicate n ' ' ++ cs) where
  passes := (Passes.ordinary outside_seeking (all_isOrdinary_spaces n)).2.append h.passes
  balanced := by
    rw [strip_spaces]
    exact (Balanced.of_notMem (by simp [signs])).append h.balanced
  count := by
    intro keyword hk rest
    rw [strip_spaces, List.append_assoc, countFrom_true_blanks, h.count keyword hk]
    intro b hb
    rw [List.eq_of_mem_replicate hb]
    decide

theorem Block.feed : Block [] ['\n'] where
  passes := Passes.feed _
  balanced := by decide
  count := by
    intro keyword _ rest
    have feed : strip (.seeking false) ['\n'] = ['\n'] := by simp
    rw [feed, List.singleton_append, countFrom_true_blank (by decide)]
    simp

theorem strip_dropped {text : List Char} (own : '\n' ∉ text) (rest : List Char) :
    strip .dropped (text ++ '\n' :: rest) = '\n' :: strip (.seeking false) rest := by
  rw [strip_line _ own]
  rfl

/-- A comment line is an empty line to the check, whatever it says. -/
theorem Block.comment {text : List Char} (own : '\n' ∉ text) :
    Block [] ('/' :: '/' :: (text ++ ['\n'])) := by
  have dropped : ∀ rest, strip (.seeking false) ('/' :: '/' :: (text ++ '\n' :: rest)) =
      '\n' :: strip (.seeking false) rest := by
    intro rest
    rw [strip_slashes, if_neg (by decide), strip_dropped own]
  have whole : strip (.seeking false) ('/' :: '/' :: (text ++ ['\n'])) = ['\n'] := by
    simpa using dropped []
  constructor
  · intro rest
    rw [whole]
    simpa using dropped rest
  · rw [whole]
    decide
  · intro keyword _ rest
    rw [whole, List.singleton_append, countFrom_true_blank (by decide)]
    simp

/-- A word and the character behind it, with which no declaration begins. -/
structure QuietWord (word : List Char) (d : Char) : Prop where
  name : ∀ c ∈ word, continuesName c = true
  stop : continuesName d = false
  /-- No comment and no end of a line begins here that the automaton would take away. -/
  stays : d ≠ '/' ∧ d ≠ '\r'
  plain : word = [] ∨ word ∈ keywords → Text.isBlank d = false

/-- A text begins with a word that makes no declaration. -/
def BeginsQuietly (cs : List Char) : Prop :=
  ∃ word d more, cs = word ++ d :: more ∧ QuietWord word d

theorem BeginsQuietly.append {xs : List Char} (h : BeginsQuietly xs) (ys : List Char) :
    BeginsQuietly (xs ++ ys) := by
  obtain ⟨word, d, more, rfl, quiet⟩ := h
  exact ⟨word, d, more ++ ys, by simp, quiet⟩

theorem ne_of_continuesName {c d : Char} (hc : continuesName c = true)
    (hd : continuesName d = false) : c ≠ d := by
  rintro rfl
  rw [hc] at hd
  cases hd

theorem isOrdinary_of_continuesName {c : Char} (h : continuesName c = true) :
    isOrdinary c = true := by
  have feed := ne_of_continuesName (d := '\n') h (by decide)
  have ret := ne_of_continuesName (d := '\r') h (by decide)
  have slash := ne_of_continuesName (d := '/') h (by decide)
  have quote := ne_of_continuesName (d := '\'') h (by decide)
  simp [isOrdinary, feed, ret, slash, quote]

theorem notMem_signs_of_continuesName {c : Char} (h : continuesName c = true) : c ∉ signs := by
  intro sign
  have : ∀ d ∈ signs, continuesName d = false := by decide
  exact ne_of_continuesName h (this c sign) rfl

theorem strip_word {word : List Char} (name : ∀ c ∈ word, continuesName c = true)
    (cs : List Char) :
    strip (.seeking false) (word ++ cs) = word ++ strip (.seeking false) cs := by
  obtain ⟨same, passes⟩ := Passes.ordinary outside_seeking
    (List.all_eq_true.mpr fun c hc => isOrdinary_of_continuesName (name c hc))
  rw [passes.strip_append, same]

theorem exists_strip_cons {d : Char} (stays : d ≠ '/' ∧ d ≠ '\r') (cs : List Char) :
    ∃ out, strip (.seeking false) (d :: cs) = d :: out := by
  by_cases feed : d = '\n'
  · subst feed
    exact ⟨_, strip_feed _ _⟩
  · exact ⟨_, strip_seeking_cons feed (absurd · stays.2) (absurd · stays.1)⟩

/-- What begins quietly declares nothing where it begins. -/
theorem BeginsQuietly.count {cs : List Char} (h : BeginsQuietly cs) {keyword : List Char}
    (hk : keyword ∈ keywords) (rest : List Char) :
    countFrom keyword true (strip (.seeking false) cs ++ rest) =
      countFrom keyword false (strip (.seeking false) cs ++ rest) := by
  obtain ⟨word, d, more, rfl, quiet⟩ := h
  obtain ⟨out, behind⟩ := exists_strip_cons quiet.stays more
  rw [strip_word quiet.name, behind, List.append_assoc, List.cons_append, countFrom_true,
    afterDeclaration?_word hk quiet.name quiet.stop (fun e => quiet.plain (.inl e))
      (fun e => quiet.plain (.inr (e ▸ hk)))]

/-- A line of its own that begins with no declaration. -/
theorem Block.line {cs : List Char} (h : Inline cs) (quiet : BeginsQuietly (cs ++ ['\n'])) :
    Block [] (cs ++ ['\n']) := by
  obtain ⟨inside, m', -, passes⟩ := h _ outside_seeking
  have out : strip (.seeking false) (cs ++ ['\n']) = strip (.seeking false) cs ++ ['\n'] := by
    simp [passes.strip_append]
  constructor
  · exact passes.append (Passes.feed m')
  · rw [out]
    exact inside.balanced.append (by decide)
  · intro keyword hk rest
    rw [quiet.count hk, out, List.append_assoc, inside.mute keyword hk, List.singleton_append,
      countFrom_false_cons]
    simp

/-- A line that begins with a keyword and a name. -/
theorem Block.declaration {keyword : List Char} (hk : keyword ∈ keywords) {c : Char}
    (name : beginsName c = true) {cs : List Char} (h : Inline cs) :
    Block [keyword] (keyword ++ ' ' :: c :: (cs ++ ['\n'])) := by
  obtain ⟨inside, m', -, passes⟩ := h _ outside_seeking
  have ordinary : (keyword ++ [' ', c]).all isOrdinary = true := by
    rw [List.all_append, Bool.and_eq_true]
    constructor
    · exact List.all_eq_true.mpr fun d hd =>
        isOrdinary_of_continuesName (continuesName_of_keyword hk d hd)
    · have letter := isOrdinary_of_continuesName (continuesName_of_beginsName name)
      simp only [List.all_cons, letter, List.all_nil]
      decide
  obtain ⟨same, front⟩ := Passes.ordinary outside_seeking ordinary
  have whole : keyword ++ ' ' :: c :: (cs ++ ['\n']) = (keyword ++ [' ', c]) ++ (cs ++ ['\n']) := by
    simp
  have out : strip (.seeking false) (keyword ++ ' ' :: c :: (cs ++ ['\n'])) =
      (keyword ++ [' ', c]) ++ (strip (.seeking false) cs ++ ['\n']) := by
    rw [whole, front.strip_append, same, passes.strip_append]
    simp
  have unsigned : ∀ d ∈ keyword ++ [' ', c], d ∉ signs := by
    intro d hd
    simp only [List.mem_append, List.mem_cons, List.not_mem_nil, or_false] at hd
    rcases hd with hd | rfl | rfl
    · exact notMem_signs_of_continuesName (continuesName_of_keyword hk d hd)
    · decide
    · exact notMem_signs_of_continuesName (continuesName_of_beginsName name)
  constructor
  · rw [whole]
    exact front.append (passes.append (Passes.feed m'))
  · rw [out]
    exact (Balanced.of_notMem unsigned).append (inside.balanced.append (by decide))
  · intro other ho rest
    rw [out]
    simp only [List.append_assoc, List.cons_append, List.nil_append]
    rw [countFrom_declaration ho hk name, inside.mute other ho, countFrom_false_cons]
    by_cases same : other = keyword
    · subst same
      simp [Nat.add_comm]
    · simp [same, Ne.symm same]

/-- A line that begins with a closing sign declares nothing there. -/
theorem countFrom_closing {opening closing : Char} (pair : IsPair opening closing)
    {keyword : List Char} (hk : keyword ∈ keywords) (rest : List Char) :
    countFrom keyword true (closing :: rest) = countFrom keyword false rest := by
  have quiet : continuesName closing = false ∧ Text.isBlank closing = false ∧
      (closing == '\n') = false := by
    rcases pair with ⟨-, rfl⟩ | ⟨-, rfl⟩ <;> decide
  have none : afterDeclaration? keyword ([] ++ closing :: rest) = none :=
    afterDeclaration?_word hk (by simp) quiet.1 (fun _ => quiet.2.1) (fun _ => quiet.2.1) rest
  rw [List.nil_append] at none
  rw [countFrom_true, none]
  simp only [countFrom_false_cons, quiet.2.2]

/-- Lines between two signs, as in an object: what follows the closing sign goes on in its line. -/
theorem Inline.lines {opening closing : Char} (pair : IsPair opening closing) {cs : List Char}
    (h : Block [] cs) (n : Nat) :
    Inline (opening :: '\n' :: (cs ++ (List.replicate n ' ' ++ [closing]))) := by
  intro m outside
  obtain ⟨first, enters⟩ := Passes.ordinary outside pair.ordinary.1
  have ordinary : (List.replicate n ' ' ++ [closing]).all isOrdinary = true := by
    rw [List.all_append, all_isOrdinary_spaces, pair.ordinary.2]
    rfl
  obtain ⟨last, leaves⟩ := Passes.ordinary outside_seeking ordinary
  have passes := enters.append ((Passes.feed m).append (h.passes.append leaves))
  have out : strip m (opening :: '\n' :: (cs ++ (List.replicate n ' ' ++ [closing]))) =
      opening :: ('\n' :: (strip (.seeking false) cs ++ List.replicate n ' ') ++ [closing]) := by
    rw [← List.singleton_append, enters.strip_append, first, strip_feed, h.passes.strip_append,
      last]
    simp
  have feed : Balanced ['\n'] := by decide
  have spaces : Balanced ('\n' :: (strip (.seeking false) cs ++ List.replicate n ' ')) :=
    (feed.append h.balanced).append (Balanced.of_notMem (by simp [signs]))
  refine ⟨⟨out ▸ spaces.enclose pair, fun keyword hk rest => ?_⟩, _, outside_seeking, passes⟩
  have open_ : (opening == '\n') = false := by
    rcases pair with ⟨rfl, -⟩ | ⟨rfl, -⟩ <;> decide
  have blanks : ∀ b ∈ List.replicate n ' ', Text.isBlank b = true := by
    intro b hb
    rw [List.eq_of_mem_replicate hb]
    decide
  rw [out]
  simp only [List.cons_append, List.append_assoc, List.nil_append]
  rw [countFrom_false_cons, open_, countFrom_false_cons, beq_self_eq_true, h.count keyword hk,
    countFrom_true_blanks blanks, countFrom_closing pair hk]
  simp

end BicepForge.Check
