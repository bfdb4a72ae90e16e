import BicepForge.Bicep.Value
import BicepForge.Proofs.Check.Fragment
import BicepForge.Proofs.Json.Numeral

/-!
# Values that the check does not notice

A value is tame if its literals hold nothing that ends a string or opens or closes anything, and
its raw text is solid and balanced. By induction on values the text of a tame value is an inline
fragment at every depth, however its arrays and objects are laid out.
-/

namespace BicepForge.Check

open Bicep

/-- A character that ends neither a line nor a string, and neither opens nor closes anything. -/
def isCleanChar (c : Char) : Bool :=
  c != '\n' && c != '\'' && !signs.contains c

/-- A text of such characters. -/
def isClean (s : String) : Bool :=
  s.toList.all isCleanChar

/-- Raw text that keeps the rest of its line as it is. -/
def isTidy (s : String) : Bool :=
  isSolid s.toList && decide (Balanced s.toList)

/-- The inside of a string with holes: nothing in it is escaped, and its holes are closed. -/
def isTidyInterp (s : String) : Bool :=
  (s.toList.all fun c => !(['\\', '\'', '\n', '\r', '\t'].contains c)) &&
    decide (Balanced s.toList)

/-- The line of an array item that is raw text must not begin like a declaration. -/
def opensQuietly : Value → Bool
  | .expr e =>
    match e.toList with
    | [] => false
    | c :: cs => !Text.isBlank c && !(['p', 'v', 'o', 'r', 'm'].contains c) &&
        (c :: cs).all fun d => d != '/' && d != '\r'
  | .call _ _ | .conditional _ _ _ => false
  | _ => true

mutual
/-- A value whose text the check does not notice. -/
def tame : Value → Bool
  | .str s => isClean s
  | .interp s => isTidyInterp s
  | .expr e => isTidy e
  | .bool _ | .int _ | .null => true
  | .array items => tameItems items && (items.all Value.isScalar || items.all opensQuietly)
  | .object body => tameBody body
  | .call function arguments => isTidy function && tameItems arguments
  | .forEach binding source body => isTidy binding && isTidy source && tame body
  | .conditional condition yes no => isTidy condition && tame yes && tame no
def tameItems : List Value → Bool
  | [] => true
  | v :: vs => tame v && tameItems vs
def tameBody : Body → Bool
  | [] => true
  | e :: es => tameEntry e && tameBody es
def tameEntry : Entry → Bool
  | .property key value => isClean key && tame value
  | .comment text => !text.toList.contains '\n'
end

/-! ## Leaves -/

theorem isClean_append (s t : String) : isClean (s ++ t) = (isClean s && isClean t) := by
  simp [isClean]

/-! The text of a literal is known as a list of characters. Facts about it are decided there, since
the characters of a string are costly to compute. -/

theorem clean_lit {cs : List Char} (h : cs.all isCleanChar = true) :
    isClean (String.ofList cs) = true := by
  rwa [isClean, String.toList_ofList]

theorem tidy_lit {cs : List Char}
    (h : (isSolid cs && decide (Balanced cs)) = true) :
    isTidy (String.ofList cs) = true := by
  rwa [isTidy, String.toList_ofList]

theorem interp_lit {cs : List Char}
    (h : ((cs.all fun c => !(['\\', '\'', '\n', '\r', '\t'].contains c)) &&
      decide (Balanced cs)) = true) :
    isTidyInterp (String.ofList cs) = true := by
  rwa [isTidyInterp, String.toList_ofList]

theorem name_lit {cs : List Char}
    (h : (cs.head?.any beginsName && cs.all continuesName) = true) :
    Value.isIdentifier (String.ofList cs) = true := by
  rw [Value.isIdentifier, String.toList_ofList]
  cases cs with
  | nil => cases h
  | cons c cs =>
    simp only [List.head?_cons, Option.any_some, List.all_cons, Bool.and_eq_true] at h
    exact Bool.and_eq_true_iff.mpr ⟨h.1, h.2.2⟩

theorem balanced_of_isClean {cs : List Char} (h : cs.all isCleanChar = true) : Balanced cs := by
  refine Balanced.of_notMem fun c hc => ?_
  have clean := List.all_eq_true.mp h c hc
  simp only [isCleanChar, Bool.and_eq_true, Bool.not_eq_true', List.contains_eq_mem,
    decide_eq_false_iff_not] at clean
  exact clean.2

theorem isTidy_append {s t : String} (hs : isTidy s = true) (ht : isTidy t = true) :
    isTidy (s ++ t) = true := by
  simp only [isTidy, Bool.and_eq_true, decide_eq_true_eq, String.toList_append] at hs ht ⊢
  exact ⟨solidFrom_append hs.1 ht.1, hs.2.append ht.2⟩

theorem isTidyInterp_append {s t : String} (hs : isTidyInterp s = true)
    (ht : isTidyInterp t = true) : isTidyInterp (s ++ t) = true := by
  simp only [isTidyInterp, Bool.and_eq_true, decide_eq_true_eq, String.toList_append,
    List.all_append] at hs ht ⊢
  exact ⟨⟨hs.1, ht.1⟩, hs.2.append ht.2⟩

theorem Inline.tidy {s : String} (h : isTidy s = true) : Inline s.toList := by
  simp only [isTidy, Bool.and_eq_true, decide_eq_true_eq] at h
  exact Inline.solid h.1 h.2

/-- A string literal is solid if nothing in it ends it or its line. -/
theorem isSolid_inQuotes {cs : List Char} (h : ∀ c ∈ cs, c ≠ '\n' ∧ c ≠ '\'') :
    isSolid (Value.inQuotes cs) = true := by
  have inside : solidFrom true (cs ++ ['\'']) = true := by
    induction cs with
    | nil => rfl
    | cons c cs ih =>
      have here := h c (by simp)
      rw [List.cons_append, solidFrom, if_neg here.2, if_pos rfl, Bool.and_eq_true]
      exact ⟨by simp [here.1], ih fun d hd => h d (List.mem_cons_of_mem _ hd)⟩
  exact inside

theorem Inline.quoted {cs : List Char} (h : ∀ c ∈ cs, c ≠ '\n' ∧ c ≠ '\'')
    (balanced : Balanced cs) : Inline (Value.inQuotes cs) := by
  refine Inline.solid (isSolid_inQuotes h) ?_
  have quote : Balanced ['\''] := by decide
  exact quote.append (balanced.append quote)

theorem all_escapeChar {c : Char} (h : isCleanChar c = true) :
    (Value.escapeChar c).all isCleanChar = true := by
  unfold Value.escapeChar
  split_ifs with back quote feed ret tab
  · decide
  · subst quote; exact absurd h (by decide)
  · subst feed; exact absurd h (by decide)
  · decide
  · decide
  · simpa using h

theorem all_escape {cs : List Char} (h : cs.all isCleanChar = true) :
    (Value.escape cs).all isCleanChar = true := by
  rw [Value.escape, List.all_flatMap, List.all_eq_true]
  exact fun c hc => all_escapeChar (List.all_eq_true.mp h c hc)

/-- A clean text opens no hole, so that a literal of it is escaped like any other string. -/
theorem escapeLiteral_of_isClean {cs : List Char} (h : cs.all isCleanChar = true) :
    Value.escapeLiteral cs = Value.escape cs := by
  induction cs with
  | nil => rfl
  | cons c cs ih =>
    rw [List.all_cons, Bool.and_eq_true] at h
    rw [Value.escapeLiteral_cons_of_ne, ih h.2]
    · rfl
    · rintro rest - rfl
      exact absurd h.2 (by simp [isCleanChar, signs])

theorem ne_of_isCleanChar {c : Char} (h : isCleanChar c = true) : c ≠ '\n' ∧ c ≠ '\'' := by
  simp only [isCleanChar, Bool.and_eq_true, bne_iff_ne] at h
  exact h.1

theorem Inline.clean {cs : List Char} (h : cs.all isCleanChar = true) :
    Inline (Value.inQuotes cs) :=
  Inline.quoted (fun c hc => ne_of_isCleanChar (List.all_eq_true.mp h c hc))
    (balanced_of_isClean h)

theorem Inline.literal {s : String} (h : isClean s = true) :
    Inline (Value.inQuotes (Value.escapeLiteral s.toList)) := by
  rw [escapeLiteral_of_isClean h]
  exact Inline.clean (all_escape h)

/-- Nothing in the inside of a tidy string with holes is escaped. -/
theorem escape_of_isTidyInterp {cs : List Char}
    (h : (cs.all fun c => !(['\\', '\'', '\n', '\r', '\t'].contains c)) = true) :
    Value.escape cs = cs := by
  induction cs with
  | nil => rfl
  | cons c cs ih =>
    rw [List.all_cons, Bool.and_eq_true] at h
    have same : Value.escapeChar c = [c] := by
      have special := h.1
      simp only [List.contains_eq_mem, Bool.not_eq_true', decide_eq_false_iff_not, List.mem_cons,
        not_or] at special
      simp [Value.escapeChar, special]
    rw [Value.escape, List.flatMap_cons, same, ← Value.escape, ih h.2]
    rfl

theorem Inline.interp {s : String} (h : isTidyInterp s = true) :
    Inline (Value.inQuotes (Value.escape s.toList)) := by
  simp only [isTidyInterp, Bool.and_eq_true, decide_eq_true_eq] at h
  obtain ⟨plain, balanced⟩ := h
  rw [escape_of_isTidyInterp plain]
  refine Inline.quoted (fun c hc => ?_) balanced
  have special := List.all_eq_true.mp plain c hc
  simp only [List.contains_eq_mem, Bool.not_eq_true', decide_eq_false_iff_not, List.mem_cons,
    not_or] at special
  exact ⟨special.2.2.1, special.2.1⟩

theorem isSolid_of_ordinary {cs : List Char} (h : cs.all isOrdinary = true) :
    isSolid cs = true := by
  induction cs with
  | nil => rfl
  | cons c cs ih =>
    rw [List.all_cons, Bool.and_eq_true] at h
    have quote : c ≠ '\'' := by
      rintro rfl
      exact absurd h.1 (by decide)
    rw [isSolid, solidFrom, if_neg quote, if_neg (by decide), h.1, Bool.true_and]
    exact ih h.2

/-- Names are solid, and nothing in them opens or closes anything. -/
theorem Inline.name {cs : List Char} (h : ∀ c ∈ cs, continuesName c = true) : Inline cs := by
  refine Inline.solid (isSolid_of_ordinary ?_) (Balanced.of_notMem ?_)
  · exact List.all_eq_true.mpr fun c hc => isOrdinary_of_continuesName (h c hc)
  · exact fun c hc => notMem_signs_of_continuesName (h c hc)

theorem Inline.key {key : String} (h : isClean key = true) : Inline (Value.keyChars key) := by
  unfold Value.keyChars
  split_ifs with bare
  · obtain ⟨c, cs, hk, -, run⟩ := Value.exists_cons_of_isIdentifier bare
    rw [hk]
    exact Inline.name run
  · exact Inline.clean (all_escape h)

/-! ## Numbers -/

theorem isOrdinary_of_isNumeral {c : Char} (h : Number.isNumeral c = true) :
    isOrdinary c = true ∧ c ∉ signs := by
  simp only [Number.isNumeral, Bool.or_eq_true] at h
  rcases h with digit | sign
  · have name : continuesName c = true := by simp [continuesName, Char.isAlphanum, digit]
    exact ⟨isOrdinary_of_continuesName name, notMem_signs_of_continuesName name⟩
  · have : ∀ d ∈ ['-', '+', '.', 'e'], isOrdinary d = true ∧ d ∉ signs := by decide
    exact this c (by simpa using sign)

/-- Numbers are tidy. -/
theorem isTidy_text (n : Number) : isTidy n.text = true := by
  have all := List.all_eq_true.mp n.toList_text.1
  simp only [isTidy, Bool.and_eq_true, decide_eq_true_eq]
  constructor
  · exact isSolid_of_ordinary
      (List.all_eq_true.mpr fun c hc => (isOrdinary_of_isNumeral (all c hc)).1)
  · exact Balanced.of_notMem fun c hc => (isOrdinary_of_isNumeral (all c hc)).2

theorem opensQuietly_text (n : Number) : opensQuietly (.expr n.text) = true := by
  obtain ⟨all, c, head, first⟩ := n.toList_text
  rw [opensQuietly]
  cases h : n.text.toList with
  | nil => simp [h] at head
  | cons d cs =>
    rw [h] at head all
    obtain rfl : d = c := by simpa using head
    have quiet : Text.isBlank d = false ∧ ['p', 'v', 'o', 'r', 'm'].contains d = false := by
      rcases first with digit | rfl
      · have name : continuesName d = true := by simp [continuesName, Char.isAlphanum, digit]
        refine ⟨isBlank_of_continuesName name, ?_⟩
        rw [List.contains_eq_mem, decide_eq_false_iff_not]
        intro letter
        have other : ∀ e ∈ ['p', 'v', 'o', 'r', 'm'], e.isDigit = false := by decide
        rw [other d letter] at digit
        cases digit
      · decide
    simp only [quiet, Bool.not_false, Bool.true_and, List.all_eq_true] at all ⊢
    intro e he
    have stays := (isOrdinary_of_isNumeral (all e he)).1
    simp only [isOrdinary, Bool.and_eq_true] at stays
    simp [stays]

/-! ## Beginnings of lines -/

/-- A text that ends with a line feed begins quietly if its first character is no blank and does
not begin a keyword. -/
theorem BeginsQuietly.of_first {c : Char} {cs : List Char} (blank : Text.isBlank c = false)
    (letter : c ∉ ['p', 'v', 'o', 'r', 'm'])
    (plain : ∀ d ∈ c :: cs, d ≠ '/' ∧ d ≠ '\r') : BeginsQuietly (c :: cs ++ ['\n']) := by
  have split := List.takeWhile_append_dropWhile (p := continuesName) (l := c :: cs ++ ['\n'])
  cases behind : (c :: cs ++ ['\n']).dropWhile continuesName with
  | nil =>
    rw [List.dropWhile_eq_nil_iff] at behind
    exact absurd (behind '\n' (by simp)) (by decide)
  | cons d more =>
    rw [behind] at split
    have stop : continuesName d = false := by
      have head := List.head?_dropWhile_not continuesName (c :: cs ++ ['\n'])
      rw [behind] at head
      simpa using head
    refine ⟨_, d, more, split.symm, fun e he => List.mem_takeWhile_imp he, stop, ?_, ?_⟩
    · have hd : d ∈ c :: cs ++ ['\n'] := by rw [← split]; simp
      rcases List.mem_append.mp hd with hd | hd
      · exact plain d hd
      · rw [List.mem_singleton.mp hd]
        decide
    · rintro (none | keyword)
      · rw [none, List.nil_append] at split
        rw [(List.cons.inj split).1]
        exact blank
      · have first : ∀ word ∈ keywords, word.head? ∈ ['p', 'v', 'o', 'r', 'm'].map some := by
          decide
        obtain ⟨k, hk, head⟩ := List.mem_map.mp (first _ keyword)
        have whole := congrArg List.head? split
        rw [List.head?_append, ← head] at whole
        obtain rfl : k = c := by simpa using whole
        exact absurd hk letter

theorem BeginsQuietly.of_sign {d : Char} (stop : continuesName d = false)
    (stays : d ≠ '/' ∧ d ≠ '\r') (blank : Text.isBlank d = false) (cs : List Char) :
    BeginsQuietly (d :: cs) :=
  ⟨[], d, cs, rfl, by simp, stop, stays, fun _ => blank⟩

theorem BeginsQuietly.key {key : String} (cs : List Char) :
    BeginsQuietly (Value.keyChars key ++ ':' :: cs) := by
  unfold Value.keyChars
  split_ifs with bare
  · obtain ⟨c, ds, hk, -, run⟩ := Value.exists_cons_of_isIdentifier bare
    exact ⟨key.toList, ':', cs, rfl, hk ▸ run, by decide, by decide, fun _ => by decide⟩
  · exact BeginsQuietly.of_sign (by decide) (by decide) (by decide) _

theorem BeginsQuietly.expr {e : String} (h : opensQuietly (.expr e) = true) :
    BeginsQuietly (e.toList ++ ['\n']) := by
  rw [opensQuietly] at h
  cases he : e.toList with
  | nil => simp [he] at h
  | cons c cs =>
    simp only [he, Bool.and_eq_true, Bool.not_eq_true', List.all_eq_true, bne_iff_ne] at h
    refine BeginsQuietly.of_first h.1.1 ?_ h.2
    simpa using h.1.2

/-- Items begin their lines quietly. -/
theorem beginsQuietly_chars {v : Value} (h : opensQuietly v = true) (depth : Nat) :
    BeginsQuietly (v.chars depth ++ ['\n']) := by
  cases v with
  | str s => exact BeginsQuietly.of_sign (by decide) (by decide) (by decide) _
  | interp s => exact BeginsQuietly.of_sign (by decide) (by decide) (by decide) _
  | expr e => exact BeginsQuietly.expr h
  | bool b =>
    cases b with
    | true => exact ⟨"true".toList, '\n', [], rfl, by decide, by decide, by decide, by decide⟩
    | false => exact ⟨"false".toList, '\n', [], rfl, by decide, by decide, by decide, by decide⟩
  | int i => exact BeginsQuietly.expr (opensQuietly_text (.int i))
  | null => exact ⟨"null".toList, '\n', [], rfl, by decide, by decide, by decide, by decide⟩
  | array items =>
    rw [Value.chars_array]
    split_ifs
    · exact BeginsQuietly.of_sign (by decide) (by decide) (by decide) _
    · exact BeginsQuietly.of_sign (by decide) (by decide) (by decide) _
  | object body =>
    cases body with
    | nil => exact BeginsQuietly.of_sign (by decide) (by decide) (by decide) _
    | cons e es => exact BeginsQuietly.of_sign (by decide) (by decide) (by decide) _
  | call function arguments => cases h
  | forEach binding source body =>
    rw [Value.chars_forEach]
    exact BeginsQuietly.of_sign (by decide) (by decide) (by decide) _
  | conditional condition yes no => cases h

/-! ## Values -/

mutual
/-- The text of a tame value is an inline fragment. -/
theorem inline_chars (depth : Nat) : ∀ v : Value, tame v = true → Inline (v.chars depth)
  | .str s, h => Inline.literal h
  | .interp s, h => Inline.interp h
  | .expr e, h => Inline.tidy h
  | .bool true, _ => Inline.tidy (s := "true") (by decide)
  | .bool false, _ => Inline.tidy (s := "false") (by decide)
  | .int i, _ => Inline.tidy (isTidy_text (.int i))
  | .null, _ => Inline.tidy (s := "null") (by decide)
  | .array items, h => by
    rw [tame, Bool.and_eq_true, Bool.or_eq_true] at h
    rw [Value.chars_array]
    split_ifs with scalars
    · have comma : Inline [',', ' '] := Inline.solid (by decide) (by decide)
      exact Inline.enclose (.inr ⟨rfl, rfl⟩) (comma.intercalate (inline_itemChars depth items h.1))
    · rw [List.append_assoc]
      exact Inline.lines (.inr ⟨rfl, rfl⟩)
        (block_itemLines (depth + 1) items h.1 (h.2.resolve_left scalars)) _
  | .object [], _ => Inline.enclose (.inl ⟨rfl, rfl⟩) Inline.nil
  | .object (e :: es), h => by
    rw [Value.chars_object_cons, List.cons_append, List.cons_append, List.append_assoc]
    exact Inline.lines (.inl ⟨rfl, rfl⟩) (block_entryLines (depth + 1) (e :: es) h) _
  | .call function arguments, h => by
    rw [tame, Bool.and_eq_true] at h
    have comma : Inline [',', ' '] := Inline.solid (by decide) (by decide)
    have opening : Inline ['('] := Inline.solid (by decide) (by decide)
    have closing : Inline [')'] := Inline.solid (by decide) (by decide)
    have row := comma.intercalate (inline_itemChars depth arguments h.2)
    rw [Value.chars_call]
    simpa using (Inline.tidy h.1).append (opening.append (row.append closing))
  | .forEach binding source body, h => by
    rw [tame, Bool.and_eq_true, Bool.and_eq_true] at h
    obtain ⟨⟨hb, hs⟩, h⟩ := h
    have head : Inline "for ".toList := Inline.tidy (by decide)
    have among : Inline " in ".toList := Inline.tidy (by decide)
    have colon : Inline [':', ' '] := Inline.solid (by decide) (by decide)
    have inside := head.append ((Inline.tidy hb).append (among.append ((Inline.tidy hs).append
      (colon.append (inline_chars depth body h)))))
    have begins : "[for ".toList = '[' :: "for ".toList := by decide
    rw [Value.chars_forEach, begins]
    simpa only [List.append_assoc, List.cons_append] using Inline.enclose (.inr ⟨rfl, rfl⟩) inside
  | .conditional condition yes no, h => by
    rw [tame, Bool.and_eq_true, Bool.and_eq_true] at h
    obtain ⟨⟨hc, hy⟩, hn⟩ := h
    have question : Inline " ? ".toList := Inline.tidy (by decide)
    have colon : Inline " : ".toList := Inline.tidy (by decide)
    rw [Value.chars_conditional]
    exact (((((Inline.tidy hc).append question).append (inline_chars depth yes hy)).append
      colon).append (inline_chars depth no hn))
theorem inline_itemChars (depth : Nat) : ∀ vs : List Value, tameItems vs = true →
    ∀ part ∈ Value.itemChars depth vs, Inline part
  | [], _ => by simp
  | v :: vs, h => by
    rw [tameItems, Bool.and_eq_true] at h
    rw [Value.itemChars_cons]
    intro part hp
    rcases List.mem_cons.mp hp with rfl | hp
    · exact inline_chars depth v h.1
    · exact inline_itemChars depth vs h.2 part hp
theorem block_itemLines (depth : Nat) : ∀ vs : List Value, tameItems vs = true →
    vs.all opensQuietly = true → Block [] (Value.itemLines depth vs)
  | [], _, _ => Block.nil
  | v :: vs, h, quiet => by
    rw [tameItems, Bool.and_eq_true] at h
    rw [List.all_cons, Bool.and_eq_true] at quiet
    have line := Block.line (inline_chars depth v h.1) (beginsQuietly_chars quiet.1 depth)
    have more := block_itemLines depth vs h.2 quiet.2
    rw [Value.itemLines_cons]
    simpa [Value.indent] using (line.indent (2 * depth)).append more
theorem block_entryLines (depth : Nat) : ∀ es : Body, tameBody es = true →
    Block [] (Value.entryLines depth es)
  | [], _ => Block.nil
  | e :: es, h => by
    rw [tameBody, Bool.and_eq_true] at h
    rw [Value.entryLines_cons]
    simpa [Value.indent] using
      ((block_entry depth e h.1).indent (2 * depth)).append (block_entryLines depth es h.2)
theorem block_entry (depth : Nat) : ∀ e : Entry, tameEntry e = true →
    Block [] (Value.entryChars depth e ++ ['\n'])
  | .property key value, h => by
    rw [tameEntry, Bool.and_eq_true] at h
    have colon : Inline [':', ' '] := Inline.solid (by decide) (by decide)
    have text := ((Inline.key h.1).append colon).append (inline_chars depth value h.2)
    rw [Value.entryChars_property]
    refine Block.line text ?_
    simpa using BeginsQuietly.key (' ' :: (value.chars depth ++ ['\n']))
  | .comment text, h => by
    have own : '\n' ∉ ' ' :: text.toList := by
      simpa [tameEntry] using h
    exact Block.comment own
end

end BicepForge.Check
