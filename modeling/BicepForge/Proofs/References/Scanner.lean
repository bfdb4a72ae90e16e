import BicepForge.Bicep.Value
import BicepForge.Proofs.Check.Counting
import BicepForge.Proofs.Json.Numeral
import Mathlib.Data.List.Basic

/-!
# The names in a text

A scanner reads the text of an expression and gives the symbolic names in it. String literals are
left out, but their holes are not; members behind a dot, numbers, the words `true`, `false` and
`null`, and calls of built-in functions are no symbolic names.
-/

namespace BicepForge.References

open Bicep Check

/-- What a character stands in. Where nothing is around it, it stands in an expression. -/
inductive Place where
  /-- The expression between two braces. -/
  | hole
  | quoted
  /-- A string, just behind a backslash. -/
  | escaped
  /-- A string, just behind a dollar sign. -/
  | dollar
deriving DecidableEq

/-- A scanner between two characters. -/
structure Scanner where
  /-- What is around the next character, the innermost first. -/
  places : List Place := []
  /-- The word that has been read so far. -/
  word : List Char := []
  /-- Whether the word stands behind a dot. -/
  member : Bool := false
deriving DecidableEq

def valueWords : List (List Char) :=
  [['t', 'r', 'u', 'e'], ['f', 'a', 'l', 's', 'e'], ['n', 'u', 'l', 'l']]

/-- The built-in functions that documents call. -/
def builtinFunctions : List (List Char) :=
  ["toLower", "replace", "union", "take", "utcNow", "resourceGroup"].map String.toList

/-- A digit, or the mark of a power of ten. -/
def isNumberChar (c : Char) : Bool :=
  c.isDigit || c == 'e'

/-- Whether a word is a number, or one half of it. -/
def isNumberWord (word : List Char) : Bool :=
  word.head?.any Char.isDigit && word.all isNumberChar

/-- The name that ends here, before a parenthesis or before anything else. -/
def Scanner.name (s : Scanner) (called : Bool) : List (List Char) :=
  if s.word.isEmpty || s.member || isNumberWord s.word || valueWords.contains s.word ||
      (called && builtinFunctions.contains s.word) then []
  else [s.word]

/-- What is around the next character of a string. -/
def inString (outer : List Place) (c : Char) : List Place :=
  if c = '\\' then .escaped :: outer
  else if c = '$' then .dollar :: outer
  else if c = '\'' then outer
  else .quoted :: outer

/-- What is around the next character of an expression. -/
def inExpression (places : List Place) (c : Char) : List Place :=
  if c = '\'' then .quoted :: places
  else if c = '\x7b' then .hole :: places
  else if c = '\x7d' then places.tail
  else places

def Scanner.next (s : Scanner) (c : Char) : Scanner :=
  match s.places with
  | .escaped :: outer => { places := .quoted :: outer }
  | .quoted :: outer => { places := inString outer c }
  | .dollar :: outer =>
    { places := if c = '\x7b' then .hole :: .quoted :: outer else inString outer c }
  | places =>
    if continuesName c then { s with word := s.word ++ [c] }
    else { places := inExpression places c, member := c == '.' }

/-- The name that a character ends. -/
def Scanner.ended (s : Scanner) (c : Char) : List (List Char) :=
  if continuesName c then [] else s.name (c == '(')

/-- The names in a text from where the scanner is. -/
def scan (s : Scanner) : List Char → List (List Char)
  | [] => s.name false
  | c :: cs => s.ended c ++ scan (s.next c) cs

/-- The symbolic names in the text of an expression. -/
def namesIn (cs : List Char) : List String :=
  (scan {} cs).map String.ofList

/-! ## Scanning part by part -/

/-- The names that end in a text. -/
def passed (s : Scanner) : List Char → List (List Char)
  | [] => []
  | c :: cs => s.ended c ++ passed (s.next c) cs

/-- The scanner behind a text. -/
def behind (s : Scanner) (cs : List Char) : Scanner :=
  cs.foldl Scanner.next s

theorem scan_append (s : Scanner) (xs ys : List Char) :
    scan s (xs ++ ys) = passed s xs ++ scan (behind s xs) ys := by
  induction xs generalizing s with
  | nil => rfl
  | cons c xs ih =>
    rw [List.cons_append, scan, ih, passed, List.append_assoc]
    rfl

theorem passed_append (s : Scanner) (xs ys : List Char) :
    passed s (xs ++ ys) = passed s xs ++ passed (behind s xs) ys := by
  induction xs generalizing s with
  | nil => rfl
  | cons c xs ih =>
    rw [List.cons_append, passed, ih, passed, List.append_assoc]
    rfl

theorem behind_append (s : Scanner) (xs ys : List Char) :
    behind s (xs ++ ys) = behind (behind s xs) ys :=
  List.foldl_append

theorem name_subset (s : Scanner) (called : Bool) : s.name called ⊆ [s.word] := by
  unfold Scanner.name
  split_ifs
  · exact List.nil_subset _
  · exact List.Subset.refl _

/-- Where a word may be read: outside of strings. -/
def inCode : List Place → Bool
  | [] | .hole :: _ => true
  | _ => false

theorem next_of_continuesName {s : Scanner} (code : inCode s.places = true) {c : Char}
    (h : continuesName c = true) : s.next c = { s with word := s.word ++ [c] } := by
  unfold Scanner.next
  split
  · rename_i heq
    simp [inCode, heq] at code
  · rename_i heq
    simp [inCode, heq] at code
  · rename_i heq
    simp [inCode, heq] at code
  · rw [if_pos h]

/-- A word is read whole. -/
theorem behind_word {s : Scanner} (code : inCode s.places = true) {cs : List Char}
    (h : ∀ c ∈ cs, continuesName c = true) : behind s cs = { s with word := s.word ++ cs } := by
  induction cs generalizing s with
  | nil =>
    rw [List.append_nil]
    rfl
  | cons c cs ih =>
    have first := next_of_continuesName code (h c (by simp))
    rw [behind, List.foldl_cons, first]
    refine (ih (by exact code) fun d hd => h d (List.mem_cons_of_mem _ hd)).trans ?_
    simp only [List.append_assoc, List.cons_append, List.nil_append]

theorem passed_word {s : Scanner} {cs : List Char} (h : ∀ c ∈ cs, continuesName c = true) :
    passed s cs = [] := by
  induction cs generalizing s with
  | nil => rfl
  | cons c cs ih =>
    rw [passed, Scanner.ended, if_pos (h c (by simp)),
      ih fun d hd => h d (List.mem_cons_of_mem _ hd)]
    rfl

def isWord (s : String) : Bool :=
  s.toList.all continuesName

theorem isWord_of_isIdentifier {s : String} (h : Value.isIdentifier s = true) :
    isWord s = true := by
  obtain ⟨c, cs, hs, -, run⟩ := Value.exists_cons_of_isIdentifier h
  rw [isWord, hs, List.all_eq_true]
  exact run

theorem scan_word {s : String} (h : isWord s = true) (rest : List Char) :
    scan {} (s.toList ++ rest) = scan { word := s.toList } rest := by
  have run := List.all_eq_true.mp h
  rw [scan_append, passed_word run, behind_word rfl run]
  rfl

/-! ## Names and paths -/

/-- A name is the only one in its own text. -/
theorem namesIn_word {s : String} (h : isWord s = true) : namesIn s.toList ⊆ [s] := by
  have whole := scan_word h []
  rw [List.append_nil] at whole
  intro n hn
  obtain ⟨cs, hc, rfl⟩ := List.mem_map.mp hn
  rw [whole] at hc
  rw [List.mem_singleton.mp (name_subset _ _ hc), String.ofList_toList]
  exact List.mem_singleton_self s

/-- Whether nothing but members is read in a text behind a name. -/
def isPath (cs : List Char) : Bool :=
  cs.head? == some '.' && (scan { member := true } cs.tail).isEmpty

/-- What is read behind a symbol with a path of members is the symbol. -/
theorem namesIn_path {symbol : String} (hs : isWord symbol = true) {path : String}
    (hp : isPath path.toList = true) : namesIn (symbol ++ path).toList ⊆ [symbol] := by
  rw [isPath, Bool.and_eq_true, beq_iff_eq, List.isEmpty_iff] at hp
  obtain ⟨dot, quiet⟩ := hp
  cases hc : path.toList with
  | nil => simp [hc] at dot
  | cons c cs =>
    obtain rfl : c = '.' := by simpa [hc] using dot
    have read : scan {} (symbol ++ path).toList =
        ({ word := symbol.toList } : Scanner).name false := by
      rw [String.toList_append, hc, scan_word hs]
      have rest : scan { member := true } cs = [] := by simpa [hc] using quiet
      have step : scan { word := symbol.toList } ('.' :: cs) =
          ({ word := symbol.toList } : Scanner).name false ++ scan { member := true } cs := rfl
      rw [step, rest, List.append_nil]
    intro n hn
    obtain ⟨ds, hd, rfl⟩ := List.mem_map.mp hn
    rw [read] at hd
    rw [List.mem_singleton.mp (name_subset _ _ hd), String.ofList_toList]
    exact List.mem_singleton_self symbol

theorem path_lit {cs : List Char} (h : isPath cs = true) :
    isPath (String.ofList cs).toList = true := by
  rwa [String.toList_ofList]

/-- The one name in a fixed text. -/
theorem namesIn_lit {cs name : List Char} (h : scan {} cs = [name]) :
    namesIn (String.ofList cs).toList ⊆ [String.ofList name] := by
  rw [namesIn, String.toList_ofList, h]
  exact List.Subset.refl _

/-! ## Strings -/

/-- A scanner inside of a string. -/
def quotedAt (outer : List Place) : Scanner :=
  { places := .quoted :: outer }

theorem scan_inQuotes (cs : List Char) :
    scan {} (Value.inQuotes cs) = scan (quotedAt []) (cs ++ ['\'']) := rfl

/-- A dollar sign changes nothing for a character that is no brace. -/
theorem scan_dollar_cons {outer : List Place} {c : Char} (h : c ≠ '\x7b') (cs : List Char) :
    scan { places := .dollar :: outer } (c :: cs) = scan (quotedAt outer) (c :: cs) := by
  have next : ({ places := .dollar :: outer } : Scanner).next c = (quotedAt outer).next c := by
    simp only [Scanner.next, quotedAt, if_neg h]
  have ended : ({ places := .dollar :: outer } : Scanner).ended c = (quotedAt outer).ended c := rfl
  rw [scan, scan, next, ended]

theorem scan_escapeChar {outer : List Place} {c : Char} (h : c ≠ '$') (cs : List Char) :
    scan (quotedAt outer) (Value.escapeChar c ++ cs) = scan (quotedAt outer) cs := by
  have ended (d : Char) : (quotedAt outer).ended d = [] := by
    unfold Scanner.ended
    split_ifs <;> rfl
  have pair (d : Char) : scan (quotedAt outer) ('\\' :: d :: cs) = scan (quotedAt outer) cs := by
    have back : ({ places := .escaped :: outer } : Scanner).ended d = [] := ended d
    show (quotedAt outer).ended '\\' ++ (({ places := .escaped :: outer } : Scanner).ended d ++
      scan (quotedAt outer) cs) = _
    rw [ended, back]
    rfl
  unfold Value.escapeChar
  split_ifs with slash quote
  · exact pair '\\'
  · exact pair '\''
  · exact pair 'n'
  · exact pair 'r'
  · exact pair 't'
  · have next : (quotedAt outer).next c = quotedAt outer := by
      simp only [Scanner.next, quotedAt, inString, if_neg slash, if_neg h, if_neg quote]
    show (quotedAt outer).ended c ++ scan ((quotedAt outer).next c) cs = _
    rw [ended, next]
    rfl

/-- No name is read in a string literal: its dollar signs open no hole. -/
theorem scan_escapeLiteral : ∀ cs : List Char,
    scan (quotedAt []) (Value.escapeLiteral cs ++ ['\'']) = []
  | [] => rfl
  | c :: cs => by
    by_cases opens : c = '$' ∧ ∃ rest, cs = '\x7b' :: rest
    · obtain ⟨rfl, rest, rfl⟩ := opens
      exact scan_escapeLiteral rest
    · have other : ∀ rest, c = '$' → cs = '\x7b' :: rest → False :=
        fun rest hc hr => opens ⟨hc, rest, hr⟩
      have more := scan_escapeLiteral cs
      rw [Value.escapeLiteral_cons_of_ne other, List.append_assoc]
      by_cases dollar : c = '$'
      · subst dollar
        show scan { places := [.dollar] } (Value.escapeLiteral cs ++ ['\'']) = []
        cases text : Value.escapeLiteral cs ++ ['\''] with
        | nil => simp at text
        | cons d ds =>
          rw [scan_dollar_cons, ← text, more]
          rintro rfl
          have begins : cs.head? = some '\x7b' :=
            Value.head?_escapeLiteral
              (by rw [text]; rfl : (Value.escapeLiteral cs ++ ['\'']).head? = _)
          cases cs with
          | nil => cases begins
          | cons e es => exact other es rfl (by rw [Option.some.inj begins])
      · rw [scan_escapeChar dollar, more]

theorem namesIn_literal (s : String) :
    namesIn (Value.inQuotes (Value.escapeLiteral s.toList)) = [] := by
  rw [namesIn, scan_inQuotes, scan_escapeLiteral]
  rfl

/-- A text in which nothing is escaped and no hole is opened. -/
def isBare (s : String) : Bool :=
  s.toList.all fun c => !(['\\', '$', '\''].contains c)

theorem isBare_append {s t : String} (hs : isBare s = true) (ht : isBare t = true) :
    isBare (s ++ t) = true := by
  rw [isBare, String.toList_append, List.all_append, Bool.and_eq_true]
  exact ⟨hs, ht⟩

theorem bare_lit {cs : List Char}
    (h : (cs.all fun c => !(['\\', '$', '\''].contains c)) = true) :
    isBare (String.ofList cs) = true := by
  rwa [isBare, String.toList_ofList]

/-- Such a text holds no name where it stands between quotes as it is. -/
theorem namesIn_inQuotes {s : String} (h : isBare s = true) :
    namesIn (Value.inQuotes s.toList) = [] := by
  have inside : ∀ cs : List Char, (∀ c ∈ cs, c ∉ ['\\', '$', '\'']) →
      scan (quotedAt []) (cs ++ ['\'']) = [] := by
    intro cs plain
    induction cs with
    | nil => rfl
    | cons c cs ih =>
      have here := plain c (by simp)
      simp only [List.mem_cons, not_or] at here
      have next : (quotedAt []).next c = quotedAt [] := by
        simp only [Scanner.next, quotedAt, inString, if_neg here.1, if_neg here.2.1,
          if_neg here.2.2.1]
      have ended : (quotedAt []).ended c = [] := by
        unfold Scanner.ended
        split_ifs <;> rfl
      rw [List.cons_append, scan, next, ended, List.nil_append]
      exact ih fun d hd => plain d (List.mem_cons_of_mem _ hd)
  have read : scan {} (Value.inQuotes s.toList) = [] := by
    refine inside s.toList fun c hc => ?_
    have plain := List.all_eq_true.mp h c hc
    rwa [Bool.not_eq_true', List.contains_eq_mem, decide_eq_false_iff_not] at plain
  rw [namesIn, read]
  rfl

/-! ## Strings with holes -/

/-- Inside of a string with holes: only the given names are read, and every hole is closed. -/
structure Inside (names : List String) (s : String) : Prop where
  found : ∀ n ∈ passed (quotedAt []) (Value.escape s.toList), String.ofList n ∈ names
  closed : behind (quotedAt []) (Value.escape s.toList) = quotedAt []

theorem escape_append (xs ys : List Char) :
    Value.escape (xs ++ ys) = Value.escape xs ++ Value.escape ys :=
  List.flatMap_append

theorem Inside.append {names : List String} {s t : String} (hs : Inside names s)
    (ht : Inside names t) : Inside names (s ++ t) where
  found := by
    rw [String.toList_append, escape_append, passed_append, hs.closed]
    exact List.forall_mem_append.mpr ⟨hs.found, ht.found⟩
  closed := by
    rw [String.toList_append, escape_append, behind_append, hs.closed, ht.closed]

/-- A fixed part without holes. -/
theorem Inside.lit {names : List String} {cs : List Char}
    (h : passed (quotedAt []) (Value.escape cs) = [] ∧
      behind (quotedAt []) (Value.escape cs) = quotedAt []) :
    Inside names (String.ofList cs) where
  found := by
    rw [String.toList_ofList, h.1]
    simp
  closed := by rw [String.toList_ofList, h.2]

theorem escape_word {s : String} (h : isWord s = true) : Value.escape s.toList = s.toList := by
  have all := List.all_eq_true.mp h
  have same : ∀ c ∈ s.toList, Value.escapeChar c = [c] := by
    intro c hc
    have other : ∀ d ∈ ['\\', '\'', '\n', '\r', '\t'], continuesName d = false := by decide
    have ne (d : Char) (hd : continuesName d = false) : c ≠ d := by
      rintro rfl
      rw [all c hc] at hd
      cases hd
    simp [Value.escapeChar, ne _ (other '\\' (by decide)), ne _ (other '\'' (by decide)),
      ne _ (other '\n' (by decide)), ne _ (other '\r' (by decide)), ne _ (other '\t' (by decide))]
  rw [Value.escape, List.flatMap_congr same, List.flatMap_singleton']

/-- Whether a text behind a name in a hole reads nothing but members, up to the end of the hole. -/
def closesHole (path : List Char) : Bool :=
  match path ++ ['\x7d'] with
  | [] => false
  | c :: more =>
    let s : Scanner := { places := inExpression [.hole, .quoted] c, member := c == '.' }
    !continuesName c && decide (Value.escape path = path) && (passed s more).isEmpty &&
      decide (behind s more = quotedAt [])

/-- A hole that holds a name with a path of members behind it. -/
theorem Inside.hole {names : List String} {symbol path : String} (hs : isWord symbol = true)
    (hp : closesHole path.toList = true) (mem : symbol ∈ names) :
    Inside names (hole (symbol ++ path)) := by
  have run := List.all_eq_true.mp hs
  unfold closesHole at hp
  cases text : path.toList ++ ['\x7d'] with
  | nil => simp at text
  | cons c more =>
    simp only [text, Bool.and_eq_true, Bool.not_eq_true', decide_eq_true_eq,
      List.isEmpty_iff] at hp
    obtain ⟨⟨⟨stop, plain⟩, quiet⟩, closed⟩ := hp
    have opening : "$\x7b".toList = ['$', '\x7b'] := by decide
    have closing : "\x7d".toList = ['\x7d'] := by decide
    have whole : Value.escape (Bicep.hole (symbol ++ path)).toList =
        ['$', '\x7b'] ++ (symbol.toList ++ c :: more) := by
      rw [Bicep.hole, String.toList_append, String.toList_append, String.toList_append, opening,
        closing, escape_append, escape_append, escape_append, escape_word hs, plain, ← text]
      simp [Value.escape, Value.escapeChar]
    -- the scanner in the hole, behind the name
    have code : inCode ({ places := [.hole, .quoted] } : Scanner).places = true := rfl
    have next : ({ places := [.hole, .quoted], word := symbol.toList } : Scanner).next c =
        { places := inExpression [.hole, .quoted] c, member := c == '.' } := by
      simp only [Scanner.next, stop]
      rfl
    have front : behind (quotedAt []) ['$', '\x7b'] = { places := [.hole, .quoted] } := by decide
    constructor
    · intro n hn
      have opens : passed (quotedAt []) ['$', '\x7b'] = [] := by decide
      rw [whole, passed_append, front, opens, List.nil_append, passed_append, passed_word run,
        List.nil_append, behind_word code run, passed, List.nil_append, next, quiet,
        List.append_nil, Scanner.ended, stop] at hn
      rw [List.mem_singleton.mp (name_subset _ _ hn), String.ofList_toList]
      exact mem
    · have word := behind_word code run
      rw [whole, behind_append, front, behind_append, word, List.nil_append, behind,
        List.foldl_cons, next]
      exact closed

theorem hole_lit {cs : List Char} (h : closesHole cs = true) :
    closesHole (String.ofList cs).toList = true := by
  rwa [String.toList_ofList]

/-- A hole that holds a name. -/
theorem Inside.holeName {names : List String} {symbol : String} (hs : isWord symbol = true)
    (mem : symbol ∈ names) : Inside names (Bicep.hole symbol) := by
  have plain : Inside names (Bicep.hole (symbol ++ "")) := .hole hs (hole_lit rfl) mem
  rwa [String.append_empty] at plain

/-- How a text with its quotes is read: as a rule for the names in its holes. -/
abbrev Reading : Type := List Char → List String

/-- The names in a text that is written between quotes with its holes open. -/
def quotedNames (s : String) (read : Reading := namesIn) : List String :=
  read (Value.inQuotes (Value.escape s.toList))

theorem Inside.quotedNames_subset {names : List String} {s : String} (h : Inside names s) :
    quotedNames s ⊆ names := by
  have ends : scan (quotedAt []) ['\''] = [] := by decide
  intro n hn
  obtain ⟨cs, hc, rfl⟩ := List.mem_map.mp hn
  rw [scan_inQuotes, scan_append, h.closed, ends, List.append_nil] at hc
  exact h.found cs hc

/-! ## Numbers -/

theorem isNumberChar_of_isDigit {c : Char} (h : c.isDigit = true) : isNumberChar c = true := by
  rw [isNumberChar, h]
  rfl

theorem continuesName_of_isNumberChar {c : Char} (h : isNumberChar c = true) :
    continuesName c = true := by
  rw [isNumberChar, Bool.or_eq_true, beq_iff_eq] at h
  rcases h with digit | rfl
  · simp [continuesName, Char.isAlphanum, digit]
  · decide

/-- A word that is read as a number, or as part of one, where the scanner is. -/
structure ReadsNumber (s : Scanner) (cs : List Char) : Prop where
  code : inCode s.places = true
  fresh : s.word = []
  all : ∀ c ∈ cs, isNumberChar c = true
  first : s.member = true ∨ cs.head?.any Char.isDigit = true

namespace ReadsNumber

variable {s : Scanner} {cs : List Char}

theorem scan_append (h : ReadsNumber s cs) (rest : List Char) :
    scan s (cs ++ rest) = scan { s with word := cs } rest := by
  have run : ∀ c ∈ cs, continuesName c = true :=
    fun c hc => continuesName_of_isNumberChar (h.all c hc)
  rw [References.scan_append, passed_word run, behind_word h.code run, h.fresh]
  rfl

theorem name (h : ReadsNumber s cs) (called : Bool) :
    ({ s with word := cs } : Scanner).name called = [] := by
  rcases h.first with member | digit
  · simp [Scanner.name, member]
  · have number : isNumberWord cs = true := by
      rw [isNumberWord, digit, Bool.true_and]
      exact List.all_eq_true.mpr h.all
    simp [Scanner.name, number]

theorem scan (h : ReadsNumber s cs) : scan s cs = [] := by
  have whole := h.scan_append []
  rw [List.append_nil] at whole
  exact whole.trans (h.name false)

/-- Nothing is left of a number behind a character that ends its word. -/
theorem scan_stop (h : ReadsNumber s cs) {c : Char} (stop : continuesName c = false)
    (more : List Char) :
    References.scan s (cs ++ c :: more) =
      References.scan { places := inExpression s.places c, member := c == '.' } more := by
  have next : ({ s with word := cs } : Scanner).next c =
      { places := inExpression s.places c, member := c == '.' } := by
    have code := h.code
    unfold Scanner.next
    simp only [stop]
    split <;> simp_all [inCode]
  have ended : ({ s with word := cs } : Scanner).ended c = [] := by
    rw [Scanner.ended, stop]
    exact h.name _
  rw [h.scan_append, References.scan, next, ended]
  rfl

/-- Digits are a number at the beginning of an expression, and a member behind a dot. -/
theorem of_digits (member : Bool) {ds : List Char} (h : ∀ d ∈ ds, d.isDigit = true)
    (some : member = true ∨ ds ≠ []) : ReadsNumber { member } ds where
  code := rfl
  fresh := rfl
  all := fun d hd => isNumberChar_of_isDigit (h d hd)
  first := by
    refine some.imp_right fun ne => ?_
    cases ds with
    | nil => exact absurd rfl ne
    | cons d ds => exact h d (by simp)

/-- Digits with the mark of a power behind them. -/
theorem of_digits_mark (member : Bool) {ds : List Char} (h : ∀ d ∈ ds, d.isDigit = true)
    (some : member = true ∨ ds ≠ []) : ReadsNumber { member } (ds ++ ['e']) where
  code := rfl
  fresh := rfl
  all := by
    intro c hc
    rcases List.mem_append.mp hc with hc | hc
    · exact isNumberChar_of_isDigit (h c hc)
    · rw [List.mem_singleton.mp hc]
      rfl
  first := by
    refine some.imp_right fun ne => ?_
    cases ds with
    | nil => exact absurd rfl ne
    | cons d ds => exact h d (by simp)

end ReadsNumber

theorem scan_toDigits (n : Nat) (member : Bool) : scan { member } (Nat.toDigits 10 n) = [] :=
  (ReadsNumber.of_digits member (fun _ hd => Number.isDigit_of_mem_toDigits hd)
    (.inr Nat.toDigits_ne_nil)).scan

theorem scan_positional (d : Decimal) : scan {} d.positional.toList = [] := by
  have digit : ∀ c ∈ Nat.toDigits 10 d.digits, c.isDigit = true :=
    fun _ hc => Number.isDigit_of_mem_toDigits hc
  have zero (n : Nat) : ∀ c ∈ List.replicate n '0', c.isDigit = true := by
    intro c hc
    rw [List.eq_of_mem_replicate hc]
    rfl
  simp only [Decimal.positional, String.toList_ofList]
  by_cases whole : 0 ≤ d.exponent
  · rw [if_pos whole]
    have reads := ReadsNumber.of_digits false
      (List.forall_mem_append.mpr ⟨digit, zero d.exponent.toNat⟩)
      (.inr (by simp [Nat.toDigits_ne_nil]))
    rw [reads.scan_stop (by decide)]
    decide
  rw [if_neg whole]
  by_cases inside : (-d.exponent).toNat < (Nat.toDigits 10 d.digits).length
  · rw [if_pos inside]
    have some : (Nat.toDigits 10 d.digits).take
        ((Nat.toDigits 10 d.digits).length - (-d.exponent).toNat) ≠ [] := by
      rw [Ne, List.take_eq_nil_iff, not_or]
      exact ⟨by omega, Nat.toDigits_ne_nil⟩
    have front := ReadsNumber.of_digits false
      (fun c hc => digit c (List.mem_of_mem_take hc)) (.inr some)
    have back (k : Nat) : ReadsNumber { member := true } ((Nat.toDigits 10 d.digits).drop k) :=
      .of_digits true (fun c hc => digit c (List.mem_of_mem_drop hc)) (.inl rfl)
    rw [front.scan_stop (by decide)]
    exact (back _).scan
  · rw [if_neg inside]
    have back := ReadsNumber.of_digits true
      (List.forall_mem_append.mpr ⟨zero ((-d.exponent).toNat - (Nat.toDigits 10 d.digits).length),
        digit⟩) (.inl rfl)
    have front : ReadsNumber {} ['0'] := .of_digits false (by decide) (.inr (by decide))
    exact (front.scan_stop (by decide) _).trans back.scan

theorem scan_scientific (d : Decimal) : scan {} d.scientific.toList = [] := by
  have digit : ∀ c ∈ Nat.toDigits 10 d.digits, c.isDigit = true :=
    fun _ hc => Number.isDigit_of_mem_toDigits hc
  have power (n : Nat) : (toString n).toList = Nat.toDigits 10 n := by
    rw [Nat.toString_eq_repr, Nat.toList_repr]
  -- the sign of the power ends the word in front of it
  have signed {cs : List Char} {member : Bool} (h : ReadsNumber { member } cs) (n : Nat)
      (negative : Prop) [Decidable negative] :
      scan { member } (cs ++ ((if negative then "-" else "+").toList ++ Nat.toDigits 10 n)) =
        [] := by
    split_ifs
    · exact (h.scan_stop (by decide) _).trans (scan_toDigits n false)
    · exact (h.scan_stop (by decide) _).trans (scan_toDigits n false)
  simp only [Decimal.scientific, String.toList_append, String.toList_ofList, power]
  generalize d.exponent + _ = exponent
  cases hd : Nat.toDigits 10 d.digits with
  | nil => exact absurd hd Nat.toDigits_ne_nil
  | cons c cs =>
    rw [hd] at digit
    have one : ∀ e ∈ [c], e.isDigit = true := fun e he => digit e (by simp_all)
    cases cs with
    | nil =>
      have reads := ReadsNumber.of_digits_mark false one (.inr (by simp))
      simpa using signed reads exponent.natAbs (exponent < 0)
    | cons e es =>
      have more : ∀ x ∈ e :: es, x.isDigit = true :=
        fun x hx => digit x (List.mem_cons_of_mem _ hx)
      have front := ReadsNumber.of_digits false one (.inr (by simp))
      have back := ReadsNumber.of_digits_mark true more (.inl rfl)
      refine Eq.trans ?_ (signed back exponent.natAbs (exponent < 0))
      simpa [inExpression] using front.scan_stop (c := '.') (by decide) _

/-- No name is read in a number. -/
theorem namesIn_number (n : Number) : namesIn n.text.toList = [] := by
  have minus (cs : List Char) : scan {} ('-' :: cs) = scan {} cs := rfl
  have read : scan {} n.text.toList = [] := by
    cases n with
    | int i =>
      rw [Number.text, Number.toList_toString_int]
      split_ifs
      · exact scan_toDigits _ false
      · rw [minus]
        exact scan_toDigits _ false
    | float x =>
      have magnitude {text : String} (h : scan {} text.toList = []) :
          scan {} ((if x.negative then "-" else "") ++ text).toList = [] := by
        rw [String.toList_append]
        split_ifs
        · exact h
        · exact h
      unfold Number.text Number.floatText
      refine magnitude ?_
      split_ifs
      · exact scan_positional _
      · exact scan_scientific _
  rw [namesIn, read]
  rfl

end BicepForge.References
