import BicepForge.Bicep.Value
import BicepForge.Proofs.Bicep.Escaping
import Mathlib.Data.List.TakeWhile

/-!
# The pieces of a value

What is written comes in pieces: code, comments, and what stands between quotes. Between quotes there
are string literals, texts that keep their holes, object keys, and types, scopes and paths that are
written as they are. A piece is open if a hole is opened in it. The text of a value is that of its
pieces, and the open ones are found by going through the value, whatever the layout is. A string
literal is never open.
-/

namespace BicepForge.Bicep

open Literal

/-! ## Pieces -/

/-- A piece of a document. -/
inductive Piece where
  /-- Names, expressions, numbers and signs. -/
  | code (cs : List Char)
  /-- A comment; a text of several lines goes on behind it. -/
  | comment (text : String)
  /-- A string that never interpolates. -/
  | literal (text : String)
  /-- A string whose holes interpolate. -/
  | template (text : String)
  /-- An object key between quotes. -/
  | key (text : String)
  /-- A type, scope or path, which is written between quotes as it is. -/
  | reference (text : String)
deriving DecidableEq

namespace Piece

def inside? : Piece → Option (List Char)
  | code _ | comment _ => none
  | literal text => some (Value.escapeLiteral text.toList)
  | template text | key text => some (Value.escape text.toList)
  | reference text => some text.toList

/-- The text of a piece. -/
def chars : Piece → List Char
  | code cs => cs
  | comment text => '/' :: '/' :: ' ' :: text.toList
  | literal text => Value.inQuotes (Value.escapeLiteral text.toList)
  | template text | key text => Value.inQuotes (Value.escape text.toList)
  | reference text => Value.inQuotes text.toList

@[simp] theorem chars_code (cs : List Char) : (code cs).chars = cs := rfl

@[simp] theorem chars_comment (text : String) :
    (comment text).chars = '/' :: '/' :: ' ' :: text.toList := rfl

/-- Whether a hole is opened in a piece. In a comment that takes a line feed: it ends there. -/
def isOpen : Piece → Bool
  | code cs => standsOpen holeOpening false cs
  | comment text => standsOpen holeOpening false (text.toList.dropWhile (· != '\n'))
  | p => p.inside?.any (standsOpen holeOpening false)

theorem isOpen_literal (text : String) : (literal text).isOpen = false :=
  standsOpen_escapeLiteral (.inr rfl) _

theorem isOpen_template (text : String) : (template text).isOpen = Value.opensHole text :=
  standsOpen_escape _

theorem isOpen_key (text : String) : (key text).isOpen = Value.opensHole text :=
  standsOpen_escape _

/-- A text without dollar signs opens no hole. -/
theorem standsOpen_of_notMem {cs : List Char} (h : '$' ∉ cs) (escaped : Bool) :
    standsOpen holeOpening escaped cs = false := by
  induction cs generalizing escaped with
  | nil => rfl
  | cons c cs ih =>
    obtain ⟨other, foreign⟩ := not_or.mp (List.mem_cons.not.mp h)
    have here : holeOpening.isPrefixOf (c :: cs) = false := by
      rw [holeOpening, List.isPrefixOf_cons_cons, beq_eq_false_iff_ne.mpr other, Bool.false_and]
    rw [standsOpen, here, Bool.and_false, Bool.false_or, ih foreign]

/-- A fixed text without dollar signs. -/
theorem dollar_lit {cs : List Char} (h : (!cs.contains '$') = true) :
    '$' ∉ (String.ofList cs).toList := by
  rw [String.toList_ofList]
  simpa using h

theorem dollar_append {s t : String} (hs : '$' ∉ s.toList) (ht : '$' ∉ t.toList) :
    '$' ∉ (s ++ t).toList := by
  rw [String.toList_append]
  exact fun mem => (List.mem_append.mp mem).elim hs ht

theorem dollar_of_append {s t : String} (h : '$' ∉ (s ++ t).toList) : '$' ∉ t.toList := by
  intro mem
  apply h
  rw [String.toList_append]
  exact List.mem_append_right _ mem

theorem isOpen_code {cs : List Char} (h : '$' ∉ cs) : (code cs).isOpen = false :=
  standsOpen_of_notMem h false

def opening (p : Piece) : List Piece :=
  if p.isOpen then [p] else []

theorem filter_singleton (p : Piece) : [p].filter isOpen = p.opening := by
  unfold opening
  cases h : p.isOpen with
  | false => exact List.filter_cons_of_neg (by rw [h]; exact Bool.false_ne_true)
  | true => exact List.filter_cons_of_pos h

theorem opening_of_closed {p : Piece} (h : p.isOpen = false) : p.opening = [] := by
  rw [opening, h]
  rfl

theorem opening_code {cs : List Char} (h : '$' ∉ cs) : (code cs).opening = [] :=
  opening_of_closed (isOpen_code h)

theorem opening_comment {text : String} (h : '\n' ∉ text.toList) : (comment text).opening = [] := by
  have line : text.toList.dropWhile (· != '\n') = [] := by
    rw [List.dropWhile_eq_nil_iff]
    intro c hc
    rw [bne_iff_ne]
    rintro rfl
    exact h hc
  apply opening_of_closed
  rw [isOpen, line]
  rfl

/-- The piece of a key: code where it is written bare. -/
def ofKey (k : String) : Piece :=
  if Value.isIdentifier k then code k.toList else key k

@[simp] theorem chars_ofKey (k : String) : (ofKey k).chars = Value.keyChars k := by
  unfold ofKey Value.keyChars
  split <;> rfl

theorem dollar_notMem_of_isIdentifier {k : String} (h : Value.isIdentifier k = true) :
    '$' ∉ k.toList := by
  obtain ⟨c, cs, whole, -, run⟩ := Value.exists_cons_of_isIdentifier h
  intro mem
  rw [whole] at mem
  exact absurd (run _ mem) (by decide)

theorem hasInfix_of_notMem {cs : List Char} (h : '$' ∉ cs) :
    Text.hasInfix holeOpening cs = false := by
  rw [Bool.eq_false_iff, Ne, Text.hasInfix_iff]
  exact fun inside => h (inside.subset (by decide))

theorem opening_key {k : String} (h : '$' ∉ k.toList) : (key k).opening = [] := by
  refine opening_of_closed ?_
  rw [isOpen_key]
  exact hasInfix_of_notMem h

theorem opening_ofKey (k : String) : (ofKey k).opening = (key k).opening := by
  unfold ofKey
  split
  · rename_i bare
    have foreign := dollar_notMem_of_isIdentifier bare
    rw [opening_code foreign, opening_key foreign]
  · rfl

theorem mem_opening {p q : Piece} : q ∈ p.opening ↔ q = p ∧ q.isOpen = true := by
  rw [← filter_singleton, List.mem_filter, List.mem_singleton]

end Piece

/-! ### Where open pieces come from -/

/-- Open pieces are those foreign ones in which a hole is opened, and templates of one's own. -/
structure Origins (opened foreign : List Piece) (own : List String) : Prop where
  mem_iff : ∀ p, p ∈ opened ↔ (p ∈ foreign ∧ p.isOpen = true) ∨ p ∈ own.map .template
  apart : ∀ p ∈ foreign, ∀ text, p ≠ .template text

namespace Origins

theorem nil : Origins [] [] [] where
  mem_iff p := by simp
  apart p hp := by cases hp

theorem foreign {p : Piece} (h : ∀ text, p ≠ .template text) : Origins p.opening [p] [] where
  mem_iff q := by simp [Piece.mem_opening]
  apart q hq := by
    rw [List.mem_singleton.mp hq]
    exact h

theorem templates (texts : List String) : Origins (texts.map .template) [] texts where
  mem_iff p := by simp
  apart p hp := by cases hp

theorem append {opened foreign more others : List Piece} {own texts : List String}
    (h : Origins opened foreign own) (hm : Origins more others texts) :
    Origins (opened ++ more) (foreign ++ others) (own ++ texts) where
  mem_iff p := by
    rw [List.mem_append, h.mem_iff, hm.mem_iff, List.map_append, List.mem_append, List.mem_append]
    constructor
    · rintro ((⟨mem, opens⟩ | mem) | (⟨mem, opens⟩ | mem))
      · exact .inl ⟨.inl mem, opens⟩
      · exact .inr (.inl mem)
      · exact .inl ⟨.inr mem, opens⟩
      · exact .inr (.inr mem)
    · rintro (⟨mem | mem, opens⟩ | (mem | mem))
      · exact .inl (.inl ⟨mem, opens⟩)
      · exact .inr (.inl ⟨mem, opens⟩)
      · exact .inl (.inr mem)
      · exact .inr (.inr mem)
  apart := List.forall_mem_append.mpr ⟨h.apart, hm.apart⟩

theorem flatMap {α : Type} {opened foreign : α → List Piece} {own : α → List String}
    (items : List α) (h : ∀ x, Origins (opened x) (foreign x) (own x)) :
    Origins (items.flatMap opened) (items.flatMap foreign) (items.flatMap own) := by
  induction items with
  | nil => exact nil
  | cons x items ih => exact (h x).append ih

theorem each {α : Type} {opened foreign : α → List Piece} (items : List α)
    (h : ∀ x, Origins (opened x) (foreign x) []) :
    Origins (items.flatMap opened) (items.flatMap foreign) [] := by
  have none : (items.flatMap fun _ => ([] : List String)) = [] :=
    List.flatMap_eq_nil_iff.mpr fun _ _ => rfl
  rw [← none]
  exact flatMap items h

/-- Foreign pieces, one for each item. -/
theorem map {α : Type} (items : List α) {piece : α → Piece}
    (h : ∀ x text, piece x ≠ .template text) :
    Origins (items.flatMap fun x => (piece x).opening) (items.map piece) [] := by
  rw [List.map_eq_flatMap]
  exact each items fun x => foreign (h x)

theorem ite {opened foreign : List Piece} {own : List String} (condition : Bool)
    (h : Origins opened foreign own) :
    Origins (if condition then opened else []) (if condition then foreign else [])
      (if condition then own else []) := by
  cases condition with
  | false => exact nil
  | true => exact h

end Origins

/-! ## Values -/

namespace Value

mutual
def pieces (depth : Nat) : Value → List Piece
  | str s => [.literal s]
  | interp s => [.template s]
  | expr e => [.code e.toList]
  | bool b => [.code (chars depth (bool b))]
  | int i => [.code (chars depth (int i))]
  | null => [.code (chars depth null)]
  | array items =>
    if items.all isScalar then .code ['['] :: rowPieces depth items ++ [.code [']']]
    else .code ['[', '\n'] :: linePieces (depth + 1) items ++ [.code (indent depth ++ [']'])]
  | object [] => [.code ['\x7b', '\x7d']]
  | object (e :: es) =>
    .code ['\x7b', '\n'] :: bodyPieces (depth + 1) (e :: es) ++ [.code (indent depth ++ ['\x7d'])]
  | call function arguments =>
    [.code function.toList, .code ['(']] ++ rowPieces depth arguments ++ [.code [')']]
  | forEach binding source body =>
    [.code "[for ".toList, .code binding.toList, .code " in ".toList, .code source.toList,
      .code [':', ' ']] ++ pieces depth body ++ [.code [']']]
  | conditional condition yes no =>
    [.code condition.toList, .code " ? ".toList] ++ pieces depth yes ++
      .code " : ".toList :: pieces depth no
def rowPieces (depth : Nat) : List Value → List Piece
  | [] => []
  | v :: vs => pieces depth v ++ restPieces depth vs
/-- The pieces of several values that go on with a row. -/
def restPieces (depth : Nat) : List Value → List Piece
  | [] => []
  | v :: vs => .code [',', ' '] :: pieces depth v ++ restPieces depth vs
def linePieces (depth : Nat) : List Value → List Piece
  | [] => []
  | v :: vs =>
    .code (indent depth) :: pieces depth v ++ .code ['\n'] :: linePieces depth vs
def bodyPieces (depth : Nat) : Body → List Piece
  | [] => []
  | e :: es =>
    .code (indent depth) :: entryPieces depth e ++ .code ['\n'] :: bodyPieces depth es
def entryPieces (depth : Nat) : Entry → List Piece
  | .property key value => [.ofKey key, .code [':', ' ']] ++ pieces depth value
  | .comment text => [.comment text]
end

mutual
def openings : Value → List Piece
  | str _ => []
  | interp s => (Piece.template s).opening
  | expr e => (Piece.code e.toList).opening
  | bool _ | int _ | null => []
  | array items => openingsOfItems items
  | object body => openingsOfBody body
  | call function arguments => (Piece.code function.toList).opening ++ openingsOfItems arguments
  | forEach binding source body =>
    (Piece.code binding.toList).opening ++ (Piece.code source.toList).opening ++ openings body
  | conditional condition yes no =>
    (Piece.code condition.toList).opening ++ openings yes ++ openings no
def openingsOfItems : List Value → List Piece
  | [] => []
  | v :: vs => openings v ++ openingsOfItems vs
def openingsOfBody : Body → List Piece
  | [] => []
  | e :: es => openingsOfEntry e ++ openingsOfBody es
def openingsOfEntry : Entry → List Piece
  | .property key value => (Piece.key key).opening ++ openings value
  | .comment text => (Piece.comment text).opening
end

/-! ### The text of the pieces -/

/-- A row is its first item, and the others with a separator ahead of each. -/
theorem intercalate_cons (sep first : List Char) (others : List (List Char)) :
    sep.intercalate (first :: others) = first ++ others.flatMap (sep ++ ·) := by
  induction others generalizing first with
  | nil => simp
  | cons next others ih =>
    rw [List.intercalate_cons_cons, ih, List.flatMap_cons, List.append_assoc, List.append_assoc]

mutual
theorem chars_pieces (depth : Nat) : ∀ v : Value,
    (pieces depth v).flatMap Piece.chars = chars depth v
  | str _ | interp _ | expr _ | bool _ | int _ | null => by
    rw [pieces, List.flatMap_singleton]
    rfl
  | array items => by
    rw [pieces, chars_array]
    split
    · simp [chars_rowPieces depth items]
    · simp [chars_linePieces (depth + 1) items]
  | object [] => rfl
  | object (e :: es) => by
    rw [pieces, chars_object_cons]
    simp [chars_bodyPieces (depth + 1) (e :: es)]
  | call function arguments => by
    rw [pieces, chars_call]
    simp [chars_rowPieces depth arguments]
  | forEach binding source body => by
    rw [pieces, chars_forEach]
    simp [chars_pieces depth body]
  | conditional condition yes no => by
    rw [pieces, chars_conditional]
    simp [chars_pieces depth yes, chars_pieces depth no]
theorem chars_rowPieces (depth : Nat) : ∀ vs : List Value,
    (rowPieces depth vs).flatMap Piece.chars = [',', ' '].intercalate (itemChars depth vs)
  | [] => rfl
  | v :: vs => by
    rw [rowPieces, List.flatMap_append, chars_pieces depth v, chars_restPieces depth vs,
      itemChars_cons, intercalate_cons]
theorem chars_restPieces (depth : Nat) : ∀ vs : List Value,
    (restPieces depth vs).flatMap Piece.chars = (itemChars depth vs).flatMap ([',', ' '] ++ ·)
  | [] => rfl
  | v :: vs => by
    rw [restPieces, List.flatMap_append, List.flatMap_cons, chars_pieces depth v,
      chars_restPieces depth vs, itemChars_cons, List.flatMap_cons]
    rfl
theorem chars_linePieces (depth : Nat) : ∀ vs : List Value,
    (linePieces depth vs).flatMap Piece.chars = itemLines depth vs
  | [] => rfl
  | v :: vs => by
    rw [linePieces, itemLines_cons]
    simp [chars_pieces depth v, chars_linePieces depth vs]
theorem chars_bodyPieces (depth : Nat) : ∀ es : Body,
    (bodyPieces depth es).flatMap Piece.chars = entryLines depth es
  | [] => rfl
  | e :: es => by
    rw [bodyPieces, entryLines_cons]
    simp [chars_entryPieces depth e, chars_bodyPieces depth es]
theorem chars_entryPieces (depth : Nat) : ∀ e : Entry,
    (entryPieces depth e).flatMap Piece.chars = entryChars depth e
  | .property key value => by
    rw [entryPieces, entryChars_property]
    simp [chars_pieces depth value]
  | .comment text => by
    rw [entryPieces, entryChars_comment]
    simp
end

/-! ### The open pieces -/

/-- The open ones of several pieces, the first one apart. -/
theorem filter_cons (p : Piece) (ps : List Piece) :
    (p :: ps).filter Piece.isOpen = p.opening ++ ps.filter Piece.isOpen := by
  rw [← List.singleton_append, List.filter_append, Piece.filter_singleton]

theorem filter_code {cs : List Char} (h : '$' ∉ cs) (ps : List Piece) :
    (Piece.code cs :: ps).filter Piece.isOpen = ps.filter Piece.isOpen := by
  rw [filter_cons, Piece.opening_code h, List.nil_append]

theorem dollar_notMem_indent (depth : Nat) : '$' ∉ indent depth := by
  intro mem
  exact absurd (List.eq_of_mem_replicate mem) (by decide)

/-- No dollar sign is written for a number. -/
theorem dollar_notMem_text (n : Number) : '$' ∉ n.text.toList := by
  intro mem
  exact absurd (List.all_eq_true.mp (Number.toList_text n).1 _ mem) (by decide)

mutual
theorem filter_pieces (depth : Nat) : ∀ v : Value,
    (pieces depth v).filter Piece.isOpen = openings v
  | str s => by
    rw [pieces, Piece.filter_singleton, Piece.opening_of_closed (Piece.isOpen_literal s), openings]
  | interp s => Piece.filter_singleton _
  | expr e => Piece.filter_singleton _
  | bool true => rfl
  | bool false => rfl
  | int i => filter_code (dollar_notMem_text (.int i)) []
  | null => rfl
  | array items => by
    rw [pieces, openings]
    have closing : '$' ∉ indent depth ++ [']'] :=
      fun mem => (List.mem_append.mp mem).elim (dollar_notMem_indent depth) (by decide)
    split
    · rw [List.cons_append, filter_code (by decide), List.filter_append, filter_rowPieces,
        filter_code (by decide), List.filter_nil, List.append_nil]
    · rw [List.cons_append, filter_code (by decide), List.filter_append, filter_linePieces,
        filter_code closing, List.filter_nil, List.append_nil]
  | object [] => rfl
  | object (e :: es) => by
    have closing : '$' ∉ indent depth ++ ['\x7d'] :=
      fun mem => (List.mem_append.mp mem).elim (dollar_notMem_indent depth) (by decide)
    rw [pieces, openings, List.cons_append, filter_code (by decide), List.filter_append,
      filter_bodyPieces, filter_code closing, List.filter_nil, List.append_nil]
  | call function arguments => by
    rw [pieces, openings, List.filter_append, List.filter_append, filter_cons,
      filter_code (by decide), filter_rowPieces, filter_code (by decide), List.filter_nil,
      List.append_nil, List.append_nil]
  | forEach binding source body => by
    rw [pieces, openings, List.filter_append, List.filter_append, filter_code (by decide),
      filter_cons, filter_code (by decide), filter_cons, filter_code (by decide), filter_pieces,
      filter_code (by decide), List.filter_nil, List.append_nil, List.append_nil]
  | conditional condition yes no => by
    rw [pieces, openings, List.filter_append, List.filter_append, filter_cons,
      filter_code (by decide), filter_pieces, filter_code (by decide), filter_pieces,
      List.filter_nil, List.append_nil]
theorem filter_rowPieces (depth : Nat) : ∀ vs : List Value,
    (rowPieces depth vs).filter Piece.isOpen = openingsOfItems vs
  | [] => rfl
  | v :: vs => by
    rw [rowPieces, openingsOfItems, List.filter_append, filter_pieces, filter_restPieces]
theorem filter_restPieces (depth : Nat) : ∀ vs : List Value,
    (restPieces depth vs).filter Piece.isOpen = openingsOfItems vs
  | [] => rfl
  | v :: vs => by
    rw [restPieces, openingsOfItems, List.cons_append, filter_code (by decide),
      List.filter_append, filter_pieces, filter_restPieces]
theorem filter_linePieces (depth : Nat) : ∀ vs : List Value,
    (linePieces depth vs).filter Piece.isOpen = openingsOfItems vs
  | [] => rfl
  | v :: vs => by
    rw [linePieces, openingsOfItems, List.cons_append, filter_code (dollar_notMem_indent depth),
      List.filter_append, filter_pieces, filter_code (by decide), filter_linePieces]
theorem filter_bodyPieces (depth : Nat) : ∀ es : Body,
    (bodyPieces depth es).filter Piece.isOpen = openingsOfBody es
  | [] => rfl
  | e :: es => by
    rw [bodyPieces, openingsOfBody, List.cons_append, filter_code (dollar_notMem_indent depth),
      List.filter_append, filter_entryPieces, filter_code (by decide), filter_bodyPieces]
theorem filter_entryPieces (depth : Nat) : ∀ e : Entry,
    (entryPieces depth e).filter Piece.isOpen = openingsOfEntry e
  | .property key value => by
    rw [entryPieces, openingsOfEntry, List.filter_append, filter_cons, Piece.opening_ofKey,
      filter_code (by decide), filter_pieces, List.filter_nil, List.append_nil]
  | .comment _ => Piece.filter_singleton _
end

end Value

end BicepForge.Bicep
