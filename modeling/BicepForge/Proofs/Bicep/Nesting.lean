import BicepForge.Proofs.Bicep.Lines

/-!
# Values at a depth

The text of a value at a depth is its text on its own, with the blanks of that depth behind every
line feed. Forms that break lines write what stands in them one level further in and close at their
own depth, all other forms hand their depth on; both add up at every nesting, so that a value reads
the same wherever it stands. Literals and keys are on one line anyway, but raw texts are written as
they are: each of them must be on one line.
-/

namespace BicepForge.Bicep.Value

open Check

/-- A text with the blanks of a depth behind every line feed. -/
def setIn (depth : Nat) (cs : List Char) : List Char :=
  cs.flatMap fun c => if c = '\n' then '\n' :: indent depth else [c]

section SetIn

variable (depth : Nat)

@[simp] theorem setIn_nil : setIn depth [] = [] := rfl

theorem setIn_append (xs ys : List Char) :
    setIn depth (xs ++ ys) = setIn depth xs ++ setIn depth ys :=
  List.flatMap_append

theorem setIn_feed (cs : List Char) :
    setIn depth ('\n' :: cs) = '\n' :: indent depth ++ setIn depth cs :=
  rfl

/-- Within a line there is nothing to set in. -/
theorem setIn_of_notMem {cs : List Char} (own : '\n' ∉ cs) : setIn depth cs = cs := by
  induction cs with
  | nil => rfl
  | cons c cs ih =>
    obtain ⟨other, rest⟩ := not_or.mp (List.mem_cons.not.mp own)
    rw [setIn, List.flatMap_cons, if_neg (Ne.symm other), ← setIn, ih rest, List.singleton_append]

theorem notMem_indent : '\n' ∉ indent depth := by
  simp [indent, List.mem_replicate]

theorem indent_add (more : Nat) : indent (depth + more) = indent depth ++ indent more := by
  rw [indent, indent, indent, List.replicate_append_replicate, Nat.mul_add]

end SetIn

/-! ## What a form makes of its parts -/

section Parts

variable {depth more : Nat}

/-- Whole lines are set in if the blanks of the first one are put in front of them; those behind the
last line feed belong to the text that follows. -/
def LinesSetIn (more : Nat) (lines further : List Char) : Prop :=
  further ++ indent more = indent more ++ setIn more lines

theorem LinesSetIn.nil : LinesSetIn more [] [] := by
  rw [LinesSetIn, setIn_nil, List.append_nil, List.nil_append]

/-- A line and those behind it. -/
theorem LinesSetIn.cons {line further lines lines' : List Char} (h : further = setIn more line)
    (rest : LinesSetIn more lines lines') :
    LinesSetIn more (indent depth ++ line ++ '\n' :: lines)
      (indent (depth + more) ++ further ++ '\n' :: lines') := by
  have behind : lines' ++ indent more = indent more ++ setIn more lines := rest
  rw [LinesSetIn, setIn_append, setIn_append, setIn_feed, setIn_of_notMem more (notMem_indent depth),
    ← h, Nat.add_comm depth, indent_add]
  simp only [List.append_assoc, List.cons_append, behind]

/-- Lines between signs, of which the closing one stands at the depth of the form. -/
theorem LinesSetIn.enclosed {lines lines' : List Char} (h : LinesSetIn more lines lines')
    {opening closing : Char} (start : opening ≠ '\n') (stop : closing ≠ '\n') :
    opening :: '\n' :: lines' ++ indent (depth + more) ++ [closing] =
      setIn more (opening :: '\n' :: lines ++ indent depth ++ [closing]) := by
  have behind : lines' ++ indent more = indent more ++ setIn more lines := h
  have first : setIn more [opening] = [opening] :=
    setIn_of_notMem more (by simpa using Ne.symm start)
  have last : setIn more [closing] = [closing] :=
    setIn_of_notMem more (by simpa using Ne.symm stop)
  have text : opening :: '\n' :: lines ++ indent depth ++ [closing] =
      [opening] ++ '\n' :: (lines ++ indent depth ++ [closing]) := rfl
  rw [text, setIn_append, first, setIn_feed, setIn_append, setIn_append, last,
    setIn_of_notMem more (notMem_indent depth), Nat.add_comm depth, indent_add]
  simp only [← List.append_assoc, List.cons_append, ← behind, List.nil_append]

/-- A text within one line is the same at every depth. -/
theorem eq_setIn_of_isLine {s : String} (h : isLine s = true) : s.toList = setIn more s.toList :=
  (setIn_of_notMem more (notMem_of_isLine h)).symm

theorem append_eq_setIn {xs xs' ys ys' : List Char} (hx : xs' = setIn more xs)
    (hy : ys' = setIn more ys) : xs' ++ ys' = setIn more (xs ++ ys) := by
  rw [setIn_append, hx, hy]

end Parts

/-! ## Values -/

section Values

mutual
/-- A value that stands further in has its lines set in. -/
theorem chars_add (depth more : Nat) : ∀ v : Value, isFlat v = true →
    (∀ text ∈ comments v, isLine text = true) →
    chars (depth + more) v = setIn more (chars depth v)
  | .str s, _, _ =>
    (setIn_of_notMem more (notMem_inQuotes (Literal.notMem_escapeLiteral (by decide) _))).symm
  | .interp s, _, _ =>
    (setIn_of_notMem more (notMem_inQuotes (Literal.notMem_escape (by decide) _))).symm
  | .expr e, flat, _ => eq_setIn_of_isLine flat
  | .bool true, _, _ => eq_setIn_of_isLine (s := "true") (by decide)
  | .bool false, _, _ => eq_setIn_of_isLine (s := "false") (by decide)
  | .int i, _, _ => eq_setIn_of_isLine (isLine_text (.int i))
  | .null, _, _ => eq_setIn_of_isLine (s := "null") (by decide)
  | .array items, flat, own => by
    rw [isFlat] at flat
    rw [comments] at own
    have opening : ['['] = setIn more ['['] := rfl
    have closing : [']'] = setIn more [']'] := rfl
    rw [chars_array, chars_array]
    split_ifs with scalars
    · exact append_eq_setIn (append_eq_setIn opening (itemChars_add depth more items flat own)) closing
    · rw [Nat.add_right_comm]
      exact (itemLines_add (depth + 1) more items flat own).enclosed (by decide) (by decide)
  | .object [], _, _ => rfl
  | .object (e :: es), flat, own => by
    rw [isFlat] at flat
    rw [comments] at own
    rw [chars_object_cons, chars_object_cons, Nat.add_right_comm]
    exact (entryLines_add (depth + 1) more (e :: es) flat own).enclosed (by decide) (by decide)
  | .call function arguments, flat, own => by
    rw [isFlat, Bool.and_eq_true] at flat
    rw [comments] at own
    have opening : ['('] = setIn more ['('] := rfl
    have closing : [')'] = setIn more [')'] := rfl
    rw [chars_call, chars_call]
    have row := append_eq_setIn opening (itemChars_add depth more arguments flat.2 own)
    exact append_eq_setIn (append_eq_setIn (eq_setIn_of_isLine flat.1) row) closing
  | .forEach binding source body, flat, own => by
    rw [isFlat, Bool.and_eq_true, Bool.and_eq_true] at flat
    rw [comments] at own
    obtain ⟨⟨hb, hs⟩, flat⟩ := flat
    have opening : "[for ".toList = setIn more "[for ".toList := eq_setIn_of_isLine (by decide)
    have among : " in ".toList = setIn more " in ".toList := eq_setIn_of_isLine (by decide)
    have colon : [':', ' '] = setIn more [':', ' '] := rfl
    have closing : [']'] = setIn more [']'] := rfl
    have head := append_eq_setIn (append_eq_setIn (append_eq_setIn opening (eq_setIn_of_isLine hb))
      among) (eq_setIn_of_isLine hs)
    rw [chars_forEach, chars_forEach]
    exact append_eq_setIn (append_eq_setIn (append_eq_setIn head colon)
      (chars_add depth more body flat own)) closing
  | .conditional condition yes no, flat, own => by
    rw [isFlat, Bool.and_eq_true, Bool.and_eq_true] at flat
    rw [comments, List.forall_mem_append] at own
    obtain ⟨⟨hc, hy⟩, hn⟩ := flat
    have question : " ? ".toList = setIn more " ? ".toList := eq_setIn_of_isLine (by decide)
    have colon : " : ".toList = setIn more " : ".toList := eq_setIn_of_isLine (by decide)
    have front := append_eq_setIn (append_eq_setIn (eq_setIn_of_isLine hc) question)
      (chars_add depth more yes hy own.1)
    rw [chars_conditional, chars_conditional]
    exact append_eq_setIn (append_eq_setIn front colon) (chars_add depth more no hn own.2)
theorem itemChars_add (depth more : Nat) : ∀ vs : List Value, areFlat vs = true →
    (∀ text ∈ commentsOfItems vs, isLine text = true) →
    [',', ' '].intercalate (itemChars (depth + more) vs) =
      setIn more ([',', ' '].intercalate (itemChars depth vs))
  | [], _, _ => rfl
  | [v], flat, own => by
    rw [areFlat, Bool.and_eq_true] at flat
    rw [commentsOfItems, List.forall_mem_append] at own
    simpa [List.intercalate] using chars_add depth more v flat.1 own.1
  | v :: w :: vs, flat, own => by
    rw [areFlat, Bool.and_eq_true] at flat
    rw [commentsOfItems, List.forall_mem_append] at own
    have comma : [',', ' '] = setIn more [',', ' '] := rfl
    have first := append_eq_setIn (chars_add depth more v flat.1 own.1) comma
    have others := itemChars_add depth more (w :: vs) flat.2 own.2
    rw [itemChars_cons, itemChars_cons] at others ⊢
    rw [itemChars_cons, itemChars_cons, Text.intercalate_cons_cons, Text.intercalate_cons_cons]
    exact append_eq_setIn first others
theorem itemLines_add (depth more : Nat) : ∀ vs : List Value, areFlat vs = true →
    (∀ text ∈ commentsOfItems vs, isLine text = true) →
    LinesSetIn more (itemLines depth vs) (itemLines (depth + more) vs)
  | [], _, _ => .nil
  | v :: vs, flat, own => by
    rw [areFlat, Bool.and_eq_true] at flat
    rw [commentsOfItems, List.forall_mem_append] at own
    exact .cons (chars_add depth more v flat.1 own.1) (itemLines_add depth more vs flat.2 own.2)
theorem entryLines_add (depth more : Nat) : ∀ es : Body, isFlatBody es = true →
    (∀ text ∈ commentsOfBody es, isLine text = true) →
    LinesSetIn more (entryLines depth es) (entryLines (depth + more) es)
  | [], _, _ => .nil
  | e :: es, flat, own => by
    rw [isFlatBody, Bool.and_eq_true] at flat
    rw [commentsOfBody, List.forall_mem_append] at own
    exact .cons (entryChars_add depth more e flat.1 own.1) (entryLines_add depth more es flat.2 own.2)
theorem entryChars_add (depth more : Nat) : ∀ e : Entry, isFlatEntry e = true →
    (∀ text ∈ commentsOfEntry e, isLine text = true) →
    entryChars (depth + more) e = setIn more (entryChars depth e)
  | .property key v, flat, own => by
    have front : keyChars key ++ [':', ' '] = setIn more (keyChars key ++ [':', ' ']) :=
      (setIn_of_notMem more (by simpa using notMem_keyChars key)).symm
    exact append_eq_setIn front (chars_add depth more v flat own)
  | .comment text, _, own => by
    have slashes : ['/', '/', ' '] = setIn more ['/', '/', ' '] := rfl
    exact append_eq_setIn slashes (eq_setIn_of_isLine (own text List.mem_cons_self))
end

end Values

/-! ## Values in values -/

/-- Where a value stands in another one: so many levels further in. -/
inductive Nested (x : Value) : Nat → Value → Prop
  | here : Nested x 0 x
  /-- Scalars stand on the line of their array. -/
  | scalar {level : Nat} {items : List Value} {v : Value} (row : items.all isScalar = true)
    (mem : v ∈ items) (inner : Nested x level v) : Nested x level (.array items)
  | item {level : Nat} {items : List Value} {v : Value} (lines : ¬ items.all isScalar = true)
    (mem : v ∈ items) (inner : Nested x level v) : Nested x (level + 1) (.array items)
  | property {level : Nat} {body : Body} {key : String} {v : Value} (mem : .property key v ∈ body)
    (inner : Nested x level v) : Nested x (level + 1) (.object body)
  | argument {level : Nat} {function : String} {arguments : List Value} {v : Value}
    (mem : v ∈ arguments) (inner : Nested x level v) : Nested x level (.call function arguments)
  | forEach {level : Nat} {binding source : String} {body : Value} (inner : Nested x level body) :
    Nested x level (.forEach binding source body)
  | yes {level : Nat} {condition : String} {yes no : Value} (inner : Nested x level yes) :
    Nested x level (.conditional condition yes no)
  | no {level : Nat} {condition : String} {yes no : Value} (inner : Nested x level no) :
    Nested x level (.conditional condition yes no)

/-- The raw texts of a value, comments among them, are on one line each. -/
structure HasRawLines (v : Value) : Prop where
  expressions : isFlat v = true
  comments : ∀ text ∈ comments v, isLine text = true

section Inside

variable {v x : Value} {depth level : Nat}

theorem infix_intercalate {vs : List Value} (mem : v ∈ vs) :
    chars depth v <:+: [',', ' '].intercalate (itemChars depth vs) := by
  induction vs with
  | nil => cases mem
  | cons w vs ih =>
    cases vs with
    | nil =>
      obtain rfl := List.mem_singleton.mp mem
      simp [List.intercalate]
    | cons w' vs =>
      rw [itemChars_cons, itemChars_cons, Text.intercalate_cons_cons, ← itemChars_cons]
      rcases List.mem_cons.mp mem with rfl | mem
      · rw [List.append_assoc]
        exact (List.prefix_append _ _).isInfix
      · exact (ih mem).trans (List.suffix_append _ _).isInfix

theorem infix_itemLines {vs : List Value} (mem : v ∈ vs) :
    chars depth v <:+: itemLines depth vs := by
  induction vs with
  | nil => cases mem
  | cons w vs ih =>
    rw [itemLines_cons]
    rcases List.mem_cons.mp mem with rfl | mem
    · exact List.infix_append _ _ _
    · exact (ih mem).trans ((List.suffix_cons _ _).trans (List.suffix_append _ _)).isInfix

theorem infix_entryLines {es : Body} {key : String} (mem : .property key v ∈ es) :
    chars depth v <:+: entryLines depth es := by
  induction es with
  | nil => cases mem
  | cons e es ih =>
    rw [entryLines_cons]
    rcases List.mem_cons.mp mem with rfl | mem
    · rw [entryChars_property, ← List.append_assoc]
      exact List.infix_append _ _ _
    · exact (ih mem).trans ((List.suffix_cons _ _).trans (List.suffix_append _ _)).isInfix

theorem isFlat_of_mem {vs : List Value} (flat : areFlat vs = true) (mem : v ∈ vs) :
    isFlat v = true := by
  induction vs with
  | nil => cases mem
  | cons w vs ih =>
    rw [areFlat, Bool.and_eq_true] at flat
    rcases List.mem_cons.mp mem with rfl | mem
    · exact flat.1
    · exact ih flat.2 mem

theorem comments_subset_of_mem {vs : List Value} (mem : v ∈ vs) :
    comments v ⊆ commentsOfItems vs := by
  induction vs with
  | nil => cases mem
  | cons w vs ih =>
    rw [commentsOfItems]
    rcases List.mem_cons.mp mem with rfl | mem
    · exact List.subset_append_left _ _
    · exact List.subset_append_of_subset_right _ (ih mem)

theorem isFlat_of_property_mem {es : Body} {key : String} (flat : isFlatBody es = true)
    (mem : .property key v ∈ es) : isFlat v = true := by
  induction es with
  | nil => cases mem
  | cons e es ih =>
    rw [isFlatBody, Bool.and_eq_true] at flat
    rcases List.mem_cons.mp mem with rfl | mem
    · exact flat.1
    · exact ih flat.2 mem

theorem comments_subset_of_property_mem {es : Body} {key : String}
    (mem : .property key v ∈ es) : comments v ⊆ commentsOfBody es := by
  induction es with
  | nil => cases mem
  | cons e es ih =>
    rw [commentsOfBody]
    rcases List.mem_cons.mp mem with rfl | mem
    · exact List.subset_append_left _ _
    · exact List.subset_append_of_subset_right _ (ih mem)

/-- Lines stand in the text of the form that encloses them. -/
theorem infix_enclosed (opening closing : Char) (lines : List Char) (depth : Nat) :
    lines <:+: opening :: '\n' :: lines ++ indent depth ++ [closing] := by
  rw [List.append_assoc]
  exact List.infix_append [opening, '\n'] lines (indent depth ++ [closing])

namespace Nested

/-- A value is written at the depth where it stands. -/
theorem infix_chars (h : Nested x level v) (depth : Nat) :
    chars (depth + level) x <:+: chars depth v := by
  induction h generalizing depth with
  | here => exact List.infix_refl _
  | scalar row mem _ ih =>
    rw [chars_array, if_pos row]
    exact ((ih depth).trans (infix_intercalate mem)).trans (List.infix_append ['['] _ [']'])
  | @item level items w lines mem _ ih =>
    have same : depth + (level + 1) = depth + 1 + level := by omega
    rw [chars_array, if_neg lines, same]
    exact ((ih (depth + 1)).trans (infix_itemLines mem)).trans (infix_enclosed _ _ _ _)
  | @property level body key w mem _ ih =>
    obtain ⟨e, es, rfl⟩ := List.exists_cons_of_ne_nil (List.ne_nil_of_mem mem)
    have same : depth + (level + 1) = depth + 1 + level := by omega
    rw [chars_object_cons, same]
    exact ((ih (depth + 1)).trans (infix_entryLines mem)).trans (infix_enclosed _ _ _ _)
  | @argument level function arguments w mem _ ih =>
    rw [chars_call, List.append_cons function.toList]
    exact ((ih depth).trans (infix_intercalate mem)).trans (List.infix_append _ _ _)
  | forEach _ ih =>
    rw [chars_forEach]
    exact (ih depth).trans (List.infix_append _ _ _)
  | yes _ ih =>
    rw [chars_conditional, List.append_assoc]
    exact (ih depth).trans (List.infix_append _ _ _)
  | no _ ih =>
    rw [chars_conditional]
    exact (ih depth).trans (List.suffix_append _ _).isInfix

/-- What stands in a value has no raw texts but those of the value. -/
theorem hasRawLines (h : Nested x level v) (raw : HasRawLines v) : HasRawLines x := by
  induction h with
  | here => exact raw
  | scalar _ mem _ ih | item _ mem _ ih =>
    exact ih ⟨isFlat_of_mem raw.expressions mem,
      fun text inside => raw.comments text (comments_subset_of_mem mem inside)⟩
  | property mem _ ih =>
    exact ih ⟨isFlat_of_property_mem raw.expressions mem,
      fun text inside => raw.comments text (comments_subset_of_property_mem mem inside)⟩
  | argument mem _ ih =>
    have flat := raw.expressions
    rw [isFlat, Bool.and_eq_true] at flat
    exact ih ⟨isFlat_of_mem flat.2 mem,
      fun text inside => raw.comments text (comments_subset_of_mem mem inside)⟩
  | forEach _ ih =>
    have flat := raw.expressions
    rw [isFlat, Bool.and_eq_true] at flat
    exact ih ⟨flat.2, raw.comments⟩
  | yes _ ih =>
    have flat := raw.expressions
    rw [isFlat, Bool.and_eq_true, Bool.and_eq_true] at flat
    exact ih ⟨flat.1.2, fun text inside => raw.comments text (List.mem_append_left _ inside)⟩
  | no _ ih =>
    have flat := raw.expressions
    rw [isFlat, Bool.and_eq_true] at flat
    exact ih ⟨flat.2, fun text inside => raw.comments text (List.mem_append_right _ inside)⟩

end Nested

end Inside

/-- A value whose raw texts are on one line each has one text, wherever it stands: at a depth, two
blanks a level are behind every line feed and nothing else is changed. So any value in it is written
as it is on its own, set in as far as its place is. Literals and keys are on one line in any case. -/
theorem chars_eq_setIn (v : Value) (raw : HasRawLines v) :
    (∀ depth, v.chars depth = setIn depth (v.chars 0)) ∧
    (∀ x level, Nested x level v →
      ∀ depth, setIn (depth + level) (x.chars 0) <:+: v.chars depth) ∧
    (∀ s depth, '\n' ∉ (str s).chars depth ∧ '\n' ∉ (interp s).chars depth) ∧
    ∀ key, '\n' ∉ keyChars key := by
  have own : ∀ x, HasRawLines x → ∀ depth, x.chars depth = setIn depth (x.chars 0) := by
    intro x raw depth
    rw [← chars_add 0 depth x raw.expressions raw.comments, Nat.zero_add]
  refine ⟨own v raw, ?_, ?_, notMem_keyChars⟩
  · intro x level nested depth
    rw [← own x (nested.hasRawLines raw)]
    exact nested.infix_chars depth
  · intro s depth
    exact ⟨notMem_inQuotes (Literal.notMem_escapeLiteral (by decide) _),
      notMem_inQuotes (Literal.notMem_escape (by decide) _)⟩

/-- A wheel of a gear, on several lines. -/
def gearWheel : Value :=
  .object [.ref "wear" "gear.wear"]

/-- A loop over gears, with a wheel two levels further in. -/
def gearLoop : Value :=
  .forEach "gear" "gears"
    (.object [.comment "one a gear", .lit "name" "a\nb", .property "teeth" (.array [.int 3, gearWheel])])

theorem chars_gearLoop_eq_setIn :
    HasRawLines gearLoop ∧ gearLoop.chars 1 = setIn 1 (gearLoop.chars 0) ∧
      setIn 3 (gearWheel.chars 0) <:+: gearLoop.chars 1 := by
  have raw : HasRawLines gearLoop := ⟨by decide, by decide⟩
  have nested : Nested gearWheel 2 gearLoop :=
    .forEach (.property (.tail _ (.tail _ (.head _))) (.item (by decide) (.tail _ (.head _)) .here))
  obtain ⟨alone, inside, -⟩ := chars_eq_setIn gearLoop raw
  exact ⟨raw, alone 1, inside gearWheel 2 nested 1⟩

example : String.ofList (gearLoop.chars 1) =
    "[for gear in gears: \x7b\n    // one a gear\n    name: 'a\\nb'\n    teeth: [\n      3\n" ++
      "      \x7b\n        wear: gear.wear\n      \x7d\n    ]\n  \x7d]" := by
  decide +kernel

/-- Raw text of several lines stays as it is. -/
example : (expr "a\nb").chars 1 ≠ setIn 1 ((expr "a\nb").chars 0) := by
  decide

end BicepForge.Bicep.Value
