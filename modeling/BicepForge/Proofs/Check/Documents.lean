import BicepForge.Bicep.Document
import BicepForge.Proofs.Check.Values

/-!
# Documents that the check accepts

Every declaration of a tame document is a block that holds one declaration of its keyword. The
sections and the preamble put such blocks together, and blanks at the end do not matter: the
check of the whole text counts what the document declares and finds nothing wrong.
-/

namespace BicepForge.Check

open Bicep

/-! ## Declarations -/

/-- A text that may stand in a comment line. -/
def isLine (s : String) : Bool :=
  !s.toList.contains '\n'

/-- A decorator that the check does not notice. -/
def tameDecorator : Decorator → Bool
  | .description text => isClean text
  | .allowed values => tame (.array values)
  | .note text => isLine text
  | _ => true

structure TameParam (p : Param) : Prop where
  name : Value.isIdentifier p.name = true
  decorators : p.decorators.all tameDecorator = true
  default : p.default?.all tame = true

structure TameVariable (v : Variable) : Prop where
  name : Value.isIdentifier v.name = true
  value : tame v.value = true

structure TameResource (r : Resource) : Prop where
  symbol : Value.isIdentifier r.symbol = true
  type : isClean r.type = true
  apiVersion : isClean r.apiVersion = true
  comment : r.comment?.all isLine = true
  body : tameBody r.body = true

structure TameOutput (o : Output) : Prop where
  name : Value.isIdentifier o.name = true
  value : tame o.value = true
  description : o.description?.all isClean = true

instance (p : Param) : Decidable (TameParam p) :=
  decidable_of_iff (Value.isIdentifier p.name = true ∧ p.decorators.all tameDecorator = true ∧
    p.default?.all tame = true) ⟨fun h => ⟨h.1, h.2.1, h.2.2⟩, fun h => ⟨h.1, h.2, h.3⟩⟩

instance (v : Variable) : Decidable (TameVariable v) :=
  decidable_of_iff (Value.isIdentifier v.name = true ∧ tame v.value = true)
    ⟨fun h => ⟨h.1, h.2⟩, fun h => ⟨h.1, h.2⟩⟩

theorem TameParam.of {name : String} {type : Ty} {decorators : List Decorator}
    {default? : Option Value} (hn : Value.isIdentifier name = true)
    (hd : decorators.all tameDecorator = true) (hv : default?.all tame = true) :
    TameParam { name, type, decorators, default? } :=
  ⟨hn, hd, hv⟩

theorem TameVariable.of {name : String} {value : Value} (hn : Value.isIdentifier name = true)
    (hv : tame value = true) : TameVariable ⟨name, value⟩ :=
  ⟨hn, hv⟩

theorem TameOutput.of {name : String} {type : Ty} {value : Value} {description? : Option String}
    (hn : Value.isIdentifier name = true) (hv : tame value = true)
    (hd : description?.all isClean = true) : TameOutput { name, type, value, description? } :=
  ⟨hn, hv, hd⟩

theorem Inline.type (t : Ty) : Inline t.name.toList := by
  cases t <;> exact Inline.tidy (by decide)

theorem Inline.gap : Inline [' '] := Inline.solid (by decide) (by decide)

theorem Inline.equals : Inline " = ".toList := Inline.tidy (by decide)

/-- A keyword and a name, with the rest of the line behind them. -/
theorem Block.named (keyword : String) (hk : keyword.toList ∈ keywords) {name : String}
    (hn : Value.isIdentifier name = true) {cs : List Char} (h : Inline cs) :
    Block [keyword.toList] (keyword.toList ++ ' ' :: (name.toList ++ (cs ++ ['\n']))) := by
  obtain ⟨c, ds, hc, letter, run⟩ := Value.exists_cons_of_isIdentifier hn
  have rest : Inline ds := Inline.name fun d hd => run d (List.mem_cons_of_mem _ hd)
  rw [hc]
  simpa using Block.declaration hk letter (rest.append h)

theorem Block.annotation (name : String) (hn : isTidy name = true) {cs : List Char}
    (h : Inline cs) : Block [] (Decorator.annotation name cs ++ ['\n']) := by
  have at_ : Inline ['@'] := Inline.solid (by decide) (by decide)
  have opening : Inline ['('] := Inline.solid (by decide) (by decide)
  have closing : Inline [')'] := Inline.solid (by decide) (by decide)
  have text : Inline (Decorator.annotation name cs) := by
    simpa [Decorator.annotation] using
      at_.append ((Inline.tidy hn).append (opening.append (h.append closing)))
  exact Block.line text (BeginsQuietly.of_sign (by decide) (by decide) (by decide) _)

theorem Inline.natural (n : Nat) : Inline (toString n).toList := by
  have text : toString (n : Int) = toString n := rfl
  exact text ▸ inline_chars 0 (.int n) rfl

theorem Block.decorator {d : Decorator} (h : tameDecorator d = true) :
    Block [] (d.chars ++ ['\n']) := by
  cases d with
  | description text => exact Block.annotation _ (by decide) (inline_chars 0 (.str text) h)
  | minLength n => exact Block.annotation _ (by decide) (Inline.natural n)
  | maxLength n => exact Block.annotation _ (by decide) (Inline.natural n)
  | minValue i => exact Block.annotation _ (by decide) (inline_chars 0 (.int i) rfl)
  | maxValue i => exact Block.annotation _ (by decide) (inline_chars 0 (.int i) rfl)
  | allowed values => exact Block.annotation _ (by decide) (inline_chars 0 (.array values) h)
  | secure => exact Block.annotation _ (by decide) Inline.nil
  | note text =>
    have own : '\n' ∉ ' ' :: text.toList := by simpa [tameDecorator, isLine] using h
    exact Block.comment own

theorem Block.param {p : Param} (h : TameParam p) : Block ["param".toList] p.chars := by
  have decorators : Block [] (p.decorators.flatMap fun d => d.chars ++ ['\n']) :=
    Block.rows fun d hd => Block.decorator (List.all_eq_true.mp h.decorators d hd)
  have keyword : "param ".toList = "param".toList ++ [' '] := by decide
  have line : ∀ rest, Inline rest → Block ["param".toList]
      ((p.decorators.flatMap fun d => d.chars ++ ['\n']) ++ "param ".toList ++ p.name.toList ++
        ' ' :: p.type.name.toList ++ rest ++ ['\n']) := by
    intro rest hr
    have text := Block.named "param" (by decide) h.name
      (Inline.gap.append ((Inline.type p.type).append hr))
    simpa only [keyword, List.append_assoc, List.cons_append, List.nil_append]
      using decorators.append text
  refine line _ ?_
  have default := h.default
  cases hd : p.default? with
  | none => exact Inline.nil
  | some v =>
    rw [hd] at default
    exact Inline.equals.append (inline_chars 0 v default)

theorem Block.variable {v : Variable} (h : TameVariable v) : Block ["var".toList] v.chars := by
  have keyword : "var ".toList = "var".toList ++ [' '] := by decide
  have text := Block.named "var" (by decide) h.name
    (Inline.equals.append (inline_chars 0 v.value h.value))
  show Block _ ("var ".toList ++ v.name.toList ++ " = ".toList ++ v.value.chars 0 ++ ['\n'])
  simpa only [keyword, List.append_assoc, List.cons_append, List.nil_append] using text

/-- A comment line of a document. -/
theorem Block.commentLine {text : String} (h : isLine text = true) :
    Block [] (Document.commentLine text) := by
  have own : '\n' ∉ ' ' :: text.toList := by simpa [isLine] using h
  exact Block.comment own

theorem isClean_typeReference {r : Resource} (h : TameResource r) :
    isClean r.typeReference = true := by
  have at_ : isClean "@" = true := by decide
  rw [Resource.typeReference, isClean_append, isClean_append, h.type, h.apiVersion, at_]
  rfl

theorem Block.resource {r : Resource} (h : TameResource r) : Block ["resource".toList] r.chars := by
  have keyword : "resource ".toList = "resource".toList ++ [' '] := by decide
  have reference := Inline.clean (isClean_typeReference h)
  have mark : Inline (if r.existing then " existing".toList else []) := by
    split_ifs
    · exact Inline.tidy (by decide)
    · exact Inline.nil
  have text := Block.named "resource" (by decide) h.symbol
    (Inline.gap.append (reference.append (mark.append
    (Inline.equals.append (inline_chars 0 (.object r.body) h.body)))))
  have line : ∀ front, Block [] front → Block ["resource".toList]
      (front ++ "resource ".toList ++ r.symbol.toList ++
        ' ' :: Value.inQuotes r.typeReference.toList ++
        (if r.existing then " existing".toList else []) ++ " = ".toList ++
        (Value.object r.body).chars 0 ++ ['\n']) := by
    intro front hf
    simpa only [keyword, List.append_assoc, List.cons_append, List.nil_append]
      using hf.append text
  refine line _ ?_
  have comment := h.comment
  cases hc : r.comment? with
  | none => exact Block.nil
  | some text =>
    rw [hc] at comment
    exact Block.commentLine comment

theorem Block.output {o : Output} (h : TameOutput o) : Block ["output".toList] o.chars := by
  have keyword : "output ".toList = "output".toList ++ [' '] := by decide
  have text := Block.named "output" (by decide) h.name
    (Inline.gap.append ((Inline.type o.type).append
    (Inline.equals.append (inline_chars 0 o.value h.value))))
  have line : ∀ front, Block [] front → Block ["output".toList]
      (front ++ "output ".toList ++ o.name.toList ++ ' ' :: o.type.name.toList ++ " = ".toList ++
        o.value.chars 0 ++ ['\n']) := by
    intro front hf
    simpa only [keyword, List.append_assoc, List.cons_append, List.nil_append]
      using hf.append text
  refine line _ ?_
  have description := h.description
  cases hd : o.description? with
  | none => exact Block.nil
  | some text =>
    rw [hd] at description
    exact Block.decorator (d := .description text) description

/-! ## Documents -/

/-- A document whose lines and declarations are tame. -/
structure TameDocument (d : Document) : Prop where
  header : ∀ line ∈ d.header, isLine line = true
  metadata : ∀ entry ∈ d.metadata, isTidy entry.1 = true ∧ isClean entry.2 = true
  notesTitle : ∀ line, d.notesTitle? = some line → isLine line = true
  notes : ∀ line ∈ d.notes, isLine line = true
  parameters : ∀ p ∈ d.parameters, TameParam p
  vars : ∀ v ∈ d.vars, TameVariable v
  declarations : ∀ x ∈ d.declarations, ∃ r, x = .resource r ∧ TameResource r
  outputs : ∀ o ∈ d.outputs, TameOutput o

theorem Block.block {lines : List (List Char)} (h : ∀ line ∈ lines, Block [] line) :
    Block [] (Document.block lines) := by
  unfold Document.block
  split_ifs
  · exact Block.nil
  · have rows : Block [] (lines.flatMap id) := Block.rows h
    rw [List.flatMap_id] at rows
    exact rows.append Block.feed

theorem Block.commentLines {lines : List String} (h : ∀ line ∈ lines, isLine line = true) :
    ∀ line ∈ lines.map Document.commentLine, Block [] line := by
  intro line hl
  obtain ⟨text, ht, rfl⟩ := List.mem_map.mp hl
  exact Block.commentLine (h text ht)

/-- A line with a fixed word that is no keyword in front. -/
theorem Block.statement (word : String) (name : (word.toList.all continuesName) = true)
    (other : word.toList ∉ keywords) (first : word.toList ≠ []) {cs : List Char} (h : Inline cs) :
    Block [] (word.toList ++ ' ' :: (cs ++ ['\n'])) := by
  have run := List.all_eq_true.mp name
  have text : Inline (word.toList ++ ' ' :: cs) := (Inline.name run).append (Inline.gap.append h)
  have quiet : BeginsQuietly (word.toList ++ ' ' :: cs ++ ['\n']) := by
    refine BeginsQuietly.append ⟨word.toList, ' ', cs, rfl, run, by decide, by decide, ?_⟩ _
    rintro (none | keyword)
    · exact absurd none first
    · exact absurd keyword other
  simpa using Block.line text quiet

theorem Block.scope (scope : TargetScope) :
    Block [] ("targetScope = ".toList ++ (Value.inQuotes scope.name.toList ++ ['\n', '\n'])) := by
  have name : isClean scope.name = true := by cases scope <;> decide
  have equals : Inline ['=', ' '] := Inline.solid (by decide) (by decide)
  have word : "targetScope = ".toList = "targetScope".toList ++ [' ', '=', ' '] := by decide
  have line := Block.statement "targetScope" (by decide) (by decide) (by decide)
    (equals.append (Inline.clean name))
  simpa only [word, List.append_assoc, List.cons_append, List.nil_append]
    using line.both Block.feed

theorem Block.metadata {key value : String} (hk : isTidy key = true) (hv : isClean value = true) :
    Block [] ("metadata ".toList ++ key.toList ++ " = ".toList ++ (Value.str value).chars 0 ++
      ['\n']) := by
  have word : "metadata ".toList = "metadata".toList ++ [' '] := by decide
  have line := Block.statement "metadata" (by decide) (by decide) (by decide)
    ((Inline.tidy hk).append (Inline.equals.append (inline_chars 0 (.str value) hv)))
  simpa only [word, List.append_assoc, List.cons_append, List.nil_append] using line

theorem Block.preamble {d : Document} (h : TameDocument d) : Block [] d.preamble := by
  have front := (Block.block (Block.commentLines h.header)).both (Block.scope d.scope)
  unfold Document.preamble
  refine Block.both (Block.both ?_ (Block.block fun line hl => ?_)) ?_
  · simpa only [List.append_assoc] using front
  · obtain ⟨⟨key, value⟩, he, rfl⟩ := List.mem_map.mp hl
    exact Block.metadata (h.metadata _ he).1 (h.metadata _ he).2
  · split_ifs
    · exact Block.nil
    · refine Block.block fun line hl => ?_
      rcases List.mem_append.mp hl with hl | hl
      · refine Block.commentLines (fun text ht => ?_) line hl
        exact h.notesTitle text (by simpa using ht)
      · exact Block.commentLines h.notes line hl

theorem Block.title (kind : SectionKind) :
    Block [] ("// === ".toList ++ kind.title.toList ++ " ===\n\n".toList) := by
  have opening : "// === ".toList = '/' :: '/' :: " === ".toList := by decide
  have closing : " ===\n\n".toList = " ===".toList ++ ['\n', '\n'] := by decide
  have own : '\n' ∉ " === ".toList ++ kind.title.toList ++ " ===".toList := by
    cases kind <;> decide
  have text : "// === ".toList ++ kind.title.toList ++ " ===\n\n".toList =
      '/' :: '/' :: (" === ".toList ++ kind.title.toList ++ " ===".toList ++ ['\n']) ++ ['\n'] := by
    rw [opening, closing]
    simp only [List.append_assoc, List.cons_append, List.nil_append]
  rw [text]
  exact (Block.comment own).both Block.feed

/-- A section holds the declarations of its items. -/
theorem Block.sectionOf {α : Type} (keyword : List Char) (kind : SectionKind) {items : List α}
    {write : α → List Char} (h : ∀ item ∈ items, Block [keyword] (write item)) :
    Block (List.replicate items.length keyword)
      ((Document.sectionOf kind write items).flatMap Document.sectionChars) := by
  cases items with
  | nil => exact Block.nil
  | cons item items =>
    have each := Block.flatMap (fun _ => [keyword]) h
    have count : (item :: items).flatMap (fun _ => [keyword]) =
        List.replicate (item :: items).length keyword := by
      rw [← List.map_eq_flatMap, List.map_const']
    rw [count] at each
    have text : (Document.sectionOf kind write (item :: items)).flatMap Document.sectionChars =
        ("// === ".toList ++ kind.title.toList ++ " ===\n\n".toList) ++
          (item :: items).flatMap write := by
      rw [Document.sectionOf, if_neg (by simp), List.flatMap_singleton]
      rfl
    rw [text]
    exact (Block.title kind).append each

/-- The keywords of what a document declares, in their order. -/
def declaredBy (d : Document) : List (List Char) :=
  List.replicate d.parameters.length "param".toList ++
    List.replicate d.vars.length "var".toList ++
    List.replicate d.declarations.length "resource".toList ++
    List.replicate d.outputs.length "output".toList

theorem Block.variableChars {v : Variable} (h : TameVariable v) :
    Block ["var".toList] (Document.variableChars v) := by
  unfold Document.variableChars
  split_ifs
  · exact (Block.variable h).append Block.feed
  · exact Block.variable h

/-- The text of a tame document, before its end is cut, is a block of its declarations. -/
theorem Block.document {d : Document} (h : TameDocument d) :
    Block (declaredBy d) (d.preamble ++ d.sections.flatMap Document.sectionChars) := by
  have parameters := Block.sectionOf "param".toList .parameters fun p hp =>
    (Block.param (h.parameters p hp)).append Block.feed
  have vars := Block.sectionOf "var".toList .vars fun v hv => Block.variableChars (h.vars v hv)
  have resource : ∀ x ∈ d.declarations, Block ["resource".toList] (x.chars ++ ['\n']) := by
    intro x hx
    obtain ⟨r, rfl, hr⟩ := h.declarations x hx
    exact (Block.resource hr).append Block.feed
  have resources := Block.sectionOf "resource".toList .resources resource
  have outputs := Block.sectionOf "output".toList .outputs fun o ho =>
    (Block.output (h.outputs o ho)).append Block.feed
  have whole :=
    (Block.preamble h).append (((parameters.append vars).append resources).append outputs)
  simpa only [declaredBy, Document.sections, List.flatMap_append, List.nil_append] using whole

/-! ## The check of a document -/

theorem exists_dropBlanksEnd_append (cs : List Char) :
    ∃ blanks, cs = Text.dropBlanksEnd cs ++ blanks ∧ ∀ b ∈ blanks, Text.isBlank b = true := by
  refine ⟨(cs.reverse.takeWhile Text.isBlank).reverse, ?_, ?_⟩
  · rw [Text.dropBlanksEnd, ← List.reverse_append, List.takeWhile_append_dropWhile,
      List.reverse_reverse]
  · intro b hb
    exact List.mem_takeWhile_imp (List.mem_reverse.mp hb)

theorem endsSolid_dropBlanksEnd (cs : List Char) : EndsSolid (Text.dropBlanksEnd cs) := by
  intro c hc
  rw [Text.dropBlanksEnd, List.getLast?_reverse] at hc
  have first := List.head?_dropWhile_not Text.isBlank cs.reverse
  rw [hc] at first
  simpa using first

theorem Balanced.of_append {xs ys : List Char} (h : Balanced (xs ++ ys))
    (hy : ∀ c ∈ ys, c ∉ signs) : Balanced xs := by
  have none : ∀ sign ∈ signs, ys.count sign = 0 :=
    fun sign hs => List.count_eq_zero.mpr fun hc => hy sign hc hs
  constructor
  · simpa [List.count_append, none '\x7b' (by decide), none '\x7d' (by decide)] using h.braces
  · simpa [List.count_append, none '[' (by decide), none ']' (by decide)] using h.brackets

theorem notMem_signs_of_isBlank {c : Char} (h : Text.isBlank c = true) : c ∉ signs := by
  intro sign
  have other : ∀ d ∈ signs, Text.isBlank d = false := by decide
  rw [other c sign] at h
  cases h

/-- What the check sees of a block whose end is cut: it is balanced and holds just the
declarations of the block. -/
theorem Block.check {declared : List (List Char)} {cs : List Char} (h : Block declared cs) :
    Balanced (withoutComments (String.ofList (Text.dropBlanksEnd cs ++ ['\n']))) ∧
      ∀ keyword ∈ keywords,
        countFrom keyword true
          (withoutComments (String.ofList (Text.dropBlanksEnd cs ++ ['\n']))) =
        declared.count keyword := by
  obtain ⟨blanks, whole, hb⟩ := exists_dropBlanksEnd_append cs
  obtain ⟨m, step⟩ := exists_strip_append_blanks (.seeking false) (endsSolid_dropBlanksEnd cs)
  have code : withoutComments (String.ofList (Text.dropBlanksEnd cs ++ ['\n'])) =
      strip (.seeking false) (Text.dropBlanksEnd cs) := by
    have seen := withoutComments_append_feed (Text.dropBlanksEnd cs)
    rw [step ['\n'] (by decide), strip_feed, strip_nil] at seen
    exact List.append_cancel_right seen
  have all : strip (.seeking false) cs =
      strip (.seeking false) (Text.dropBlanksEnd cs) ++ strip m blanks := by
    conv_lhs => rw [whole]
    exact step blanks hb
  have rest : ∀ b ∈ strip m blanks, Text.isBlank b = true := fun b hm => hb b (mem_of_mem_strip hm)
  rw [code]
  constructor
  · have balanced := h.balanced
    rw [all] at balanced
    exact balanced.of_append fun b hm => notMem_signs_of_isBlank (rest b hm)
  · intro keyword hk
    have count := h.count keyword hk []
    rw [List.append_nil, all, countFrom_append_blanks rest (continuesName_of_keyword hk),
      countFrom_nil] at count
    exact count

theorem withNotes_eq (r : Report) (texts : List String) :
    r.withNotes texts = { r with info := r.info ++ texts } := by
  induction texts generalizing r with
  | nil => simp [Report.withNotes]
  | cons text texts ih =>
    have step : r.withNotes (text :: texts) = (r.note text).withNotes texts := rfl
    rw [step, ih]
    simp [Report.note]

def countNote : String × Nat → Option String
  | (what, count) =>
    if count = 0 then none else some ("Found " ++ toString count ++ " " ++ what ++ "(s)")

/-- The notes on what a document declares, in the order of the check. -/
def declarationNotes (d : Document) : List String :=
  [("parameter", d.parameters.length), ("variable", d.vars.length),
   ("output", d.outputs.length), ("resource", d.resources.length)].filterMap countNote

theorem length_resources {d : Document} (h : TameDocument d) :
    d.resources.length = d.declarations.length := by
  have each := h.declarations
  unfold Document.resources
  generalize d.declarations = declarations at each ⊢
  induction declarations with
  | nil => rfl
  | cons x xs ih =>
    obtain ⟨r, rfl, -⟩ := each x (by simp)
    have first : Declaration.resource? (.resource r) = some r := rfl
    rw [List.filterMap_cons_some first, List.length_cons, List.length_cons,
      ih fun y hy => each y (List.mem_cons_of_mem _ hy)]

/-- The number of times that each keyword is declared. -/
theorem count_declaredBy (d : Document) :
    (declaredBy d).count "param".toList = d.parameters.length ∧
      (declaredBy d).count "var".toList = d.vars.length ∧
      (declaredBy d).count "output".toList = d.outputs.length ∧
      (declaredBy d).count "resource".toList = d.declarations.length ∧
      (declaredBy d).count "module".toList = 0 := by
  simp [declaredBy, List.count_replicate]

/-- The check accepts a tame document that declares a resource, and counts what it declares. -/
theorem checkCode_text {d : Document} (h : TameDocument d) (declares : d.declarations ≠ []) :
    checkCode d.text =
      { valid := true, dialect? := some .bicep, errors := [], warnings := []
        info := declarationNotes d } := by
  have checked := (Block.document h).check
  have balanced : Balanced (withoutComments d.text) := checked.1
  obtain ⟨parameters, vars, outputs, resources, modules⟩ := count_declaredBy d
  have counted (keyword : String) (hk : keyword.toList ∈ keywords) :
      declarationCount keyword (withoutComments d.text) = (declaredBy d).count keyword.toList :=
    checked.2 keyword.toList hk
  have some_resource : d.declarations.length ≠ 0 := by simpa using declares
  have notes : (declarationKinds.filterMap fun kind =>
      countNote (kind.2, declarationCount kind.1 (withoutComments d.text))) =
      declarationNotes d := by
    have tally : declarationKinds.map (fun kind =>
        (kind.2, declarationCount kind.1 (withoutComments d.text))) =
        [("parameter", d.parameters.length), ("variable", d.vars.length),
         ("output", d.outputs.length), ("resource", d.resources.length)] ++ [("module", 0)] := by
      simp only [declarationKinds, List.map_cons, List.map_nil, counted "param" (by decide),
        counted "var" (by decide), counted "output" (by decide), counted "resource" (by decide),
        counted "module" (by decide), parameters, vars, outputs, resources, modules,
        length_resources h]
      rfl
    have each := congrArg (List.filterMap countNote) tally
    rw [List.filterMap_map, List.filterMap_append] at each
    exact each.trans (List.append_nil _)
  have errors : balanceErrors '\x7b' '\x7d' "braces" (withoutComments d.text) ++
      balanceErrors '[' ']' "brackets" (withoutComments d.text) = [] := by
    rw [balanceErrors, balanceErrors, if_pos balanced.braces, if_pos balanced.brackets]
    rfl
  have warnings : ¬(declarationCount "resource" (withoutComments d.text) = 0 ∧
      declarationCount "module" (withoutComments d.text) = 0) := by
    rw [counted "resource" (by decide), resources]
    exact fun none => some_resource none.1
  have report : ∀ texts, texts = declarationNotes d →
      (((Report.forDialect .bicep).withErrors []).withWarnings []).withNotes texts =
        { valid := true, dialect? := some .bicep, errors := [], warnings := []
          info := declarationNotes d } := by
    rintro _ rfl
    rw [withNotes_eq]
    rfl
  unfold checkCode
  simp only [errors, if_neg warnings]
  exact report _ notes

end BicepForge.Check
