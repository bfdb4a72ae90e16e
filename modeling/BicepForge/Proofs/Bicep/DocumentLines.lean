import BicepForge.Proofs.Bicep.Lines
import Mathlib.Algebra.GroupWithZero.Nat

/-!
# The lines of a document

The text of a document has one line for each declaration that begins with the keyword of its
section, and its other lines begin with a slash, a sign, another word or blanks. Left are the texts
that are written as they are, into comments and between quotes: if they hold line feeds, their lines
behind the first one are lines of the document. Main statement: the lines that begin with a keyword
are as many as the declarations, and those of such texts on top.
-/

namespace BicepForge.Bicep

open Check

/-! ## Declarations -/

/-- The texts of a decorator that are written as they are. -/
def Decorator.unescaped : Decorator → List String
  | .note text => [text]
  | .allowed values => Value.commentsOfItems values
  | _ => []

/-- The texts of a parameter that are written as they are, its name and type apart. -/
def Param.unescaped (p : Param) : List String :=
  p.decorators.flatMap Decorator.unescaped ++ (p.default?.map Value.comments).getD []

/-- The texts of a declaration that are written as they are, its symbol apart. -/
def Declaration.unescaped : Declaration → List String
  | .resource r => r.comment?.toList ++ [r.typeReference] ++ Value.commentsOfBody r.body
  | .module m => [m.path] ++ Value.commentsOfBody m.body

def Decorator.isFlat : Decorator → Bool
  | .allowed values => Value.areFlat values
  | _ => true

structure Param.Flat (p : Param) : Prop where
  name : isLine p.name = true
  decorators : p.decorators.all Decorator.isFlat = true
  default : p.default?.all Value.isFlat = true

structure Variable.Flat (v : Variable) : Prop where
  name : isLine v.name = true
  value : v.value.isFlat = true

structure Declaration.Flat (d : Declaration) : Prop where
  symbol : isLine d.symbol = true
  body : Value.isFlatBody d.body = true

def endsSolid (cs : List Char) : Bool :=
  cs.getLast?.any fun c => !Text.isBlank c

/-- An output whose raw parts are on one line each, and which does not end with a blank. -/
structure Output.Flat (o : Output) : Prop where
  name : isLine o.name = true
  value : o.value.isFlat = true
  solid : endsSolid (o.value.chars 0) = true

section Declarations

variable {kind : SectionKind}

/-- Whether a section is the one that is counted, as a number. -/
def SectionKind.tally (kind kind' : SectionKind) : Nat :=
  (decide (kind = kind')).toNat

theorem notMem_ty (ty : Ty) : '\n' ∉ ty.name.toList := by
  cases ty <;> decide

/-- An empty line behind a text holds nothing more. -/
theorem Holds.spaced {cs : List Char} {n : Nat} {texts : List String} (h : Holds kind cs n texts) :
    Holds kind (cs ++ ['\n']) n texts := by
  have both := h.append .feed
  rwa [Nat.add_zero, List.append_nil] at both

/-- A line that begins with the keyword of a section. -/
theorem Holds.keyword (kind' : SectionKind) {cs : List Char} {texts : List String}
    (h : Continues kind cs texts) :
    Holds kind (kind'.keyword.toList ++ cs ++ ['\n']) (kind.tally kind') texts := by
  have word : Continues kind kind'.keyword.toList [] :=
    .flat (kind'.notMem_keyword (by simp))
  refine Holds.line (word.append h) fun rest => ?_
  rw [List.append_assoc]
  exact kind.isPrefixOf_keyword_append kind' _

theorem Holds.flatMap {α : Type} {items : List α} {write : α → List Char} (count : α → Nat)
    {texts : α → List String} (h : ∀ x ∈ items, Holds kind (write x) (count x) (texts x)) :
    Holds kind (items.flatMap write) (items.map count).sum (items.flatMap texts) := by
  induction items with
  | nil => exact .nil
  | cons x items ih =>
    rw [List.forall_mem_cons] at h
    rw [List.flatMap_cons, List.flatMap_cons, List.map_cons, List.sum_cons]
    exact h.1.append (ih h.2)

/-- Items with as many declarations each. -/
theorem Holds.each {α : Type} {items : List α} {write : α → List Char} {n : Nat}
    {texts : α → List String} (h : ∀ x ∈ items, Holds kind (write x) n (texts x)) :
    Holds kind (items.flatMap write) (items.length * n) (items.flatMap texts) := by
  have all := Holds.flatMap (fun _ => n) h
  rwa [List.map_const', List.sum_replicate_nat] at all

theorem Continues.annotation (name : String) (own : isLine name = true) {argument : List Char}
    {texts : List String} (h : Continues kind argument texts) :
    Continues kind (Decorator.annotation name argument) texts := by
  have opening : Continues kind ['('] [] := .flat (by decide)
  have closing : Continues kind [')'] [] := .flat (by decide)
  have front : Continues kind ('@' :: name.toList) [] :=
    .flat (by simpa using notMem_of_isLine own)
  simpa [Decorator.annotation] using (front.append opening).append (h.append closing)

theorem Holds.decorator {d : Decorator} (h : d.isFlat = true) :
    Holds kind (d.chars ++ ['\n']) 0 d.unescaped := by
  have at_ {name : String} (own : isLine name = true) {argument : List Char} {texts : List String}
      (h : Continues kind argument texts) :
      Holds kind (Decorator.annotation name argument ++ ['\n']) 0 texts :=
    Holds.other (c := '@') (by decide) (Continues.annotation name own h)
  have bound (i : Int) : Continues kind (toString i).toList [] := .line (Value.isLine_text (.int i))
  cases d with
  | description text => exact at_ (by decide) (continues_chars 0 (.str text) rfl)
  | minLength n => exact at_ (by decide) (bound n)
  | maxLength n => exact at_ (by decide) (bound n)
  | minValue i => exact at_ (by decide) (bound i)
  | maxValue i => exact at_ (by decide) (bound i)
  | allowed values => exact at_ (by decide) (continues_chars 0 (.array values) h)
  | secure => exact at_ (by decide) (.flat List.not_mem_nil)
  | note text =>
    have own : '\n' ∉ ['/', '/', ' '] := by decide
    exact Holds.comment (c := '/') (by decide) own text

/-- A parameter is one line that begins with its keyword, and the lines of its notes. -/
theorem Holds.param {p : Param} (h : p.Flat) :
    Holds kind p.chars (kind.tally .parameters) p.unescaped := by
  have decorators : Holds kind (p.decorators.flatMap fun d => d.chars ++ ['\n']) 0
      (p.decorators.flatMap Decorator.unescaped) := by
    have each : Holds kind _ _ _ := .each fun d hd =>
      Holds.decorator (List.all_eq_true.mp h.decorators d hd)
    rwa [Nat.mul_zero] at each
  have type : Continues kind (' ' :: p.type.name.toList) [] :=
    .flat (by simpa using notMem_ty p.type)
  have line : ∀ rest texts, Continues kind rest texts → Holds kind
      ((p.decorators.flatMap fun d => d.chars ++ ['\n']) ++ "param ".toList ++ p.name.toList ++
        ' ' :: p.type.name.toList ++ rest ++ ['\n'])
      (kind.tally .parameters) (p.decorators.flatMap Decorator.unescaped ++ texts) := by
    intro rest texts hr
    have whole := decorators.append
      (Holds.keyword .parameters (((Continues.line h.name).append type).append hr))
    simpa only [SectionKind.keyword, Nat.zero_add, List.append_assoc, List.cons_append,
      List.nil_append] using whole
  refine line _ _ ?_
  have flat := h.default
  cases hd : p.default? with
  | none => exact .flat List.not_mem_nil
  | some v =>
    have equals : Continues kind " = ".toList [] := .line (by decide)
    rw [hd] at flat
    exact equals.append (continues_chars 0 v flat)

theorem Holds.variable {v : Variable} (h : v.Flat) :
    Holds kind v.chars (kind.tally .vars) v.value.comments := by
  have equals : Continues kind " = ".toList [] := .line (by decide)
  have line := Holds.keyword .vars
    (((Continues.line h.name).append equals).append (continues_chars 0 v.value h.value))
  show Holds kind ("var ".toList ++ v.name.toList ++ " = ".toList ++ v.value.chars 0 ++ ['\n']) _ _
  simpa only [SectionKind.keyword, List.append_assoc, List.cons_append, List.nil_append] using line

theorem Continues.body {body : Body} (h : Value.isFlatBody body = true) :
    Continues kind ((Value.object body).chars 0) (Value.commentsOfBody body) := by
  have value : Continues kind _ _ := continues_chars 0 (.object body) h
  rwa [Value.comments] at value

theorem Holds.commentLine (text : String) : Holds kind (Document.commentLine text) 0 [text] := by
  have own : '\n' ∉ ['/', '/', ' '] := by decide
  exact Holds.comment (c := '/') (by decide) own text

theorem Holds.resource {r : Resource} (h : (Declaration.resource r).Flat) :
    Holds kind r.chars (kind.tally .resources) (Declaration.resource r).unescaped := by
  have gap : Continues kind [' '] [] := .flat (by decide)
  have equals : Continues kind " = ".toList [] := .line (by decide)
  have mark : Continues kind (if r.existing then " existing".toList else []) [] := by
    split_ifs
    · exact .line (by decide)
    · exact .flat List.not_mem_nil
  have symbol : isLine r.symbol = true := h.symbol
  have body : Value.isFlatBody r.body = true := h.body
  have head := (((Continues.line symbol).append gap).append (.quoted r.typeReference)).append mark
  have line := Holds.keyword .resources ((head.append equals).append (Continues.body body))
  have behind : ∀ front texts, Holds kind front 0 texts → Holds kind
      (front ++ "resource ".toList ++ r.symbol.toList ++
        ' ' :: Value.inQuotes r.typeReference.toList ++
        (if r.existing then " existing".toList else []) ++ " = ".toList ++
        (Value.object r.body).chars 0 ++ ['\n'])
      (kind.tally .resources) (texts ++ [r.typeReference] ++ Value.commentsOfBody r.body) := by
    intro front texts hf
    simpa only [SectionKind.keyword, Nat.zero_add, List.append_assoc, List.cons_append,
      List.nil_append] using hf.append line
  refine behind _ r.comment?.toList ?_
  cases r.comment? with
  | none => exact .nil
  | some text => exact .commentLine text

/-- A line that begins with another word. -/
theorem Holds.statement (word : String)
    (other : (word.toList.head?.any fun c => !SectionKind.initials.contains c) = true)
    (own : isLine word = true) {cs : List Char} {texts : List String} (h : Continues kind cs texts) :
    Holds kind (word.toList ++ cs ++ ['\n']) 0 texts := by
  have first : Continues kind word.toList [] := .line own
  have line := first.append h
  cases letters : word.toList with
  | nil => simp [letters] at other
  | cons c more =>
    rw [letters] at line other
    exact Holds.other (by simpa using other) line

theorem Holds.module {m : Module} (h : (Declaration.module m).Flat) :
    Holds kind m.chars 0 (Declaration.module m).unescaped := by
  have gap : Continues kind [' '] [] := .flat (by decide)
  have equals : Continues kind " = ".toList [] := .line (by decide)
  have symbol : isLine m.symbol = true := h.symbol
  have body : Value.isFlatBody m.body = true := h.body
  have head := ((Continues.line symbol).append gap).append (.quoted m.path)
  have line := Holds.statement "module " (by decide) (by decide)
    ((head.append equals).append (Continues.body body))
  show Holds kind ("module ".toList ++ m.symbol.toList ++ ' ' :: Value.inQuotes m.path.toList ++
    " = ".toList ++ (Value.object m.body).chars 0 ++ ['\n']) 0
    ([m.path] ++ Value.commentsOfBody m.body)
  simpa only [List.append_assoc, List.cons_append, List.nil_append] using line

theorem Holds.output {o : Output} (h : o.Flat) :
    Holds kind o.chars (kind.tally .outputs) o.value.comments := by
  have equals : Continues kind " = ".toList [] := .line (by decide)
  have type : Continues kind (' ' :: o.type.name.toList) [] :=
    .flat (by simpa using notMem_ty o.type)
  have line := Holds.keyword .outputs
    ((((Continues.line h.name).append type).append equals).append (continues_chars 0 o.value h.value))
  have behind : ∀ front, Holds kind front 0 [] → Holds kind
      (front ++ "output ".toList ++ o.name.toList ++ ' ' :: o.type.name.toList ++ " = ".toList ++
        o.value.chars 0 ++ ['\n'])
      (kind.tally .outputs) o.value.comments := by
    intro front hf
    simpa only [SectionKind.keyword, Nat.zero_add, List.append_assoc, List.cons_append,
      List.nil_append] using hf.append line
  refine behind _ ?_
  cases o.description? with
  | none => exact .nil
  | some text => exact .decorator (d := .description text) rfl

end Declarations

/-! ## Documents -/

namespace Document

/-- How many declarations a section of a document has; modules are not counted. -/
def declared (d : Document) : SectionKind → Nat
  | .parameters => d.parameters.length
  | .vars => d.vars.length
  | .resources => d.resources.length
  | .outputs => d.outputs.length

/-- The notes of a document under their title, if there are any. -/
def titledNotes (d : Document) : List String :=
  if d.notes.isEmpty then [] else d.notesTitle?.toList ++ d.notes

/-- The texts of a document that are written as they are, into comments and between quotes. -/
def unescapedTexts (d : Document) : List String :=
  d.header ++ d.titledNotes ++
    (d.parameters.flatMap Param.unescaped ++ d.vars.flatMap (·.value.comments) ++
      d.declarations.flatMap Declaration.unescaped ++ d.outputs.flatMap (·.value.comments))

/-- A document that declares something, and whose names and raw expressions are on one line
each. -/
structure Flat (d : Document) : Prop where
  metadata : ∀ entry ∈ d.metadata, isLine entry.1 = true
  parameters : ∀ p ∈ d.parameters, p.Flat
  vars : ∀ v ∈ d.vars, v.Flat
  declarations : ∀ x ∈ d.declarations, x.Flat
  outputs : ∀ o ∈ d.outputs, o.Flat
  declares : d.declarations ≠ []

end Document

section Documents

variable {kind : SectionKind} {d : Document}

theorem Holds.block {α : Type} {items : List α} {write : α → List Char}
    {texts : α → List String} (h : ∀ x ∈ items, Holds kind (write x) 0 (texts x)) :
    Holds kind (Document.block (items.map write)) 0 (items.flatMap texts) := by
  unfold Document.block
  split_ifs with none
  · obtain rfl : items = [] := by simpa using none
    exact .nil
  · have each := (Holds.each h).spaced
    rwa [Nat.mul_zero] at each

theorem Holds.commentLines (texts : List String) :
    Holds kind (Document.block (texts.map Document.commentLine)) 0 texts := by
  have each : Holds kind _ _ _ := .block fun text (_ : text ∈ texts) => .commentLine text
  rwa [List.flatMap_singleton'] at each

theorem Holds.scope (scope : TargetScope) :
    Holds kind ("targetScope = ".toList ++ Value.inQuotes scope.name.toList ++ ['\n', '\n'])
      0 [] := by
  have name : Continues kind (Value.inQuotes scope.name.toList) [] :=
    .flat (Value.notMem_inQuotes (by cases scope <;> decide))
  have line := (Holds.statement "targetScope = " (by decide) (by decide) name).spaced
  simpa only [List.append_assoc, List.singleton_append] using line

theorem Holds.metadata {key : String} (own : isLine key = true) (value : String) :
    Holds kind ("metadata ".toList ++ key.toList ++ " = ".toList ++ (Value.str value).chars 0 ++
      ['\n']) 0 [] := by
  have equals : Continues kind " = ".toList [] := .line (by decide)
  have line := Holds.statement "metadata " (by decide) (by decide)
    (((Continues.line own).append equals).append (continues_chars 0 (.str value) rfl))
  simpa only [Value.comments, List.append_assoc, List.append_nil] using line

theorem Holds.preamble (h : d.Flat) : Holds kind d.preamble 0 (d.header ++ d.titledNotes) := by
  have metadata : ∀ entry ∈ d.metadata, Holds kind ("metadata ".toList ++ entry.1.toList ++
      " = ".toList ++ (Value.str entry.2).chars 0 ++ ['\n']) 0 [] :=
    fun entry he => .metadata (h.metadata entry he) entry.2
  have notes : Holds kind (if d.notes.isEmpty then []
      else Document.block (d.notesTitle?.toList.map Document.commentLine ++
        d.notes.map Document.commentLine)) 0 d.titledNotes := by
    unfold Document.titledNotes
    split_ifs
    · exact .nil
    · rw [← List.map_append]
      exact .commentLines _
  have whole := (((Holds.commentLines d.header).append (Holds.scope d.scope)).append
    (Holds.block metadata)).append notes
  have none : (d.metadata.flatMap fun _ => ([] : List String)) = [] := by simp
  rw [none] at whole
  simpa only [Document.preamble, List.append_assoc, List.append_nil] using whole

theorem Holds.title (kind' : SectionKind) :
    Holds kind ("// === ".toList ++ kind'.title.toList ++ " ===\n\n".toList) 0 [] := by
  have own : '\n' ∉ '/' :: "/ === ".toList ++ kind'.title.toList ++ " ===".toList := by
    cases kind' <;> decide
  have opening : "// === ".toList = '/' :: "/ === ".toList := by decide
  have closing : " ===\n\n".toList = " ===".toList ++ ['\n', '\n'] := by decide
  have line : Holds kind ('/' :: ("/ === ".toList ++ kind'.title.toList ++ " ===".toList) ++ ['\n'])
      0 [] := Holds.other (by decide) (.flat own)
  rw [opening, closing]
  simpa only [List.append_assoc, List.cons_append, List.nil_append] using line.spaced

/-- A section holds what its items hold. -/
theorem Holds.sectionOf {α : Type} (kind' : SectionKind) {items : List α}
    {write : α → List Char} (count : α → Nat) {texts : α → List String}
    (h : ∀ x ∈ items, Holds kind (write x) (count x) (texts x)) :
    Holds kind ((Document.sectionOf kind' write items).flatMap Document.sectionChars)
      (items.map count).sum (items.flatMap texts) := by
  unfold Document.sectionOf
  split_ifs with none
  · obtain rfl : items = [] := by simpa using none
    exact .nil
  · have whole := (Holds.title kind').append (Holds.flatMap count h)
    rw [Nat.zero_add, List.nil_append] at whole
    rw [List.flatMap_singleton]
    exact whole

theorem Holds.variableChars {v : Variable} (h : v.Flat) :
    Holds kind (Document.variableChars v) (kind.tally .vars) v.value.comments := by
  unfold Document.variableChars
  split_ifs
  · exact (Holds.variable h).spaced
  · exact .variable h

/-- How many lines of a declaration begin with the keyword. -/
def Declaration.tally (kind : SectionKind) : Declaration → Nat
  | .resource _ => kind.tally .resources
  | .module _ => 0

theorem Holds.declaration {x : Declaration} (h : x.Flat) :
    Holds kind (x.chars ++ ['\n']) (x.tally kind) x.unescaped := by
  refine Holds.spaced ?_
  cases x with
  | resource r => exact .resource h
  | module m => exact .module h

theorem sum_tally (declarations : List Declaration) :
    (declarations.map (Declaration.tally kind)).sum =
      (declarations.filterMap Declaration.resource?).length * kind.tally .resources := by
  induction declarations with
  | nil => simp
  | cons x declarations ih =>
    rw [List.map_cons, List.sum_cons, ih]
    cases x with
    | resource r =>
      have first : Declaration.resource? (.resource r) = some r := rfl
      rw [List.filterMap_cons_some first, List.length_cons, Declaration.tally, Nat.succ_mul,
        Nat.add_comm]
    | module m =>
      have first : Declaration.resource? (.module m) = none := rfl
      rw [List.filterMap_cons_none first, Declaration.tally, Nat.zero_add]

/-- The text of a flat document, before its end is cut, holds its declarations. -/
theorem Holds.document (h : d.Flat) :
    Holds kind (d.preamble ++ d.sections.flatMap Document.sectionChars) (d.declared kind)
      d.unescapedTexts := by
  have parameters : Holds kind _ _ _ := .sectionOf .parameters (fun _ => kind.tally .parameters)
    fun p hp => (Holds.param (h.parameters p hp)).spaced
  have vars : Holds kind _ _ _ := .sectionOf .vars (fun _ => kind.tally .vars)
    fun v hv => Holds.variableChars (h.vars v hv)
  have resources : Holds kind _ _ _ := .sectionOf .resources (Declaration.tally kind)
    fun x hx => Holds.declaration (h.declarations x hx)
  have outputs : Holds kind _ _ _ := .sectionOf .outputs (fun _ => kind.tally .outputs)
    fun o ho => (Holds.output (h.outputs o ho)).spaced
  have whole :=
    (Holds.preamble h).append (((parameters.append vars).append resources).append outputs)
  have count : d.declared kind =
      0 + (d.parameters.length * kind.tally .parameters + d.vars.length * kind.tally .vars +
        d.resources.length * kind.tally .resources + d.outputs.length * kind.tally .outputs) := by
    cases kind <;> simp [Document.declared, SectionKind.tally]
  rw [List.map_const', List.map_const', List.map_const', List.sum_replicate_nat,
    List.sum_replicate_nat, List.sum_replicate_nat, sum_tally] at whole
  rw [count, Document.unescapedTexts, Document.sections, List.flatMap_append, List.flatMap_append,
    List.flatMap_append]
  exact whole

end Documents

/-! ## The end of a document -/

/-- Behind the last character of a text that is no blank there are line feeds only, and one at
least. -/
def EndsInLine (cs : List Char) : Prop :=
  ∃ front c feeds, cs = front ++ c :: '\n' :: feeds ∧ Text.isBlank c = false ∧
    ∀ f ∈ feeds, f = '\n'

theorem EndsInLine.line {cs : List Char} (h : endsSolid cs = true) : EndsInLine (cs ++ ['\n']) := by
  rw [endsSolid, Option.any_eq_true] at h
  obtain ⟨c, last, solid⟩ := h
  obtain ⟨front, rfl⟩ := List.getLast?_eq_some_iff.mp last
  exact ⟨front, c, [], by simp, by simpa using solid, by simp⟩

theorem EndsInLine.append_left {ys : List Char} (h : EndsInLine ys) (xs : List Char) :
    EndsInLine (xs ++ ys) := by
  obtain ⟨front, c, feeds, rfl, solid, all⟩ := h
  exact ⟨xs ++ front, c, feeds, by simp, solid, all⟩

theorem EndsInLine.spaced {cs : List Char} (h : EndsInLine cs) : EndsInLine (cs ++ ['\n']) := by
  obtain ⟨front, c, feeds, rfl, solid, all⟩ := h
  refine ⟨front, c, feeds ++ ['\n'], by simp, solid, ?_⟩
  rw [List.forall_mem_append]
  exact ⟨all, by simp⟩

theorem EndsInLine.flatMap {α : Type} {items : List α} {write : α → List Char} (some : items ≠ [])
    (h : ∀ x ∈ items, EndsInLine (write x)) : EndsInLine (items.flatMap write) := by
  rw [← List.dropLast_concat_getLast some, List.flatMap_append, List.flatMap_singleton]
  exact (h _ (List.getLast_mem some)).append_left _

theorem endsSolid_append {ys : List Char} (h : endsSolid ys = true) (xs : List Char) :
    endsSolid (xs ++ ys) = true := by
  cases last : ys.getLast? with
  | none => simp [endsSolid, last] at h
  | some c =>
    rw [endsSolid, last] at h
    rwa [endsSolid, List.getLast?_append, last]

theorem endsSolid_object (body : Body) : endsSolid ((Value.object body).chars 0) = true := by
  cases body with
  | nil => decide
  | cons e es =>
    rw [Value.chars_object_cons]
    exact endsSolid_append (by decide) _

theorem EndsInLine.declaration (x : Declaration) : EndsInLine x.chars := by
  cases x with
  | resource r => exact EndsInLine.line (endsSolid_append (endsSolid_object r.body) _)
  | module m => exact EndsInLine.line (endsSolid_append (endsSolid_object m.body) _)

theorem EndsInLine.output {o : Output} (h : endsSolid (o.value.chars 0) = true) :
    EndsInLine o.chars :=
  EndsInLine.line (endsSolid_append h _)

theorem EndsInLine.sectionOf {α : Type} (kind : SectionKind) {items : List α}
    {write : α → List Char} (some : items ≠ []) (h : ∀ x ∈ items, EndsInLine (write x)) :
    EndsInLine ((Document.sectionOf kind write items).flatMap Document.sectionChars) := by
  rw [Document.sectionOf, if_neg (by simpa using some), List.flatMap_singleton]
  exact (EndsInLine.flatMap some h).append_left _

theorem EndsInLine.document {d : Document} (h : d.Flat) :
    EndsInLine (d.preamble ++ d.sections.flatMap Document.sectionChars) := by
  rw [Document.sections, List.flatMap_append]
  by_cases none : d.outputs = []
  · -- the last section is that of the declarations
    have declarations := EndsInLine.sectionOf .resources h.declares
      fun x _ => (EndsInLine.declaration x).spaced
    have empty (write : Output → List Char) : Document.sectionOf .outputs write [] = [] := rfl
    rw [none, empty, List.flatMap_nil, List.append_nil, List.flatMap_append]
    exact (declarations.append_left _).append_left _
  · have outputs := EndsInLine.sectionOf .outputs none
      fun o ho => (EndsInLine.output (h.outputs o ho).solid).spaced
    exact (outputs.append_left _).append_left _

theorem dropBlanksEnd_append {c : Char} (solid : Text.isBlank c = false) {blanks : List Char}
    (h : ∀ b ∈ blanks, Text.isBlank b = true) (front : List Char) :
    Text.dropBlanksEnd (front ++ c :: blanks) = front ++ [c] := by
  rw [Text.dropBlanksEnd, List.reverse_append, List.reverse_cons, List.append_assoc,
    List.dropWhile_append_of_pos (by simpa using h), List.singleton_append,
    List.dropWhile_cons_of_neg (by simp [solid]), List.reverse_cons, List.reverse_reverse]

/-- Cutting the end of a text does not change the lines that begin with a keyword. -/
theorem begun_dropBlanksEnd (kind : SectionKind) {cs : List Char} (h : EndsInLine cs) :
    kind.begun (Text.splitOn '\n' (Text.dropBlanksEnd cs ++ ['\n'])) =
      kind.begun (Text.splitOn '\n' cs) := by
  obtain ⟨front, c, feeds, rfl, solid, all⟩ := h
  have empty : kind.begun (Text.splitOn '\n' []) = 0 := by cases kind <;> rfl
  have behind : kind.begun (Text.splitOn '\n' feeds) = 0 := by
    induction feeds with
    | nil => exact empty
    | cons f feeds ih =>
      rw [List.forall_mem_cons] at all
      obtain rfl := all.1
      have feed : Holds kind ['\n'] 0 [] := .feed
      have step := feed feeds
      simpa [ih all.2] using step
  have blank : ∀ b ∈ '\n' :: feeds, Text.isBlank b = true := by
    rw [List.forall_mem_cons]
    refine ⟨by decide, fun b hb => ?_⟩
    rw [all b hb]
    decide
  rw [dropBlanksEnd_append solid blank, Text.splitOn_append, List.append_cons front c (_ :: _),
    Text.splitOn_append, SectionKind.begun_append, SectionKind.begun_append, behind, empty]

/-- The lines of a flat document that begin with a keyword are as many as its declarations, and
those behind the first ones of the texts that are written as they are. -/
theorem begun_text {d : Document} (h : d.Flat) (kind : SectionKind) :
    kind.begun (Text.splitOn '\n' d.text.toList) =
      d.declared kind + kind.begun (continuationsOf d.unescapedTexts) := by
  have empty : kind.begun (Text.splitOn '\n' []) = 0 := by cases kind <;> rfl
  have document : Holds kind _ _ _ := .document h
  have whole := document []
  rw [List.append_nil, empty, Nat.add_zero] at whole
  rw [Document.text, Document.chars, String.toList_ofList,
    begun_dropBlanksEnd kind (EndsInLine.document h), whole]

end BicepForge.Bicep
