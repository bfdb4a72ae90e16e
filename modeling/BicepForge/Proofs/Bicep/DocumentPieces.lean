import BicepForge.Proofs.Bicep.DocumentLines
import BicepForge.Proofs.Bicep.Pieces

/-!
# The pieces of a document

The text of a document is that of its pieces but for the blanks at its end, and the open pieces are
those of its values, of its types and paths, and of its names.
-/

namespace BicepForge.Bicep

/-! ## Comments -/

def commentPieces (text : String) : List Piece :=
  [.comment text, .code ['\n']]

theorem chars_commentPieces (text : String) :
    (commentPieces text).flatMap Piece.chars = Document.commentLine text := by
  simp [commentPieces, Document.commentLine]

theorem filter_commentPieces (text : String) :
    (commentPieces text).filter Piece.isOpen = (Piece.comment text).opening := by
  rw [commentPieces, Value.filter_cons, Value.filter_code (by decide)]
  exact List.append_nil _

/-! ## Declarations -/

theorem dollar_notMem_toString (n : Nat) : '$' ∉ (toString n).toList := by
  rw [Nat.toString_eq_repr, Nat.toList_repr]
  intro mem
  exact absurd (Number.isDigit_of_mem_toDigits mem) (by decide)

theorem dollar_notMem_type (t : Ty) : '$' ∉ ' ' :: t.name.toList := by
  cases t <;> decide

/-- The argument of a decorator does not open a hole by the name ahead of it. -/
theorem dollar_notMem_annotated {name : String} (hn : '$' ∉ name.toList) {argument : List Char}
    (h : '$' ∉ argument) : '$' ∉ Decorator.annotation name argument := by
  simp [Decorator.annotation, hn, h]

namespace Decorator

def pieces : Decorator → List Piece
  | description text => [.code "@description(".toList, .literal text, .code [')']]
  | allowed values => .code "@allowed(".toList :: (Value.array values).pieces 0 ++ [.code [')']]
  | note text => [.comment text]
  | d => [.code d.chars]

def openings : Decorator → List Piece
  | allowed values => Value.openingsOfItems values
  | note text => (Piece.comment text).opening
  | _ => []

theorem chars_pieces (d : Decorator) : d.pieces.flatMap Piece.chars = d.chars := by
  cases d with
  | allowed values =>
    rw [pieces, List.cons_append, List.flatMap_cons, List.flatMap_append, Value.chars_pieces]
    rfl
  | _ => simp [pieces, chars, annotation, Piece.chars]

theorem filter_pieces (d : Decorator) : d.pieces.filter Piece.isOpen = d.openings := by
  cases d with
  | description text =>
    rw [pieces, Value.filter_code (by decide), Value.filter_cons,
      Piece.opening_of_closed (Piece.isOpen_literal text), Value.filter_code (by decide)]
    rfl
  | allowed values =>
    rw [pieces, List.cons_append, Value.filter_code (by decide), List.filter_append,
      Value.filter_pieces, Value.filter_code (by decide), List.filter_nil, List.append_nil]
    rfl
  | minLength n | maxLength n =>
    exact Value.filter_code (dollar_notMem_annotated (by decide) (dollar_notMem_toString n)) []
  | minValue i | maxValue i =>
    have number := Value.dollar_notMem_text (.int i)
    exact Value.filter_code (dollar_notMem_annotated (by decide) number) []
  | secure => rfl
  | note text => exact Piece.filter_singleton _

end Decorator

/-- The pieces behind a name that has a value. -/
def valuePieces (v : Value) : List Piece :=
  .code " = ".toList :: v.pieces 0

theorem chars_valuePieces (v : Value) :
    (valuePieces v).flatMap Piece.chars = " = ".toList ++ v.chars 0 := by
  rw [valuePieces, List.flatMap_cons, Value.chars_pieces]
  rfl

theorem filter_valuePieces (v : Value) :
    (valuePieces v).filter Piece.isOpen = v.openings := by
  rw [valuePieces, Value.filter_code (by decide), Value.filter_pieces]

namespace Param

def pieces (p : Param) : List Piece :=
  (p.decorators.flatMap fun d => d.pieces ++ [.code ['\n']]) ++
    [.code "param ".toList, .code p.name.toList, .code (' ' :: p.type.name.toList)] ++
    (match p.default? with
      | none => []
      | some v => valuePieces v) ++ [.code ['\n']]

def openings (p : Param) : List Piece :=
  p.decorators.flatMap Decorator.openings ++ (Piece.code p.name.toList).opening ++
    (p.default?.map Value.openings).getD []

theorem chars_pieces (p : Param) : p.pieces.flatMap Piece.chars = p.chars := by
  have decorated : (p.decorators.flatMap fun d => d.pieces ++ [.code ['\n']]).flatMap Piece.chars =
      p.decorators.flatMap fun d => d.chars ++ ['\n'] := by
    rw [List.flatMap_assoc]
    refine List.flatMap_congr fun d _ => ?_
    rw [List.flatMap_append, Decorator.chars_pieces]
    rfl
  rw [pieces, chars, List.flatMap_append, List.flatMap_append, List.flatMap_append, decorated]
  cases p.default? with
  | none => simp
  | some v => simp [chars_valuePieces]

theorem filter_pieces (p : Param) : p.pieces.filter Piece.isOpen = p.openings := by
  have decorated : (p.decorators.flatMap fun d => d.pieces ++ [.code ['\n']]).filter Piece.isOpen =
      p.decorators.flatMap Decorator.openings := by
    rw [List.filter_flatMap]
    refine List.flatMap_congr fun d _ => ?_
    rw [List.filter_append, Decorator.filter_pieces, Value.filter_code (by decide),
      List.filter_nil, List.append_nil]
  have default : (match p.default? with
      | none => []
      | some v => valuePieces v).filter Piece.isOpen = (p.default?.map Value.openings).getD [] := by
    cases p.default? with
    | none => rfl
    | some v => exact filter_valuePieces v
  rw [pieces, openings, List.filter_append, List.filter_append, List.filter_append, decorated,
    default, Value.filter_code (by decide), Value.filter_cons,
    Value.filter_code (dollar_notMem_type _), List.filter_nil, List.append_nil,
    Value.filter_code (by decide), List.filter_nil, List.append_nil]

end Param

namespace Variable

def pieces (v : Variable) : List Piece :=
  [.code "var ".toList, .code v.name.toList] ++ valuePieces v.value ++ [.code ['\n']]

def openings (v : Variable) : List Piece :=
  (Piece.code v.name.toList).opening ++ v.value.openings

theorem chars_pieces (v : Variable) : v.pieces.flatMap Piece.chars = v.chars := by
  show _ = "var ".toList ++ v.name.toList ++ " = ".toList ++ v.value.chars 0 ++ ['\n']
  rw [pieces, List.flatMap_append, List.flatMap_append, chars_valuePieces]
  simp

theorem filter_pieces (v : Variable) : v.pieces.filter Piece.isOpen = v.openings := by
  rw [pieces, openings, List.filter_append, List.filter_append, Value.filter_code (by decide),
    Value.filter_cons, filter_valuePieces, Value.filter_code (by decide), List.filter_nil,
    List.append_nil, List.append_nil]

end Variable

/-- The pieces of a declared body, behind a keyword, a symbol and what stands between quotes. -/
def declaredPieces (keyword : List Char) (symbol reference : String) (suffix : List Char)
    (body : Body) : List Piece :=
  [.code keyword, .code symbol.toList, .code [' '], .reference reference, .code suffix] ++
    valuePieces (.object body) ++ [.code ['\n']]

theorem chars_declaredPieces (keyword : List Char) (symbol reference : String)
    (suffix : List Char) (body : Body) :
    (declaredPieces keyword symbol reference suffix body).flatMap Piece.chars =
      keyword ++ symbol.toList ++ ' ' :: Value.inQuotes reference.toList ++ suffix ++
        " = ".toList ++ (Value.object body).chars 0 ++ ['\n'] := by
  rw [declaredPieces, List.flatMap_append, List.flatMap_append, chars_valuePieces]
  simp [Piece.chars]

theorem filter_declaredPieces {keyword suffix : List Char} (hk : '$' ∉ keyword)
    (hs : '$' ∉ suffix) (symbol reference : String) (body : Body) :
    (declaredPieces keyword symbol reference suffix body).filter Piece.isOpen =
      (Piece.code symbol.toList).opening ++ (Piece.reference reference).opening ++
        Value.openingsOfBody body := by
  rw [declaredPieces, List.filter_append, List.filter_append, Value.filter_code hk,
    Value.filter_cons, Value.filter_code (by decide), Value.filter_cons, Value.filter_code hs,
    filter_valuePieces, Value.filter_code (by decide), List.filter_nil, List.append_nil,
    List.append_nil]
  rfl

namespace Declaration

/-- What stands between quotes ahead of the body. -/
def reference : Declaration → String
  | resource r => r.typeReference
  | module m => m.path

/-- The comment ahead of a declaration. -/
def comment? : Declaration → Option String
  | resource r => r.comment?
  | module _ => none

def pieces : Declaration → List Piece
  | resource r =>
    r.comment?.toList.flatMap commentPieces ++
      declaredPieces "resource ".toList r.symbol r.typeReference
        (if r.existing then " existing".toList else []) r.body
  | module m => declaredPieces "module ".toList m.symbol m.path [] m.body

def openings (d : Declaration) : List Piece :=
  d.comment?.toList.flatMap (fun text => (Piece.comment text).opening) ++
    ((Piece.code d.symbol.toList).opening ++ (Piece.reference d.reference).opening ++
      Value.openingsOfBody d.body)

/-- A declaration under a symbol without dollar signs, and behind a comment of one line if any. -/
theorem openings_of_symbol {d : Declaration} (hs : '$' ∉ d.symbol.toList)
    (hc : ∀ text ∈ d.comment?, '\n' ∉ text.toList) :
    d.openings = (Piece.reference d.reference).opening ++ Value.openingsOfBody d.body := by
  have comment : d.comment?.toList.flatMap (fun text => (Piece.comment text).opening) = [] := by
    rw [List.flatMap_eq_nil_iff]
    exact fun text mem => Piece.opening_comment (hc text (Option.mem_toList.mp mem))
  rw [openings, comment, Piece.opening_code hs, List.nil_append, List.nil_append]

theorem chars_pieces (d : Declaration) : d.pieces.flatMap Piece.chars = d.chars := by
  cases d with
  | resource r =>
    rw [pieces, List.flatMap_append, chars_declaredPieces, chars, Resource.chars]
    cases r.comment? with
    | none => rfl
    | some text =>
      rw [Option.toList_some, List.flatMap_singleton, chars_commentPieces]
      simp only [Document.commentLine, List.append_assoc, List.cons_append]
  | module m =>
    refine (chars_declaredPieces _ m.symbol m.path [] m.body).trans ?_
    exact congrArg (· ++ " = ".toList ++ (Value.object m.body).chars 0 ++ ['\n'])
      (List.append_nil _)

theorem filter_pieces (d : Declaration) : d.pieces.filter Piece.isOpen = d.openings := by
  cases d with
  | resource r =>
    have suffix : '$' ∉ (if r.existing then " existing".toList else []) := by
      split <;> decide
    rw [pieces, List.filter_append, List.filter_flatMap, funext filter_commentPieces,
      filter_declaredPieces (by decide) suffix]
    rfl
  | module m => exact filter_declaredPieces (by decide) (by decide) _ _ _

end Declaration

namespace Output

def pieces (o : Output) : List Piece :=
  (o.description?.map fun text => (Decorator.description text).pieces ++ [.code ['\n']]).getD [] ++
    [.code "output ".toList, .code o.name.toList, .code (' ' :: o.type.name.toList)] ++
    valuePieces o.value ++ [.code ['\n']]

def openings (o : Output) : List Piece :=
  (Piece.code o.name.toList).opening ++ o.value.openings

theorem chars_pieces (o : Output) : o.pieces.flatMap Piece.chars = o.chars := by
  have named : [Piece.code "output ".toList, .code o.name.toList,
      .code (' ' :: o.type.name.toList)].flatMap Piece.chars =
      "output ".toList ++ o.name.toList ++ ' ' :: o.type.name.toList := by
    simp
  rw [pieces, chars, List.flatMap_append, List.flatMap_append, List.flatMap_append,
    chars_valuePieces, named]
  cases o.description? with
  | none => simp
  | some text => simp [Decorator.chars_pieces]

theorem filter_pieces (o : Output) : o.pieces.filter Piece.isOpen = o.openings := by
  have described : ((o.description?.map fun text => (Decorator.description text).pieces ++
      [.code ['\n']]).getD []).filter Piece.isOpen = [] := by
    cases o.description? with
    | none => rfl
    | some text =>
      rw [Option.map_some, Option.getD_some, List.filter_append, Decorator.filter_pieces]
      rfl
  rw [pieces, openings, List.filter_append, List.filter_append, List.filter_append, described,
    Value.filter_code (by decide), Value.filter_cons, Value.filter_code (dollar_notMem_type _),
    filter_valuePieces, Value.filter_code (by decide), List.filter_nil, List.append_nil,
    List.append_nil, List.nil_append]

end Output

/-! ## Documents -/

namespace Document

/-- The pieces of items with an empty line behind them, if there are any. -/
def blockPieces {α : Type} (write : α → List Piece) (items : List α) : List Piece :=
  if items.isEmpty then [] else items.flatMap write ++ [.code ['\n']]

def metadataPieces (entry : String × String) : List Piece :=
  [.code "metadata ".toList, .code entry.1.toList] ++ valuePieces (.str entry.2) ++ [.code ['\n']]

def preamblePieces (d : Document) : List Piece :=
  blockPieces commentPieces d.header ++
    [.code "targetScope = ".toList, .reference d.scope.name, .code ['\n', '\n']] ++
    blockPieces metadataPieces d.metadata ++ blockPieces commentPieces d.titledNotes

/-- The pieces of a section under its heading, unless nothing is in it. -/
def sectionPieces {α : Type} (kind : SectionKind) (write : α → List Piece) (items : List α) :
    List Piece :=
  if items.isEmpty then []
  else [.comment ("=== " ++ kind.title ++ " ==="), .code ['\n', '\n']] ++ items.flatMap write

/-- The pieces of a document, up to the blanks at its end. -/
def pieces (d : Document) : List Piece :=
  d.preamblePieces ++
    (sectionPieces .parameters (fun p => p.pieces ++ [.code ['\n']]) d.parameters ++
      sectionPieces .vars
        (fun v => v.pieces ++
          [.code (if '\n' ∈ Text.dropBlanksEnd v.chars then ['\n'] else [])]) d.vars ++
      sectionPieces .resources (fun r => r.pieces ++ [.code ['\n']]) d.declarations ++
      sectionPieces .outputs (fun o => o.pieces ++ [.code ['\n']]) d.outputs)

def openings (d : Document) : List Piece :=
  d.header.flatMap (fun text => (Piece.comment text).opening) ++
    d.metadata.flatMap (fun entry => (Piece.code entry.1.toList).opening) ++
    d.titledNotes.flatMap (fun text => (Piece.comment text).opening) ++
    d.parameters.flatMap Param.openings ++ d.vars.flatMap Variable.openings ++
    d.declarations.flatMap Declaration.openings ++ d.outputs.flatMap Output.openings

/-! ### The text of the pieces -/

theorem chars_blockPieces {α : Type} {write : α → List Piece} {text : α → List Char}
    (h : ∀ x, (write x).flatMap Piece.chars = text x) (items : List α) :
    (blockPieces write items).flatMap Piece.chars = block (items.map text) := by
  unfold blockPieces block
  cases items with
  | nil => rfl
  | cons x xs =>
    rw [if_neg (by simp), if_neg (by simp), List.flatMap_append, List.flatMap_assoc, funext h]
    rfl

theorem chars_metadataPieces (entry : String × String) :
    (metadataPieces entry).flatMap Piece.chars =
      "metadata ".toList ++ entry.1.toList ++ " = ".toList ++ (Value.str entry.2).chars 0 ++
        ['\n'] := by
  rw [metadataPieces, List.flatMap_append, List.flatMap_append, chars_valuePieces]
  simp

theorem chars_preamblePieces (d : Document) :
    d.preamblePieces.flatMap Piece.chars = d.preamble := by
  have scope : [Piece.code "targetScope = ".toList, .reference d.scope.name,
      .code ['\n', '\n']].flatMap Piece.chars =
      "targetScope = ".toList ++ Value.inQuotes d.scope.name.toList ++ ['\n', '\n'] := by
    simp [Piece.chars]
  have notes : (blockPieces commentPieces d.titledNotes).flatMap Piece.chars =
      if d.notes.isEmpty then []
      else block (d.notesTitle?.toList.map commentLine ++ d.notes.map commentLine) := by
    rw [chars_blockPieces chars_commentPieces, titledNotes]
    split
    · rfl
    · rw [List.map_append]
  rw [preamblePieces, preamble, List.flatMap_append, List.flatMap_append, List.flatMap_append,
    chars_blockPieces chars_commentPieces, chars_blockPieces chars_metadataPieces, scope, notes]
  simp only [List.append_assoc]

theorem chars_sectionPieces {α : Type} (kind : SectionKind) {write : α → List Piece}
    {text : α → List Char} (h : ∀ x, (write x).flatMap Piece.chars = text x) (items : List α) :
    (sectionPieces kind write items).flatMap Piece.chars =
      (sectionOf kind text items).flatMap sectionChars := by
  have title : [Piece.comment ("=== " ++ kind.title ++ " ==="), .code ['\n', '\n']].flatMap
      Piece.chars = "// === ".toList ++ kind.title.toList ++ " ===\n\n".toList := by
    cases kind <;> rfl
  unfold sectionPieces sectionOf
  cases items with
  | nil => rfl
  | cons x xs =>
    rw [if_neg (by simp), if_neg (by simp), List.flatMap_append, title, List.flatMap_assoc,
      funext h, List.flatMap_singleton]
    rfl

/-- The text of a document is that of its pieces, without the blanks at the end. -/
theorem chars_pieces (d : Document) :
    d.chars = Text.dropBlanksEnd (d.pieces.flatMap Piece.chars) ++ ['\n'] := by
  have line {ps : List Piece} {cs : List Char} (h : ps.flatMap Piece.chars = cs)
      (ending : List Char) :
      (ps ++ [Piece.code ending]).flatMap Piece.chars = cs ++ ending := by
    rw [List.flatMap_append, h, List.flatMap_singleton, Piece.chars_code]
  have vars (v : Variable) : (v.pieces ++ [Piece.code
      (if '\n' ∈ Text.dropBlanksEnd v.chars then ['\n'] else [])]).flatMap Piece.chars =
      variableChars v := by
    rw [line v.chars_pieces, variableChars]
    split
    · rfl
    · exact List.append_nil _
  rw [chars, pieces, List.flatMap_append, List.flatMap_append, List.flatMap_append,
    List.flatMap_append, chars_preamblePieces, sections, List.flatMap_append, List.flatMap_append,
    List.flatMap_append, chars_sectionPieces _ (fun p : Param => line p.chars_pieces ['\n']),
    chars_sectionPieces _ vars,
    chars_sectionPieces _ (fun r : Declaration => line r.chars_pieces ['\n']),
    chars_sectionPieces _ (fun o : Output => line o.chars_pieces ['\n'])]

/-! ### The open pieces -/

theorem filter_blockPieces {α : Type} {write openings : α → List Piece}
    (h : ∀ x, (write x).filter Piece.isOpen = openings x) (items : List α) :
    (blockPieces write items).filter Piece.isOpen = items.flatMap openings := by
  unfold blockPieces
  cases items with
  | nil => rfl
  | cons x xs =>
    rw [if_neg (by simp), List.filter_append, Value.filter_code (by decide), List.filter_nil,
      List.append_nil, List.filter_flatMap, funext h]

theorem filter_sectionPieces {α : Type} (kind : SectionKind) {write openings : α → List Piece}
    (h : ∀ x, (write x).filter Piece.isOpen = openings x) (items : List α) :
    (sectionPieces kind write items).filter Piece.isOpen = items.flatMap openings := by
  have title : '\n' ∉ ("=== " ++ kind.title ++ " ===").toList := by
    cases kind <;> decide
  unfold sectionPieces
  cases items with
  | nil => rfl
  | cons x xs =>
    rw [if_neg (by simp), List.filter_append, Value.filter_cons, Piece.opening_comment title,
      Value.filter_code (by decide), List.filter_flatMap, funext h]
    rfl

theorem filter_preamblePieces (d : Document) :
    d.preamblePieces.filter Piece.isOpen =
      d.header.flatMap (fun text => (Piece.comment text).opening) ++
        d.metadata.flatMap (fun entry => (Piece.code entry.1.toList).opening) ++
        d.titledNotes.flatMap fun text => (Piece.comment text).opening := by
  have metadata (entry : String × String) : (metadataPieces entry).filter Piece.isOpen =
      (Piece.code entry.1.toList).opening := by
    rw [metadataPieces, List.filter_append, List.filter_append, Value.filter_code (by decide),
      Value.filter_cons, filter_valuePieces, Value.filter_code (by decide), List.filter_nil,
      List.append_nil, List.append_nil]
    exact List.append_nil _
  have scope : (Piece.reference d.scope.name).opening = [] := by
    cases d.scope <;> rfl
  rw [preamblePieces, List.filter_append, List.filter_append, List.filter_append,
    filter_blockPieces filter_commentPieces, filter_blockPieces filter_commentPieces,
    filter_blockPieces metadata, Value.filter_code (by decide), Value.filter_cons, scope,
    Value.filter_code (by decide), List.filter_nil, List.append_nil, List.append_nil]

/-- The open pieces of a document are those of its values, keys, types and paths. -/
theorem filter_pieces (d : Document) : d.pieces.filter Piece.isOpen = d.openings := by
  have line {ps os : List Piece} (h : ps.filter Piece.isOpen = os) {ending : List Char}
      (own : '$' ∉ ending) : (ps ++ [Piece.code ending]).filter Piece.isOpen = os := by
    rw [List.filter_append, h, Value.filter_code own, List.filter_nil, List.append_nil]
  have ending (v : Variable) :
      '$' ∉ (if '\n' ∈ Text.dropBlanksEnd v.chars then ['\n'] else []) := by
    split <;> decide
  rw [pieces, openings, List.filter_append, List.filter_append, List.filter_append,
    List.filter_append, filter_preamblePieces,
    filter_sectionPieces _ fun p : Param => line p.filter_pieces (by decide),
    filter_sectionPieces _ fun v : Variable => line v.filter_pieces (ending v),
    filter_sectionPieces _ fun r : Declaration => line r.filter_pieces (by decide),
    filter_sectionPieces _ fun o : Output => line o.filter_pieces (by decide)]
  simp only [List.append_assoc]

/-- The text of a document comes in pieces, but for the blanks at its end. Open ones among them are
its own templates and those foreign pieces that open a hole: so only its own templates are open
exactly if no foreign piece opens one. -/
structure Opens (d : Document) (foreign : List Piece) (own : List String) : Prop where
  text : d.chars = Text.dropBlanksEnd (d.pieces.flatMap Piece.chars) ++ ['\n']
  origins : Origins (d.pieces.filter Piece.isOpen) foreign own
  own_iff : (∀ p ∈ d.pieces, p.isOpen = true → p ∈ own.map .template) ↔
    ∀ p ∈ foreign, p.isOpen = false

theorem opens_of_origins {d : Document} {foreign : List Piece} {own : List String}
    (origins : Origins d.openings foreign own) : d.Opens foreign own := by
  rw [← d.filter_pieces] at origins
  refine ⟨d.chars_pieces, origins, ?_, ?_⟩
  · intro only p hp
    rw [← Bool.not_eq_true]
    intro opens
    have mem := (List.mem_filter.mp ((origins.mem_iff p).mpr (.inl ⟨hp, opens⟩))).1
    obtain ⟨text, -, same⟩ := List.mem_map.mp (only p mem opens)
    exact origins.apart p hp text same.symm
  · intro closed p mem opens
    refine ((origins.mem_iff p).mp (List.mem_filter.mpr ⟨mem, opens⟩)).resolve_left ?_
    rintro ⟨hp, -⟩
    rw [closed p hp] at opens
    cases opens

end Document

end BicepForge.Bicep
