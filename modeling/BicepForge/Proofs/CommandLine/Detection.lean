import BicepForge.Proofs.CommandLine.ExitCodes
import BicepForge.Proofs.Json.Surroundings
import Mathlib.Data.List.TakeWhile

/-!
# Detected and demanded kinds of documents

A text whose kind is detected can be read as that kind by demand too. The two ways differ in what may
stand around a document: detection takes all blanks away first, and a reader of JSON passes over its
four spaces alone.
-/

namespace BicepForge

/-- The mode that demands a kind of document. -/
def Dialect.mode : Dialect → InputMode
  | resourceSchema => .resource
  | template => .template
  | bicep => .bicep

namespace Input

/-! ## Blanks around a document -/

def blanksBefore (cs : List Char) : List Char :=
  cs.takeWhile Text.isBlank

/-- The blanks that a text ends with, behind something else. -/
def blanksBehind (cs : List Char) : List Char :=
  ((cs.dropWhile Text.isBlank).reverse.takeWhile Text.isBlank).reverse

theorem isBlank_of_mem_blanksBefore {c : Char} {cs : List Char} (h : c ∈ blanksBefore cs) :
    Text.isBlank c = true :=
  List.mem_takeWhile_imp h

theorem isBlank_of_mem_blanksBehind {c : Char} {cs : List Char} (h : c ∈ blanksBehind cs) :
    Text.isBlank c = true :=
  List.mem_takeWhile_imp (List.mem_reverse.mp h)

theorem blanks_around_trimChars (cs : List Char) :
    blanksBefore cs ++ (Text.trimChars cs ++ blanksBehind cs) = cs := by
  rw [blanksBehind, Text.trimChars, Text.dropBlanksEnd, ← List.reverse_append,
    List.takeWhile_append_dropWhile, List.reverse_reverse, blanksBefore,
    List.takeWhile_append_dropWhile]

/-- The refusal of the first blank around what a text says that is no space. -/
def strayBlank? (text : String) : Option JsonError :=
  let cs := text.toList
  (Json.Reader.strayBlank? (blanksBefore cs) (Text.trimChars cs) (blanksBehind cs)).map (·.toError cs)

/-! ## Detected kinds -/

theorem exists_of_parseJson {text : String} {v : Json} (h : parseJson text = .ok v) :
    Json.Reader.document text.toList = .ok v := by
  rw [parseJson, Json.parse] at h
  split at h
  · rename_i w read
    cases h
    exact read
  · cases h

theorem parseJson_of_trimChars {text : String} {v : Json}
    (h : parseJson (String.ofList (Text.trimChars text.toList)) = .ok v) :
    parseJson text =
      match strayBlank? text with
      | none => .ok v
      | some e => .error (.malformed e) := by
  have trimmed := exists_of_parseJson h
  rw [String.toList_ofList] at trimmed
  have before : ∀ c ∈ blanksBefore text.toList, Text.isBlank c = true :=
    fun c => isBlank_of_mem_blanksBefore
  have behind : ∀ c ∈ blanksBehind text.toList, Text.isBlank c = true :=
    fun c => isBlank_of_mem_blanksBehind
  have whole := Json.Reader.document_among_blanks before behind trimmed
  rw [blanks_around_trimChars] at whole
  rw [parseJson, Json.parse, whole, strayBlank?]
  cases Json.Reader.strayBlank? _ _ _ <;> rfl

/-- Why a text of a kind is refused if that kind is demanded: code never is. -/
def refusal? : Dialect → String → Option JsonError
  | .bicep, _ => none
  | .resourceSchema, text | .template, text => strayBlank? text

theorem refusal?_eq_none_iff (kind : Dialect) (text : String) :
    refusal? kind text = none ↔ kind = .bicep ∨
      ∀ c ∈ blanksBefore text.toList ++ blanksBehind text.toList, Json.Reader.isSpace c = true := by
  cases kind <;> simp [refusal?, strayBlank?, Json.Reader.strayBlank?_eq_none_iff]

theorem eq_of_ofJson {v : Json} {input : Input} (h : ofJson v = .ok input) :
    input = .template ⟨v⟩ ∨ input = .resourceSchema ⟨v⟩ := by
  rw [ofJson] at h
  split at h
  · rw [← Except.ok.inj h]
    split
    · exact .inl rfl
    · exact .inr rfl
  · cases h

/-- A text of a detected kind is read as the same document by demand, or refused for a blank. -/
theorem classifyAs_mode {text : String} {input : Input} (detected : classify text = .ok input) :
    classifyAs input.dialect.mode text =
      match refusal? input.dialect text with
      | none => .ok input
      | some e => .error (.malformed e) := by
  rw [classify] at detected
  split at detected
  · cases detected
  · rename_i c cs trimmed
    split at detected
    · rw [← trimmed] at detected
      cases read : parseJson (String.ofList (Text.trimChars text.toList)) with
      | error e =>
        rw [read] at detected
        cases detected
      | ok v =>
        rw [read] at detected
        rcases eq_of_ofJson detected with rfl | rfl
        all_goals
          rw [dialect, Dialect.mode, classifyAs, parseJson_of_trimChars read, refusal?]
          cases strayBlank? text <;> rfl
    · cases detected
      rfl

end Input

namespace CommandLine

variable {σ : Type}

theorem after_readInput {s : Site (StateM σ)} {path text : String} {w w₁ : σ}
    (read : (s.files.read path).run w = (.ok text, w₁)) (c : Console) :
    (readInput s path).after c w = ((.ok text, c), w₁) := by
  have accessed : (liftM (s.files.read path) : Task (StateM σ) (Except FileError String)).after c w =
      ((.ok (.ok text), c), w₁) := by
    rw [after_liftM, read]
  exact after_bind_ok accessed

/-- A check with the kind demanded that is detected does the same as the check that detects it,
unless a blank that is no space for a reader of JSON stands around the document. -/
theorem validate_detected (s : Site (StateM σ)) (q : ValidateRequest) (c : Console) {w w₁ : σ}
    {text : String} {input : Input} (read : (s.files.read q.file).run w = (.ok text, w₁))
    (detected : Input.classify text = .ok input) :
    (Input.classifyAs input.dialect.mode text =
      match Input.refusal? input.dialect text with
      | none => .ok input
      | some e => .error (.malformed e)) ∧
    ((validate s { q with mode := input.dialect.mode }).after c w =
      match Input.refusal? input.dialect text with
      | none => (validate s { q with mode := .auto }).after c w
      | some e => ((.error (.input (.malformed e)), c), w₁)) ∧
    (Input.refusal? input.dialect text = none ↔ input.dialect = .bicep ∨
      ∀ d ∈ Input.blanksBefore text.toList ++ Input.blanksBehind text.toList,
        Json.Reader.isSpace d = true) := by
  have demanded := Input.classifyAs_mode detected
  have first := after_readInput read c
  refine ⟨demanded, ?_, Input.refusal?_eq_none_iff _ _⟩
  cases refused : Input.refusal? input.dialect text with
  | none =>
    rw [refused] at demanded
    rw [validate, validate, after_bind_ok first, after_bind_ok first, demanded, Input.classifyAs,
      detected]
    rfl
  | some e =>
    rw [refused] at demanded
    rw [validate, after_bind_ok first, demanded]
    rfl

theorem validate_detected_among_spaces :
    let tree := treeOf [("s.json", "\n\x7b\x7d\n")]
    (validate treeSite { file := "s.json", mode := .resource }).after {} tree =
      (validate treeSite { file := "s.json" }).after {} tree := by
  intro tree
  have detected : Input.classify "\n\x7b\x7d\n" = .ok (.resourceSchema ⟨.obj []⟩) := by
    decide +kernel
  have spaces : Input.refusal? .resourceSchema "\n\x7b\x7d\n" = none := by decide +kernel
  have same := (validate_detected treeSite { file := "s.json" } {} (w := tree) rfl detected).2.1
  rw [Input.dialect, spaces] at same
  exact same

/-- A schema behind a no-break space passes the check, but for the one who says what it is. -/
theorem demanded_kind_refused :
    let text := "\u00a0\x7b\"type\":\"object\"\x7d"
    let tree := treeOf [("s.json", text)]
    Input.classify text = .ok (.resourceSchema ⟨.obj [("type", .str "object")]⟩) ∧
      Input.classifyAs .resource text = .error (.malformed ⟨.expectedValue, 1, 1⟩) ∧
      ((run treeSite ["validate", "s.json"]).run tree).1.status = .success ∧
      ((run treeSite ["validate", "s.json", "--mode", "resource"]).run tree).1.status =
        .templateError := by
  decide +kernel

end CommandLine

end BicepForge
