import BicepForge.Bicep.Declaration
import BicepForge.Document.DeploymentTemplate
import BicepForge.TargetScope

/-!
# Bicep documents

A document is its declarations; text and parameters file are made from them. Empty sections are
left out, and the text ends with exactly one line feed.
-/

namespace BicepForge.Bicep

structure Document where
  header : List String := []
  scope : TargetScope
  metadata : List (String × String) := []
  notesTitle? : Option String := none
  notes : List String := []
  parameters : List Param := []
  vars : List Variable := []
  declarations : List Declaration := []
  outputs : List Output := []

/-- The named parts of a document, in their order. -/
inductive SectionKind where
  | parameters
  | vars
  | resources
  | outputs
deriving DecidableEq, Repr

def SectionKind.title : SectionKind → String
  | parameters => "PARAMETERS"
  | vars => "VARIABLES"
  | resources => "RESOURCES"
  | outputs => "OUTPUTS"

structure DocumentSection where
  kind : SectionKind
  chars : List Char

namespace Document

def param? (d : Document) (name : String) : Option Param :=
  d.parameters.find? (·.name == name)

def hasParam (d : Document) (name : String) : Bool :=
  (d.param? name).isSome

def var? (d : Document) (name : String) : Option Variable :=
  d.vars.find? (·.name == name)

def resources (d : Document) : List Resource :=
  d.declarations.filterMap Declaration.resource?

def modules (d : Document) : List Module :=
  d.declarations.filterMap Declaration.module?

def resource? (d : Document) (symbol : String) : Option Resource :=
  d.resources.find? (·.symbol == symbol)

def output? (d : Document) (name : String) : Option Output :=
  d.outputs.find? (·.name == name)

def commentLine (text : String) : List Char :=
  '/' :: '/' :: ' ' :: text.toList ++ ['\n']

/-- A variable with an empty line behind it if it takes several lines. -/
def variableChars (v : Variable) : List Char :=
  if '\n' ∈ Text.dropBlanksEnd v.chars then v.chars ++ ['\n'] else v.chars

def sectionOf {α : Type} (kind : SectionKind) (write : α → List Char) (items : List α) :
    List DocumentSection :=
  if items.isEmpty then [] else [⟨kind, items.flatMap write⟩]

def sections (d : Document) : List DocumentSection :=
  sectionOf .parameters (fun p => p.chars ++ ['\n']) d.parameters ++
    sectionOf .vars variableChars d.vars ++
    sectionOf .resources (fun r => r.chars ++ ['\n']) d.declarations ++
    sectionOf .outputs (fun o => o.chars ++ ['\n']) d.outputs

/-- Lines with an empty one behind them, if there are any. -/
def block (lines : List (List Char)) : List Char :=
  if lines.isEmpty then [] else lines.flatten ++ ['\n']

def preamble (d : Document) : List Char :=
  block (d.header.map commentLine) ++
    "targetScope = ".toList ++ Value.inQuotes d.scope.name.toList ++ ['\n', '\n'] ++
    block (d.metadata.map fun (key, value) =>
      "metadata ".toList ++ key.toList ++ " = ".toList ++ (Value.str value).chars 0 ++ ['\n']) ++
    (if d.notes.isEmpty then []
      else block (d.notesTitle?.toList.map commentLine ++ d.notes.map commentLine))

def sectionChars (s : DocumentSection) : List Char :=
  "// === ".toList ++ s.kind.title.toList ++ " ===\n\n".toList ++ s.chars

def chars (d : Document) : List Char :=
  Text.dropBlanksEnd (d.preamble ++ d.sections.flatMap sectionChars) ++ ['\n']

/-- The text of a document. -/
def text (d : Document) : String :=
  String.ofList d.chars

/-- The entries of a parameters file: every parameter with a literal default. -/
def parameterEntries (parameters : List Param) : List (String × Json) :=
  parameters.foldl
    (fun entries p =>
      match p.default?.bind Value.toJson? with
      | none => entries
      | some v => Entries.put p.name (.obj [("value", v)]) entries)
    []

/-- The parameters file that goes with a document. -/
def parametersFile (d : Document) : Json :=
  .obj
    [("$schema", .str DeploymentTemplate.parametersSchemaUri),
     ("contentVersion", .str "1.0.0.0"),
     ("parameters", .obj (parameterEntries d.parameters))]

end Document

end BicepForge.Bicep
