import BicepForge.Document.DeploymentTemplate
import BicepForge.Json.Reader

/-!
# Classifying input

What a user hands in is a resource schema, a deployment template or Bicep code. Text that opens
like JSON must be JSON; anything else is taken for code.
-/

namespace BicepForge

inductive Dialect where
  | resourceSchema
  | template
  | bicep
deriving DecidableEq, Repr

def Dialect.name : Dialect → String
  | resourceSchema => "JSON Schema"
  | template => "ARM Template"
  | bicep => "Bicep"

/-- A classified document. -/
inductive Input where
  | resourceSchema (schema : ResourceSchema)
  | template (template : DeploymentTemplate)
  | bicep (text : String)
deriving DecidableEq

inductive InputError where
  | malformed (error : JsonError)
  | empty
  | notAnObject
deriving DecidableEq

def InputError.message : InputError → String
  | malformed error => "Invalid JSON input: " ++ error.message
  | empty => "Unrecognized input: input is empty"
  | notAnObject => "Unrecognized input: expected a JSON object at the top level"

/-- The kind of document a user may insist on. -/
inductive InputMode where
  | auto
  | resource
  | template
  | bicep
deriving DecidableEq, Repr

namespace InputMode

def name : InputMode → String
  | auto => "auto"
  | resource => "resource"
  | template => "template"
  | bicep => "bicep"

def ofName? (name : String) : Option InputMode :=
  [auto, resource, template, bicep].find? (·.name == name)

end InputMode

namespace Input

def dialect : Input → Dialect
  | resourceSchema _ => .resourceSchema
  | template _ => .template
  | bicep _ => .bicep

/-- Templates are known by carrying both `$schema` and `resources`. -/
def isTemplate (document : Json) : Bool :=
  (document.get? "$schema").isSome && (document.get? "resources").isSome

def ofJson (document : Json) : Except InputError Input :=
  if document.isObject then
    .ok (if isTemplate document then template ⟨document⟩ else resourceSchema ⟨document⟩)
  else .error .notAnObject

def parseJson (text : String) : Except InputError Json :=
  (Json.parse text).mapError .malformed

/-- Classifies a text by its first character that is not blank. -/
def classify (text : String) : Except InputError Input :=
  match Text.trimChars text.toList with
  | [] => .error .empty
  | c :: cs =>
    if c = '\x7b' ∨ c = '[' then parseJson (String.ofList (c :: cs)) >>= ofJson
    else .ok (bicep text)

/-- Reads a text as the kind that the mode asks for. -/
def classifyAs (mode : InputMode) (text : String) : Except InputError Input :=
  match mode with
  | .auto => classify text
  | .resource => (parseJson text).map fun v => resourceSchema ⟨v⟩
  | .template => (parseJson text).map fun v => template ⟨v⟩
  | .bicep => .ok (bicep text)

end Input

end BicepForge
