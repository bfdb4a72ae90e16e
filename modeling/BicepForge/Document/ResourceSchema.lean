import BicepForge.Json.Printer
import BicepForge.Text.Blank

/-!
# Resource schemas

A JSON Schema that describes one kind of cloud resource. The document stays as it was written, and
the accessors read what they can from it: schemas are often incomplete or oddly shaped, and that
is for the checks to report.
-/

namespace BicepForge

/-- The text of a string value that says something. -/
def Json.wording? (v : Json) : Option String :=
  v.asString?.filter fun s => !Text.isBlankText s

/-- The resource type of an entry that names none: a nested deployment. -/
def nestedDeploymentType : String := "Microsoft.Resources/deployments"

def draft7Uri : String := "http://json-schema.org/draft-07/schema#"

/-- A JSON Schema document for one kind of resource. -/
structure ResourceSchema where
  document : Json
deriving DecidableEq

namespace ResourceSchema

def schemaUri? (s : ResourceSchema) : Option String :=
  s.document.string? "$schema"

/-- The `type` keyword, a null one counting as absent. -/
def declaredType? (s : ResourceSchema) : Option Json :=
  (s.document.get? "type").filter fun v => !v.isNull

/-- A type name as it stands in a list of alternatives. -/
def alternativeName (v : Json) : String :=
  v.asString?.getD v.compact

/-- The `type` keyword for a reader: alternatives are separated by bars. -/
def declaredTypeName? (s : ResourceSchema) : Option String :=
  s.declaredType?.map fun
    | .str name => name
    | .arr alternatives => String.intercalate " | " (alternatives.map alternativeName)
    | other => other.compact

def title? (s : ResourceSchema) : Option String :=
  (s.document.get? "title").bind Json.wording?

def description? (s : ResourceSchema) : Option String :=
  (s.document.get? "description").bind Json.wording?

def properties? (s : ResourceSchema) : Option (List (String × Json)) :=
  s.document.object? "properties"

def property? (name : String) (s : ResourceSchema) : Option Json :=
  s.properties?.bind (·.lookup name)

/-- The schemas of the resource's own settings, which stand under its `properties` property. -/
def settings? (s : ResourceSchema) : Option (List (String × Json)) :=
  (s.property? "properties").bind (·.object? "properties")

/-- The resource type: the constant of the `type` property, or the first of its choices. -/
def resourceType? (s : ResourceSchema) : Option String :=
  (s.property? "type").bind fun t =>
    match t.string? "const" with
    | some name => some name
    | none => ((t.array? "enum").bind List.head?).bind Json.asString?

/-- The API versions on offer: the choices of the `apiVersion` property, or its constant. -/
def apiVersions (s : ResourceSchema) : List String :=
  match s.property? "apiVersion" with
  | none => []
  | some v =>
    match v.array? "enum" with
    | some choices => choices.filterMap Json.asString?
    | none => (v.string? "const").toList

/-- The schema with other API versions on offer; none where it has no `apiVersion` property to
hold them. A constant gives way to the choices. -/
def withApiVersions? (versions : List String) (s : ResourceSchema) : Option ResourceSchema :=
  match s.document with
  | .obj top =>
    match top.lookup "properties" with
    | some (.obj properties) =>
      match properties.lookup "apiVersion" with
      | some (.obj keywords) =>
        let choices := Json.arr (versions.map Json.str)
        let keywords := Entries.put "enum" choices (Entries.swapRemove "const" keywords)
        let properties := Entries.put "apiVersion" (.obj keywords) properties
        some ⟨.obj (Entries.put "properties" (.obj properties) top)⟩
      | _ => none
    | _ => none
  | _ => none

/-- The schema view of one resource entry of a template, so that both kinds of input generate
alike. -/
def ofTemplateEntry (entry : Json) : ResourceSchema :=
  let type := (entry.string? "type").getD nestedDeploymentType
  let version := match entry.string? "apiVersion" with
    | none => []
    | some v => [("apiVersion", Json.obj [("type", .str "string"), ("enum", .arr [.str v])])]
  ⟨.obj
    [("$schema", .str draft7Uri),
     ("type", .str "object"),
     ("title", .str type),
     ("properties", .obj
       ([("type", Json.obj [("type", .str "string"), ("const", .str type)])] ++ version ++
        [("name", Json.obj [("type", .str "string")])]))]⟩

end ResourceSchema

end BicepForge
