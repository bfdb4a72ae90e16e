import BicepForge.JsonSchema.Validation
import BicepForge.Report

/-!
# Checking resource schemas

Only a missing type makes a resource schema invalid; every other gap is a warning.
-/

namespace BicepForge.Check

/-- The properties by which a schema is known to describe a cloud resource. -/
def resourceProperties : List String :=
  ["apiVersion", "type", "name", "location", "properties"]

/-- Whether a property schema says something under a keyword. -/
def hasKeyword (schema : Json) (keyword : String) : Bool :=
  (schema.get? keyword).any fun v => !v.isNull

def when (condition : Bool) (text : String) : List String :=
  if condition then [text] else []

/-- Whether a property is there and none of the keywords is in its schema. -/
def lacksKeywords (schema : ResourceSchema) (property : String) (keywords : List String) : Bool :=
  (schema.property? property).any fun s => !keywords.any (hasKeyword s)

/-- What stops the document from being used as a JSON Schema. Only objects and booleans can be
schemas at all; anything else is told by its missing type. -/
def compileFault? (document : Json) : Option String :=
  match document with
  | .obj _ | .bool _ =>
    match JsonSchema.compile document with
    | .ok _ => none
    | .error complaint => some complaint.message
  | _ => none

def schemaWarnings (schema : ResourceSchema) : List String :=
  when schema.schemaUri?.isNone
    "Missing $schema property - recommended for JSON Schema validation" ++
  when (schema.title?.isNone && schema.description?.isNone)
    "Consider adding title or description for better documentation" ++
  when (lacksKeywords schema "apiVersion" ["enum", "pattern"])
    "apiVersion should constrain allowed values with enum or pattern" ++
  when (lacksKeywords schema "name" ["pattern", "minLength"])
    "Consider adding validation pattern or minLength for resource name" ++
  ((compileFault? schema.document).map fun fault =>
    "Schema does not compile as JSON Schema: " ++ fault).toList

def schemaInfo (schema : ResourceSchema) : List String :=
  let properties := schema.properties?.getD []
  let known := resourceProperties.filter fun name => (properties.lookup name).isSome
  ["Schema type: " ++ schema.declaredTypeName?.getD "unknown",
   "Properties defined: " ++ toString properties.length] ++
  when (!known.isEmpty) ("Bicep properties detected: " ++ String.intercalate ", " known)

def checkSchema (schema : ResourceSchema) : Report :=
  (((Report.forDialect .resourceSchema).withErrors
    (when schema.declaredTypeName?.isNone "Missing required \"type\" property")).withWarnings
      (schemaWarnings schema)).withNotes (schemaInfo schema)

end BicepForge.Check
