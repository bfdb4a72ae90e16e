import BicepForge.Check.Code
import BicepForge.Check.Schema
import BicepForge.Check.Template

/-!
# Checking any input

Each kind of document has its own check; a schema can also be used to check other documents.
-/

namespace BicepForge.Check

def checkInput : Input → Report
  | .resourceSchema schema => checkSchema schema
  | .template template => checkTemplate template
  | .bicep code => checkCode code

/-- The schema cannot be used. -/
structure SchemaFault where
  complaint : JsonSchema.Complaint

def SchemaFault.message (f : SchemaFault) : String :=
  "Schema does not compile: " ++ f.complaint.message

/-- Checks a document against a resource schema, which must be a proper JSON Schema. -/
def checkInstance (schema : ResourceSchema) (document : Json) : Except SchemaFault Report :=
  match JsonSchema.compile schema.document with
  | .error complaint => .error ⟨complaint⟩
  | .ok compiled =>
    let report := (Report.forDialect .resourceSchema).withErrors
      ((compiled.validate document).map JsonSchema.Violation.message)
    .ok (match document with
      | .obj entries =>
        report.note ("Instance has " ++ toString entries.length ++ " top-level properties")
      | _ => report)

end BicepForge.Check
