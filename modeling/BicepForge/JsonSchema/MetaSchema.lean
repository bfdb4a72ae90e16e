import BicepForge.Json.Basic

/-!
# Meta-schemas

The schemas that describe schemas, one for each draft. The order of their keywords decides which
fault of a schema is reported first.
-/

namespace BicepForge.JsonSchema

/-- The drafts of JSON Schema that are told apart. -/
inductive Draft where
  | draft4
  | draft6
  | draft7
deriving DecidableEq, Repr

namespace MetaSchema

open Json (int)

/-- The schema that a schema must satisfy again. -/
def anySchema : Json :=
  .obj [("$ref", .str "#")]

def ofType (name : String) : Json :=
  .obj [("type", .str name)]

def defined (name : String) : Json :=
  .obj [("$ref", .str ("#/definitions/" ++ name))]

def draft4 : Json :=
  .obj [
    ("$schema", .str "http://json-schema.org/draft-04/schema#"),
    ("default", .obj []),
    ("definitions", .obj [
      ("positiveInteger", .obj [("minimum", int 0), ("type", .str "integer")]),
      ("positiveIntegerDefault0", .obj [("allOf", .arr [defined "positiveInteger",
        .obj [("default", int 0)]])]),
      ("schemaArray", .obj [("items", anySchema), ("minItems", int 1), ("type", .str "array")]),
      ("simpleTypes", .obj [("enum", .arr [.str "array", .str "boolean", .str "integer",
        .str "null", .str "number", .str "object", .str "string"])]),
      ("stringArray", .obj [("items", ofType "string"), ("minItems", int 1), ("type",
        .str "array"), ("uniqueItems", .bool true)])]),
    ("dependencies", .obj [("exclusiveMaximum", .arr [.str "maximum"]), ("exclusiveMinimum",
      .arr [.str "minimum"])]),
    ("description", .str "Core schema meta-schema"),
    ("id", .str "http://json-schema.org/draft-04/schema#"),
    ("properties", .obj [
      ("$schema", .obj [("format", .str "uri"), ("type", .str "string")]),
      ("additionalItems", .obj [("anyOf", .arr [.obj [("type", .str "boolean")], anySchema]),
        ("default", .obj [])]),
      ("additionalProperties", .obj [("anyOf", .arr [.obj [("type", .str "boolean")], anySchema]),
        ("default", .obj [])]),
      ("allOf", defined "schemaArray"),
      ("anyOf", defined "schemaArray"),
      ("default", .obj []),
      ("definitions", .obj [("additionalProperties", anySchema), ("default", .obj []), ("type",
        .str "object")]),
      ("dependencies", .obj [("additionalProperties", .obj [("anyOf", .arr [anySchema,
        defined "stringArray"])]), ("type", .str "object")]),
      ("description", ofType "string"),
      ("enum", .obj [("type", .str "array")]),
      ("exclusiveMaximum", .obj [("default", .bool false), ("type", .str "boolean")]),
      ("exclusiveMinimum", .obj [("default", .bool false), ("type", .str "boolean")]),
      ("format", ofType "string"),
      ("id", .obj [("format", .str "uri"), ("type", .str "string")]),
      ("items", .obj [("anyOf", .arr [anySchema, defined "schemaArray"]), ("default", .obj [])]),
      ("maxItems", defined "positiveInteger"),
      ("maxLength", defined "positiveInteger"),
      ("maxProperties", defined "positiveInteger"),
      ("maximum", ofType "number"),
      ("minItems", defined "positiveIntegerDefault0"),
      ("minLength", defined "positiveIntegerDefault0"),
      ("minProperties", defined "positiveIntegerDefault0"),
      ("minimum", ofType "number"),
      ("multipleOf", .obj [("exclusiveMinimum", .bool true), ("minimum", int 0), ("type",
        .str "number")]),
      ("not", anySchema),
      ("oneOf", defined "schemaArray"),
      ("pattern", .obj [("format", .str "regex"), ("type", .str "string")]),
      ("patternProperties", .obj [("additionalProperties", anySchema), ("default", .obj []),
        ("type", .str "object")]),
      ("properties", .obj [("additionalProperties", anySchema), ("default", .obj []), ("type",
        .str "object")]),
      ("required", defined "stringArray"),
      ("title", ofType "string"),
      ("type", .obj [("anyOf", .arr [defined "simpleTypes", .obj [("items",
        defined "simpleTypes"), ("minItems", int 1), ("type", .str "array"), ("uniqueItems",
        .bool true)]])]),
      ("uniqueItems", .obj [("default", .bool false), ("type", .str "boolean")])]),
    ("type", .str "object")]

def draft6 : Json :=
  .obj [
    ("$schema", .str "http://json-schema.org/draft-06/schema#"),
    ("$id", .str "http://json-schema.org/draft-06/schema#"),
    ("title", .str "Core schema meta-schema"),
    ("definitions", .obj [
      ("schemaArray", .obj [("type", .str "array"), ("minItems", int 1), ("items", anySchema)]),
      ("nonNegativeInteger", .obj [("type", .str "integer"), ("minimum", int 0)]),
      ("nonNegativeIntegerDefault0", .obj [("allOf", .arr [defined "nonNegativeInteger",
        .obj [("default", int 0)]])]),
      ("simpleTypes", .obj [("enum", .arr [.str "array", .str "boolean", .str "integer",
        .str "null", .str "number", .str "object", .str "string"])]),
      ("stringArray", .obj [("type", .str "array"), ("items", ofType "string"), ("uniqueItems",
        .bool true), ("default", .arr [])])]),
    ("type", .arr [.str "object", .str "boolean"]),
    ("properties", .obj [
      ("$id", .obj [("type", .str "string"), ("format", .str "uri-reference")]),
      ("$schema", .obj [("type", .str "string"), ("format", .str "uri")]),
      ("$ref", .obj [("type", .str "string"), ("format", .str "uri-reference")]),
      ("title", ofType "string"),
      ("description", ofType "string"),
      ("default", .obj []),
      ("examples", .obj [("type", .str "array"), ("items", .obj [])]),
      ("multipleOf", .obj [("type", .str "number"), ("exclusiveMinimum", int 0)]),
      ("maximum", ofType "number"),
      ("exclusiveMaximum", ofType "number"),
      ("minimum", ofType "number"),
      ("exclusiveMinimum", ofType "number"),
      ("maxLength", defined "nonNegativeInteger"),
      ("minLength", defined "nonNegativeIntegerDefault0"),
      ("pattern", .obj [("type", .str "string"), ("format", .str "regex")]),
      ("additionalItems", anySchema),
      ("items", .obj [("anyOf", .arr [anySchema, defined "schemaArray"]), ("default", .obj [])]),
      ("maxItems", defined "nonNegativeInteger"),
      ("minItems", defined "nonNegativeIntegerDefault0"),
      ("uniqueItems", .obj [("type", .str "boolean"), ("default", .bool false)]),
      ("contains", anySchema),
      ("maxProperties", defined "nonNegativeInteger"),
      ("minProperties", defined "nonNegativeIntegerDefault0"),
      ("required", defined "stringArray"),
      ("additionalProperties", anySchema),
      ("definitions", .obj [("type", .str "object"), ("additionalProperties", anySchema),
        ("default", .obj [])]),
      ("properties", .obj [("type", .str "object"), ("additionalProperties", anySchema),
        ("default", .obj [])]),
      ("patternProperties", .obj [("type", .str "object"), ("additionalProperties", anySchema),
        ("propertyNames", .obj [("format", .str "regex")]), ("default", .obj [])]),
      ("dependencies", .obj [("type", .str "object"), ("additionalProperties", .obj [("anyOf",
        .arr [anySchema, defined "stringArray"])])]),
      ("propertyNames", anySchema),
      ("const", .obj []),
      ("enum", .obj [("type", .str "array")]),
      ("type", .obj [("anyOf", .arr [defined "simpleTypes", .obj [("type", .str "array"),
        ("items", defined "simpleTypes"), ("minItems", int 1), ("uniqueItems", .bool true)]])]),
      ("format", ofType "string"),
      ("allOf", defined "schemaArray"),
      ("anyOf", defined "schemaArray"),
      ("oneOf", defined "schemaArray"),
      ("not", anySchema)]),
    ("default", .obj [])]

def draft7 : Json :=
  .obj [
    ("$schema", .str "http://json-schema.org/draft-07/schema#"),
    ("$id", .str "http://json-schema.org/draft-07/schema#"),
    ("title", .str "Core schema meta-schema"),
    ("definitions", .obj [
      ("schemaArray", .obj [("type", .str "array"), ("minItems", int 1), ("items", anySchema)]),
      ("nonNegativeInteger", .obj [("type", .str "integer"), ("minimum", int 0)]),
      ("nonNegativeIntegerDefault0", .obj [("allOf", .arr [defined "nonNegativeInteger",
        .obj [("default", int 0)]])]),
      ("simpleTypes", .obj [("enum", .arr [.str "array", .str "boolean", .str "integer",
        .str "null", .str "number", .str "object", .str "string"])]),
      ("stringArray", .obj [("type", .str "array"), ("items", ofType "string"), ("uniqueItems",
        .bool true), ("default", .arr [])])]),
    ("type", .arr [.str "object", .str "boolean"]),
    ("properties", .obj [
      ("$id", .obj [("type", .str "string"), ("format", .str "uri-reference")]),
      ("$schema", .obj [("type", .str "string"), ("format", .str "uri")]),
      ("$ref", .obj [("type", .str "string"), ("format", .str "uri-reference")]),
      ("$comment", ofType "string"),
      ("title", ofType "string"),
      ("description", ofType "string"),
      ("default", .bool true),
      ("readOnly", .obj [("type", .str "boolean"), ("default", .bool false)]),
      ("examples", .obj [("type", .str "array"), ("items", .bool true)]),
      ("multipleOf", .obj [("type", .str "number"), ("exclusiveMinimum", int 0)]),
      ("maximum", ofType "number"),
      ("exclusiveMaximum", ofType "number"),
      ("minimum", ofType "number"),
      ("exclusiveMinimum", ofType "number"),
      ("maxLength", defined "nonNegativeInteger"),
      ("minLength", defined "nonNegativeIntegerDefault0"),
      ("pattern", .obj [("type", .str "string"), ("format", .str "regex")]),
      ("additionalItems", anySchema),
      ("items", .obj [("anyOf", .arr [anySchema, defined "schemaArray"]), ("default",
        .bool true)]),
      ("maxItems", defined "nonNegativeInteger"),
      ("minItems", defined "nonNegativeIntegerDefault0"),
      ("uniqueItems", .obj [("type", .str "boolean"), ("default", .bool false)]),
      ("contains", anySchema),
      ("maxProperties", defined "nonNegativeInteger"),
      ("minProperties", defined "nonNegativeIntegerDefault0"),
      ("required", defined "stringArray"),
      ("additionalProperties", anySchema),
      ("definitions", .obj [("type", .str "object"), ("additionalProperties", anySchema),
        ("default", .obj [])]),
      ("properties", .obj [("type", .str "object"), ("additionalProperties", anySchema),
        ("default", .obj [])]),
      ("patternProperties", .obj [("type", .str "object"), ("additionalProperties", anySchema),
        ("propertyNames", .obj [("format", .str "regex")]), ("default", .obj [])]),
      ("dependencies", .obj [("type", .str "object"), ("additionalProperties", .obj [("anyOf",
        .arr [anySchema, defined "stringArray"])])]),
      ("propertyNames", anySchema),
      ("const", .bool true),
      ("enum", .obj [("type", .str "array"), ("items", .bool true)]),
      ("type", .obj [("anyOf", .arr [defined "simpleTypes", .obj [("type", .str "array"),
        ("items", defined "simpleTypes"), ("minItems", int 1), ("uniqueItems", .bool true)]])]),
      ("format", ofType "string"),
      ("contentMediaType", ofType "string"),
      ("contentEncoding", ofType "string"),
      ("if", anySchema),
      ("then", anySchema),
      ("else", anySchema),
      ("allOf", defined "schemaArray"),
      ("anyOf", defined "schemaArray"),
      ("oneOf", defined "schemaArray"),
      ("not", anySchema)]),
    ("default", .bool true)]

end MetaSchema

namespace Draft

def metaSchema : Draft → Json
  | draft4 => MetaSchema.draft4
  | draft6 => MetaSchema.draft6
  | draft7 => MetaSchema.draft7

/-- The address of a meta-schema, without the fragment mark. -/
def address : Draft → String
  | draft4 => "http://json-schema.org/draft-04/schema"
  | draft6 => "http://json-schema.org/draft-06/schema"
  | draft7 => "http://json-schema.org/draft-07/schema"

/-- The draft that a schema names; draft 7 where it names none that is known. -/
def ofSchema (schema : Json) : Draft :=
  match schema.string? "$schema" with
  | none => draft7
  | some uri =>
    let named := (uri.toList.reverse.dropWhile (· == '#')).reverse
    ([draft4, draft6].find? fun d => d.address.toList == named).getD draft7

def idKeyword : Draft → String
  | draft4 => "id"
  | draft6 | draft7 => "$id"

/-- Whether whole numbers may be written with a fraction of zero. -/
def wholeFloats : Draft → Bool
  | draft4 => false
  | draft6 | draft7 => true

end Draft

end BicepForge.JsonSchema
