import BicepForge.Report

/-!
# Checking deployment templates

A template needs a `$schema`, a content version and a list of resources. A `$schema` that is not
that of templates is only worth a warning.
-/

namespace BicepForge.Check

def templateErrors (t : DeploymentTemplate) : List String :=
  (if t.schemaUri?.isNone then ["Missing $schema - required for ARM templates"] else []) ++
  (if t.contentVersion?.isNone then ["Missing contentVersion - required for ARM templates"]
    else []) ++
  (if t.resources?.isNone then ["Missing or invalid resources array"] else [])

/-- What a resource, counted from one, should have and has not. -/
def resourceWarnings (number : Nat) (resource : Json) : List String :=
  let lacking (key : String) : List String :=
    if (resource.string? key).isNone then ["Resource #" ++ toString number ++ " has no " ++ key]
    else []
  lacking "type" ++ lacking "apiVersion"

/-- The warnings on resources, counted from a first number on. -/
def resourcesWarnings (first : Nat) : List Json → List String
  | [] => []
  | r :: rs => resourceWarnings first r ++ resourcesWarnings (first + 1) rs

def templateWarnings (t : DeploymentTemplate) : List String :=
  (if t.schemaUri?.isSome && !t.namesTemplateSchema then
    ["Schema may not be for ARM deployment template"] else []) ++
  resourcesWarnings 1 (t.resources?.getD [])

def templateInfo (t : DeploymentTemplate) : List String :=
  let counted (what : String) (entries? : Option (List (String × Json))) : List String :=
    (entries?.map fun entries =>
      "Template has " ++ toString entries.length ++ " " ++ what ++ "(s)").toList
  (t.contentVersion?.map fun version => "Content Version: " ++ version).toList ++
  (t.resources?.map fun resources =>
    "Template contains " ++ toString resources.length ++ " resource(s)").toList ++
  counted "parameter" t.parameters? ++ counted "variable" t.variables? ++
  counted "output" t.outputs?

def checkTemplate (t : DeploymentTemplate) : Report :=
  (((Report.forDialect .template).withErrors (templateErrors t)).withWarnings
    (templateWarnings t)).withNotes (templateInfo t)

end BicepForge.Check
