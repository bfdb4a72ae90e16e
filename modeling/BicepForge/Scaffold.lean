import BicepForge.Context

/-!
# Scaffolding schemas

A skeleton of a resource schema to begin with, with the API versions and regions that a provider
names. Without one, or if it fails in any part, the registry and a list of regions stand in.
-/

namespace BicepForge.Scaffold

def offlineLocations : List String :=
  ["eastus", "eastus2", "westus", "westus2", "centralus", "northeurope", "westeurope",
   "southeastasia"]

def stringList (texts : List String) : Json :=
  .arr (texts.map .str)

/-- A described schema of a type with one more keyword. -/
def described (type description : String) (keyword : List (String × Json)) : Json :=
  .obj ([("type", Json.str type)] ++ keyword ++ [("description", .str description)])

def schema (type : String) (versions locations : List String) : ResourceSchema where
  document := .obj
    [("$schema", .str draft7Uri),
     ("type", .str "object"),
     ("title", .str (type ++ " Schema")),
     ("description", .str ("Auto-generated schema for " ++ type)),
     ("properties", .obj
       [("apiVersion", described "string" "The API version for the resource"
          [("enum", stringList versions)]),
        ("type", described "string" "The resource type" [("const", .str type)]),
        ("name", described "string" "The name of the resource" []),
        ("location", described "string" "The Azure region for the resource"
          [("enum", stringList locations)]),
        ("properties", described "object" "Resource-specific properties" [])]),
     ("required", stringList ["apiVersion", "type", "name"])]

/-- The API versions without a provider: those that are known, or one to begin with. -/
def offlineVersions (registry : Registry) (type : String) : List String :=
  match (registry.lookup type .resourceGroup).knownApiVersions with
  | [] => [Registry.fallbackApiVersion]
  | versions => versions

def offline (registry : Registry) (type : String) : ResourceSchema :=
  schema type (offlineVersions registry type) offlineLocations

/-- The skeleton schema of a type. A provider is asked for versions and regions alike. -/
def run (c : Context) (type : String) : ResourceSchema × Context :=
  match c.liveProvider? with
  | none => (offline c.registry type, c)
  | some p =>
    let c' := c.asked [.versions type, .locations type]
    match p.versions type, p.locations type with
    | .ok versions, .ok locations => (schema type versions locations, c')
    | _, _ => (offline c.registry type, c')

end BicepForge.Scaffold
