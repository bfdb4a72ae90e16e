import BicepForge.Bicep.Document
import BicepForge.Generation.Parameter
import BicepForge.Generation.StorageAccount
import BicepForge.Generation.VirtualMachine
import BicepForge.Generation.VirtualNetwork
import BicepForge.Generation.WebSite
import BicepForge.Instant

/-!
# Generating a document for a resource

A resource schema becomes a document that declares the resource with everything it refers to. The
document depends on the schema, the type, the configuration, the registry and the instant alone.
-/

namespace BicepForge.Generation

open Bicep

def templateSchemaUri : String :=
  "https://schema.management.azure.com/schemas/2019-04-01/deploymentTemplate.json#"

/-- The settings of an incremental nested deployment without resources. -/
def nestedDeploymentSettings : Body :=
  [.lit "mode" "Incremental",
   .nest "template"
     [.lit "$schema" templateSchemaUri,
      .lit "contentVersion" "1.0.0.0",
      .property "resources" (.array [])]]

def recipe : ResourceKind → Recipe
  | .virtualNetwork => virtualNetworkRecipe
  | .storageAccount => storageAccountRecipe
  | .webSite => webSiteRecipe
  | .virtualMachine => virtualMachineRecipe
  | .nestedDeployment =>
    { settings? := some fun _ _ => [.nest "properties" nestedDeploymentSettings] }
  | .generic => {}

theorem hasOwnParameters_eq (kind : ResourceKind) :
    kind.hasOwnParameters = (recipe kind).parameters?.isSome := by
  cases kind <;> rfl

/-- The environments a document can be deployed to. -/
def environments : List String := ["dev", "test", "staging", "prod"]

def defaultEnvironment (config : Configuration) : String :=
  if config.environment ∈ environments then config.environment else "dev"

def defaultLocation (config : Configuration) : Value :=
  match Configuration.worded? config.location? with
  | some location => .str location
  | none => .expr "resourceGroup().location"

def baseParameters (located : Bool) (config : Configuration) : List Param :=
  [{ name := "resourceName", type := .string
     decorators := [.description "The name of the resource", .minLength 1, .maxLength 80] }] ++
  (if located then
    [{ name := "location", type := .string
       decorators := [.description "The location for the resource"]
       default? := some (defaultLocation config) }] else []) ++
  [choice "environment" "Environment name (e.g., dev, test, prod)" environments
     (defaultEnvironment config)] ++
  (if located then
    [{ name := "tags", type := .object
       decorators := [.description "Resource tags"]
       default? := some (.object
         [.ref "Environment" "environment",
          .lit "CreatedBy" generatorName,
          .ref "CreatedDate" "utcNow('yyyy-MM-dd')"]) }] else [])

def baseVariables (type : String) (located : Bool) : List Variable :=
  [⟨"resourceNameFormatted", .expr "toLower(replace(resourceName, ' ', '-'))"⟩] ++
  (if located then
    [⟨"commonTags", .call "union"
      [.expr "tags",
       .object [.lit "ResourceType" type, .lit "DeployedBy" generatorName]]⟩] else [])

def baseOutputs (symbol : String) (located : Bool) : List Output :=
  [{ name := "resourceId", type := .string, value := .expr (symbol ++ ".id")
     description? := some "Resource ID of the created resource" },
   { name := "resourceName", type := .string, value := .expr (symbol ++ ".name")
     description? := some "Name of the created resource" }] ++
  (if located then
    [{ name := "location", type := .string, value := .expr (symbol ++ ".location")
       description? := some "Location of the created resource" }] else [])

/-- The names of base variables, which no parameter may take even where they are not declared. -/
def reservedNames : List String := ["resourceNameFormatted", "commonTags"]

/-- Parameters that were derived from a schema. -/
structure DerivedParameters where
  params : List Param
  /-- Whether they are settings of the resource rather than top-level properties. -/
  nested : Bool

/-- Derives parameters from the settings of a resource, or from the top-level properties of a
schema that describes no settings. -/
def deriveParameters (schema : ResourceSchema) (taken : List String) : DerivedParameters :=
  match schema.settings? with
  | some settings => ⟨parametersOfProperties taken settings, true⟩
  | none => ⟨parametersOfProperties taken (schema.properties?.getD []), false⟩

/-- Parameters bound to properties of their own names. -/
def bindings (params : List Param) : Body :=
  params.map fun p => .ref p.name p.name

/-- What stands for settings that nothing is known of. -/
def placeholder (type : String) : Body :=
  [.comment "Configure properties based on your requirements",
   .comment ("Refer to Azure documentation for " ++ type ++ " properties")]

/-- The settings of a resource without a recipe: derived parameters are bound where they came
from. -/
def genericSettings (type : String) (derived : DerivedParameters) : Body :=
  if derived.nested ∧ !derived.params.isEmpty then
    [.nest "properties" (bindings derived.params)]
  else bindings derived.params ++ [.nest "properties" (placeholder type)]

/-- The name of the variable that holds the name of a resource. -/
def nameVariable : ResourceKind → String
  | .storageAccount => "storageAccountName"
  | _ => "resourceNameFormatted"

def mainResource (config : Configuration) (info : ResourceTypeInfo) (symbol apiVersion : String)
    (derived : DerivedParameters) : Resource where
  symbol
  type := info.name
  apiVersion
  comment? := if info.kind = .virtualMachine then some "Virtual Machine Resource" else none
  body :=
    identity (.expr (nameVariable info.kind)) info.supportsLocationAndTags ++
      match (recipe info.kind).settings? with
      | some settings => settings symbol config
      | none => genericSettings info.name derived

/-- The resources that have to be declared ahead of the main one. -/
def auxiliaryResources (registry : Registry) (info : ResourceTypeInfo) (symbol : String) :
    List Resource :=
  info.auxiliaryTypes.filterMap fun type =>
    if type = Registry.networkInterfaceType ∧ info.kind = .virtualMachine then
      let version := ((registry.lookup type .resourceGroup).latestApiVersion?).getD
        Registry.fallbackApiVersion
      some (networkInterface symbol version info.supportsLocationAndTags)
    else none

def generateForType (registry : Registry) (now : Instant) (config : Configuration)
    (schema : ResourceSchema) (type : String) : Document :=
  let info := registry.lookup type config.targetScope
  let symbol := resourceSymbol type
  let located := info.supportsLocationAndTags
  let base := baseParameters located config
  let vars := baseVariables type located ++ (recipe info.kind).vars
  let derived : DerivedParameters :=
    match (recipe info.kind).parameters? with
    | some _ => ⟨[], false⟩
    | none => deriveParameters schema
        (base.map (·.name) ++ vars.map (·.name) ++ reservedNames ++ [symbol])
  let own := match (recipe info.kind).parameters? with
    | some parameters => parameters config
    | none => derived.params
  { header :=
      ["Generated Bicep template from JSON Schema", "Resource Type: " ++ type,
       "Generated on: " ++ now.timestamp]
    scope := config.targetScope
    metadata :=
      [("description", "Bicep template for " ++ type), ("author", generatorName),
       ("version", "1.0.0")]
    parameters := base ++ own
    vars
    declarations :=
      (auxiliaryResources registry info symbol).map .resource ++
        [.resource (mainResource config info symbol (registry.selectApiVersion schema type) derived)]
    outputs :=
      if config.includeOutputs then baseOutputs symbol located ++ (recipe info.kind).outputs symbol
      else [] }

/-- The document for a schema, by the type it names; a schema without one describes a nested
deployment. -/
def generate (registry : Registry) (now : Instant) (config : Configuration)
    (schema : ResourceSchema) : Document :=
  generateForType registry now config schema (schema.resourceType?.getD nestedDeploymentType)

def generateForEntry (registry : Registry) (now : Instant) (config : Configuration)
    (entry : Json) : Document :=
  generate registry now config (.ofTemplateEntry entry)

end BicepForge.Generation
