import BicepForge.Assembly.Member
import BicepForge.Generation.Generator

/-!
# Assemblies

Several resources make one deployment: either all in one document, or each in a module of its own
beside a document that joins them. A resource waits for those members of the assembly that it
depends on.
-/

namespace BicepForge

open Bicep

/-- A module file of an assembly. -/
structure Assembly.ModuleFile where
  id : String
  /-- The place of the file beside the main document. -/
  path : String
  document : Document

/-- A deployment of several resources. -/
structure Assembly where
  document : Document
  modules : List Assembly.ModuleFile
  warnings : List String
  members : List Assembly.Member
  includeParameters : Bool

namespace Assembly

/-- What the documents of an assembly are made from. -/
structure Batch where
  registry : Registry
  config : Configuration
  /-- The settings that a user gives for resources, by their ids. -/
  settings : Entries Json
  members : List Member

namespace Batch

/-- The recipe that a member follows. -/
def kind (b : Batch) (m : Member) : ResourceKind :=
  (b.registry.lookup m.type .resourceGroup).kind

def isLocated (b : Batch) (m : Member) : Bool :=
  (b.registry.lookup m.type .resourceGroup).supportsLocationAndTags

def member? (b : Batch) (id : String) : Option Member :=
  b.members.find? (·.id == id)

/-- The members that a member waits for. -/
def dependencies (b : Batch) (m : Member) : List Member :=
  if b.config.includeDependencies then (dependenciesOf m.id).filterMap b.member? else []

/-! ## Parameters and variables -/

def commonParameters (config : Configuration) : List Param :=
  [{ name := "location", type := .string
     decorators := [.description "The location for all resources"]
     default? := some (Generation.defaultLocation config) },
   { name := "environment", type := .string
     decorators := [.description "Environment name (e.g., dev, test, prod)"]
     default? := some (.str config.environment) },
   { name := "resourcePrefix", type := .string
     decorators := [.description "Common resource prefix"]
     default? := some (.str config.resourcePrefix) }]

/-- A parameter with the property of a resource that it sets. -/
structure OwnParameter where
  property : String
  param : Param

/-- The parameter for a property of a resource, named for both. Whether it is a secret follows from
the name of the property alone. -/
def ownParameter? (id property : String) (schema : Json) : Option OwnParameter :=
  let name := id ++ "_" ++ property
  if schema.isObject && !Generation.identityFields.contains property &&
      Value.isIdentifier name then
    some ⟨property, { Generation.parameterOfSchema property schema with name }⟩
  else none

/-- The parameters of a member that follows no recipe: one for each top-level property of its
schema. -/
def ownParameters (b : Batch) (m : Member) : List OwnParameter :=
  if b.config.includeParameters ∧ b.kind m = .generic then
    (m.schema.properties?.getD []).filterMap fun (property, schema) =>
      ownParameter? m.id property schema
  else []

def commonTags : Variable where
  name := "commonTags"
  value := .object
    [.ref "environment" "environment",
     .ref "resourcePrefix" "resourcePrefix",
     .lit "generatedBy" Generation.generatorName]

/-! ## Resources -/

def resourceName (id : String) : Value :=
  .interp (hole "resourcePrefix" ++ "-" ++ id ++ "-" ++ hole "environment")

/-- The settings that a user gives for a member, if they say anything. -/
def givenSettings? (b : Batch) (m : Member) : Option Json :=
  match b.settings.lookup m.id with
  | some (.obj (e :: es)) => some (.obj (e :: es))
  | _ => none

/-- The settings of a kind when the user gives none; a web site runs on the plan, if there is
one. -/
def defaultSettings (config : Configuration) (kind : ResourceKind) (plan? : Option Member) : Body :=
  match kind with
  | .virtualNetwork =>
    [.nest "properties"
      [.nest "addressSpace" [.property "addressPrefixes" (.strings [config.vnetAddressSpace])],
       .property "subnets" (.array [.object
         [.lit "name" "default",
          .nest "properties" [.lit "addressPrefix" config.subnetAddressSpace]]])]]
  | .storageAccount =>
    [.nest "sku" [.lit "name" "Standard_LRS"],
     .lit "kind" "StorageV2",
     .nest "properties"
       [.lit "accessTier" "Hot",
        .flag "allowBlobPublicAccess" false,
        .flag "supportsHttpsTrafficOnly" true,
        .lit "minimumTlsVersion" "TLS1_2"]]
  | .webSite =>
    [.nest "properties"
      ((plan?.map fun plan => Entry.ref "serverFarmId" (plan.symbol ++ ".id")).toList ++
       [.flag "httpsOnly" true,
        .nest "siteConfig" [.lit "minTlsVersion" "1.2"]])]
  | .nestedDeployment => [.nest "properties" Generation.nestedDeploymentSettings]
  | .virtualMachine | .generic =>
    [.nest "properties" [.comment "Configure properties based on your requirements"]]

/-- The settings of a member beside a plan. -/
def settingsOf (b : Batch) (m : Member) (plan? : Option Member) : Body :=
  match b.givenSettings? m with
  | some given => [.property "properties" (Value.ofJson given)]
  | none => defaultSettings b.config (b.kind m) plan?

/-- The entry that makes a declaration wait for others. -/
def waiting (symbols : List String) : Body :=
  if symbols.isEmpty then [] else [.property "dependsOn" (.array (symbols.map .expr))]

/-- A member declared in the main document. -/
def inlineResource (b : Batch) (m : Member) : Resource where
  symbol := m.symbol
  type := m.type
  apiVersion := m.apiVersion
  body :=
    .property "name" (resourceName m.id) ::
      Body.onlyIf (b.isLocated m) [.ref "location" "location", .ref "tags" "commonTags"] ++
      (b.ownParameters m).map (fun p => .ref p.property p.param.name) ++
      b.settingsOf m (b.member? "appplan") ++
      waiting ((b.dependencies m).map Member.symbol)

def modulePath (id : String) : String :=
  "modules/" ++ id ++ ".bicep"

def moduleDeclaration (b : Batch) (m : Member) : Module where
  symbol := m.moduleSymbol
  path := modulePath m.id
  body :=
    [.lit "name" (m.id ++ "-deployment"),
     .nest "params"
       [.ref "location" "location",
        .ref "environment" "environment",
        .ref "resourcePrefix" "resourcePrefix"]] ++
      waiting ((b.dependencies m).map Member.moduleSymbol)

def moduleDocument (b : Batch) (m : Member) : Document where
  header := [m.id ++ " module"]
  scope := .resourceGroup
  parameters :=
    [{ name := "location", type := .string
       decorators := [.description "The location for the resource"] },
     { name := "environment", type := .string
       decorators := [.description "Environment name"] },
     { name := "resourcePrefix", type := .string
       decorators := [.description "Resource prefix"] }]
  declarations :=
    [.resource
      { symbol := m.symbol, type := m.type, apiVersion := m.apiVersion
        body :=
          .property "name" (resourceName m.id) ::
            Body.onlyIf (b.isLocated m) [.ref "location" "location"] ++ b.settingsOf m none }]
  outputs := Generation.baseOutputs m.symbol false

def moduleFile (b : Batch) (m : Member) : ModuleFile :=
  ⟨m.id, modulePath m.id, b.moduleDocument m⟩

/-! ## The main document -/

/-- The outputs of a member: its id and its name, taken from where it is declared. -/
def outputsOf (b : Batch) (m : Member) : List Output :=
  let output (what expression : String) : Output :=
    { name := m.symbol ++ what, type := .string, value := .expr expression }
  if b.config.generateModules then
    [output "Id" (m.moduleSymbol ++ ".outputs.resourceId"),
     output "Name" (m.moduleSymbol ++ ".outputs.resourceName")]
  else [output "Id" (m.symbol ++ ".id"), output "Name" (m.symbol ++ ".name")]

/-- What the main document says of the selection in its header. -/
def header (now : Instant) (names : List String) : List String :=
  ["Multi-Resource Azure Deployment Template",
   "Generated by " ++ Generation.generatorName,
   "Resources: " ++ String.intercalate ", " names,
   "Generated on: " ++ now.timestamp]

def warningsTitle : String := "Validation Warnings:"

/-- The document that declares or joins all members. -/
def mainDocument (b : Batch) (now : Instant) (names warnings : List String) : Document where
  header := header now names
  scope := .resourceGroup
  notesTitle? := some warningsTitle
  notes := warnings
  parameters :=
    commonParameters b.config ++
      if b.config.generateModules then []
      else b.members.flatMap fun m => (b.ownParameters m).map (·.param)
  vars :=
    if !b.config.generateModules && b.members.any b.isLocated then [commonTags] else []
  declarations :=
    if b.config.generateModules then b.members.map fun m => .module (b.moduleDeclaration m)
    else b.members.map fun m => .resource (b.inlineResource m)
  outputs := if b.config.includeOutputs then b.members.flatMap b.outputsOf else []

/-- The module files: one for each member, or none. -/
def moduleFiles (b : Batch) : List ModuleFile :=
  if b.config.generateModules then b.members.map b.moduleFile else []

end Batch

inductive AssemblyError where
  | emptySelection
deriving DecidableEq, Repr

def AssemblyError.message : AssemblyError → String
  | emptySelection => "No resources selected; select at least one resource to assemble"

/-- Assembles what became of a selection. -/
def ofOutcomes (c : Context) (config : Configuration) (settings : Entries Json)
    (selection : List CatalogEntry) (outcomes : List Outcome) : Assembly :=
  let members := outcomes.filterMap (·.member?)
  let warnings := outcomes.flatMap (·.warnings)
  let batch : Batch := { registry := c.registry, config, settings, members }
  { document := batch.mainDocument c.now (selection.map (·.name)) warnings
    modules := batch.moduleFiles
    warnings
    members
    includeParameters := config.includeParameters }

/-- Assembles a selection. It fails only if nothing is selected: a resource whose schema cannot be
loaded is left out. -/
def assemble (c : Context) (config : Configuration) (schemas : String → Option ResourceSchema)
    (settings : Entries Json) (selection : List CatalogEntry) :
    Except AssemblyError Assembly × Context :=
  if selection.isEmpty then (.error .emptySelection, c)
  else
    let (outcomes, c) := examineAll schemas c selection
    (.ok (ofOutcomes c config settings selection outcomes), c)

/-- The parameters file of the main document, if one goes with it. -/
def parametersFile? (a : Assembly) : Option Json :=
  if a.includeParameters then some a.document.parametersFile else none

def includes (a : Assembly) (id : String) : Bool :=
  a.members.any (·.id == id)

/-- Where the knowledge about the types came from: live only if it did so for every member. -/
def source (a : Assembly) : Check.TypeSource :=
  if !a.members.isEmpty && a.members.all (·.source == .live) then .live else .offline

end Assembly

end BicepForge
