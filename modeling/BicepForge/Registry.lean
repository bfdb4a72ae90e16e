import BicepForge.Document.ResourceSchema
import BicepForge.ResourceType
import BicepForge.TargetScope
import BicepForge.Text.Order
import BicepForge.Text.Search

/-!
# The registry of resource types

A table of what is known about resource types. A type that is not in it is generated all the same,
on assumptions that suit most types.
-/

namespace BicepForge

/-- Resource types under their names. -/
structure Registry where
  entries : Entries ResourceTypeInfo := []

namespace Registry

def empty : Registry := {}

/-- Adds a type, replacing what was known about it. -/
def register (r : Registry) (info : ResourceTypeInfo) : Registry :=
  ⟨Entries.put info.name info r.entries⟩

def registerAll (r : Registry) (infos : List ResourceTypeInfo) : Registry :=
  infos.foldl register r

def find? (r : Registry) (type : String) : Option ResourceTypeInfo :=
  r.entries.lookup type

def contains (r : Registry) (type : String) : Bool :=
  (r.find? type).isSome

/-- What holds for a type in a scope. A nested deployment has a location everywhere but inside a
resource group. -/
def lookup (r : Registry) (type : String) (scope : TargetScope) : ResourceTypeInfo :=
  let info := (r.find? type).getD (.assumed type)
  if info.kind = .nestedDeployment ∧ scope = .resourceGroup then
    { info with supportsLocationAndTags := false }
  else info

def types (r : Registry) : List String :=
  Text.sorted (Entries.keys r.entries)

def size (r : Registry) : Nat :=
  r.entries.length

/-- The mark of an API version that is not stable yet. -/
def previewMark : String := "preview"

/-- The API version of a resource for which nothing is known. -/
def fallbackApiVersion : String := "2022-01-01"

def isStable (version : String) : Bool :=
  !Text.occursIn previewMark version

/-- The API version to declare: the preferred one, else the newest stable one that the schema
offers, else the newest it offers. Versions are dates, so their order as texts is that of time. -/
def selectApiVersion (r : Registry) (schema : ResourceSchema) (type : String) : String :=
  match (r.find? type).bind (·.preferredApiVersion?) with
  | some version => version
  | none =>
    let offered := schema.apiVersions
    ((Text.latest? (offered.filter isStable)).or (Text.latest? offered)).getD fallbackApiVersion

theorem find?_register_self (r : Registry) (info : ResourceTypeInfo) :
    (r.register info).find? info.name = some info := by
  simp [register, find?]

theorem find?_register_of_ne (r : Registry) {info : ResourceTypeInfo} {type : String}
    (h : type ≠ info.name) : (r.register info).find? type = r.find? type := by
  simp [register, find?, Entries.lookup_put_of_ne h]

/-! ## The built-in types -/

def networkInterfaceType : String := "Microsoft.Network/networkInterfaces"

def virtualMachineType : String := "Microsoft.Compute/virtualMachines"

/-- The types that are known from the start. -/
def builtinTypes : List ResourceTypeInfo :=
  [{ name := "Microsoft.Network/virtualNetworks"
     kind := .virtualNetwork
     preferredApiVersion? := some "2022-01-01"
     knownApiVersions :=
       ["2020-11-01", "2021-02-01", "2021-05-01", "2021-08-01", "2022-01-01", "2022-05-01",
        "2022-07-01", "2022-09-01"] },
   { name := "Microsoft.Storage/storageAccounts"
     kind := .storageAccount
     preferredApiVersion? := some "2022-05-01"
     knownApiVersions :=
       ["2021-04-01", "2021-06-01", "2021-08-01", "2021-09-01", "2022-05-01", "2022-09-01"] },
   { name := virtualMachineType
     kind := .virtualMachine
     preferredApiVersion? := some "2022-08-01"
     knownApiVersions :=
       ["2021-03-01", "2021-07-01", "2021-11-01", "2022-03-01", "2022-08-01", "2022-11-01"]
     auxiliaryTypes := [networkInterfaceType] },
   { name := "Microsoft.Web/sites"
     kind := .webSite
     preferredApiVersion? := some "2022-03-01"
     knownApiVersions := ["2021-02-01", "2021-03-01", "2022-03-01", "2022-09-01"] },
   { name := "Microsoft.Web/serverfarms"
     preferredApiVersion? := some "2022-03-01"
     knownApiVersions := ["2021-02-01", "2021-03-01", "2022-03-01", "2022-09-01"] },
   { name := "Microsoft.KeyVault/vaults"
     preferredApiVersion? := some "2022-07-01"
     knownApiVersions := ["2021-10-01", "2022-07-01", "2023-02-01"] },
   { name := "Microsoft.Sql/servers"
     preferredApiVersion? := some "2022-05-01-preview"
     knownApiVersions := ["2021-11-01", "2022-05-01-preview", "2022-08-01-preview"] },
   { name := "Microsoft.Insights/components"
     knownApiVersions := ["2020-02-02"] },
   { name := networkInterfaceType
     preferredApiVersion? := some "2022-07-01"
     knownApiVersions := ["2022-07-01"] },
   { name := nestedDeploymentType
     kind := .nestedDeployment },
   { name := "Microsoft.Authorization/policyAssignments"
     supportsLocationAndTags := false },
   { name := "Microsoft.Authorization/roleAssignments"
     supportsLocationAndTags := false }]

def azure : Registry :=
  empty.registerAll (builtinTypes.map fun info => { info with registered := true })

end Registry

end BicepForge
