import BicepForge.Configuration
import BicepForge.Json.Basic

/-!
# Configurations in documents

The keys under which the options of a configuration are kept, for writing and for reading. Every
key may be missing and unknown ones are ignored, so that a document needs to say only what differs
from the defaults.
-/

namespace BicepForge

/-- How options are read from the values of one kind of document. -/
structure OptionReader (α : Type) where
  /-- A text. -/
  text? : α → Option String
  /-- A text that may be absent. -/
  optional? : α → Option (Option String)
  /-- A truth value. -/
  flag? : α → Option Bool
  /-- The name of a choice. -/
  choice? : α → Option String

/-- The options of JSON values. A choice is its name, or an object that binds the name to null. -/
def OptionReader.json : OptionReader Json where
  text? := Json.asString?
  optional?
    | .null => some none
    | .str s => some (some s)
    | _ => none
  flag? := Json.asBool?
  choice?
    | .str s => some s
    | .obj [(name, .null)] => some name
    | _ => none

namespace Configuration

variable {α : Type}

/-- The configuration with the option under a key read from a value; none where the value does not
fit, and unchanged where there is no such option. -/
def set? (r : OptionReader α) (key : String) (v : α) (c : Configuration) : Option Configuration :=
  match key with
  | "location" => (r.optional? v).map fun x => { c with location? := x }
  | "targetScope" => ((r.choice? v).bind TargetScope.ofName?).map fun x => { c with targetScope := x }
  | "environment" => (r.text? v).map fun x => { c with environment := x }
  | "resourcePrefix" => (r.text? v).map fun x => { c with resourcePrefix := x }
  | "networkMode" => (r.text? v).map fun x => { c with networkMode := .ofText x }
  | "vnetAddressSpace" => (r.text? v).map fun x => { c with vnetAddressSpace := x }
  | "subnetAddressSpace" => (r.text? v).map fun x => { c with subnetAddressSpace := x }
  | "existingVnetName" => (r.optional? v).map fun x => { c with existingVnetName? := x }
  | "existingSubnetName" => (r.optional? v).map fun x => { c with existingSubnetName? := x }
  | "existingVnetResourceGroup" =>
    (r.optional? v).map fun x => { c with existingVnetResourceGroup? := x }
  | "vmSize" => (r.text? v).map fun x => { c with vmSize := x }
  | "osType" => ((r.choice? v).bind OsType.ofName?).map fun x => { c with osType := x }
  | "adminUsername" => (r.text? v).map fun x => { c with adminUsername := x }
  | "includeParameters" => (r.flag? v).map fun x => { c with includeParameters := x }
  | "includeDependencies" => (r.flag? v).map fun x => { c with includeDependencies := x }
  | "includeOutputs" => (r.flag? v).map fun x => { c with includeOutputs := x }
  | "generateModules" => (r.flag? v).map fun x => { c with generateModules := x }
  | "includeNSG" => (r.flag? v).map fun x => { c with includeNsg := x }
  | "includeBootDiagnostics" => (r.flag? v).map fun x => { c with includeBootDiagnostics := x }
  | "includePublicIP" => (r.flag? v).map fun x => { c with includePublicIp := x }
  | _ => some c

/-- The configuration of an entry list: options that it does not hold keep their defaults. -/
def ofEntries? (r : OptionReader α) (entries : List (String × α)) : Option Configuration :=
  entries.foldlM (fun c (key, v) => set? r key v c) {}

def ofJson? : Json → Option Configuration
  | .obj entries => ofEntries? .json entries
  | _ => none

/-- A text that may be absent, as JSON. -/
def optionalJson : Option String → Json
  | none => .null
  | some s => .str s

/-- The options under their keys, in the order in which they are written. -/
def entries (c : Configuration) : Entries Json :=
  [("location", optionalJson c.location?),
   ("targetScope", .str c.targetScope.name),
   ("environment", .str c.environment),
   ("resourcePrefix", .str c.resourcePrefix),
   ("networkMode", .str c.networkMode.name),
   ("vnetAddressSpace", .str c.vnetAddressSpace),
   ("subnetAddressSpace", .str c.subnetAddressSpace),
   ("existingVnetName", optionalJson c.existingVnetName?),
   ("existingSubnetName", optionalJson c.existingSubnetName?),
   ("existingVnetResourceGroup", optionalJson c.existingVnetResourceGroup?),
   ("vmSize", .str c.vmSize),
   ("osType", .str c.osType.name),
   ("adminUsername", .str c.adminUsername),
   ("includeParameters", .bool c.includeParameters),
   ("includeDependencies", .bool c.includeDependencies),
   ("includeOutputs", .bool c.includeOutputs),
   ("generateModules", .bool c.generateModules),
   ("includeNSG", .bool c.includeNsg),
   ("includeBootDiagnostics", .bool c.includeBootDiagnostics),
   ("includePublicIP", .bool c.includePublicIp)]

def toJson (c : Configuration) : Json :=
  .obj c.entries

end Configuration

end BicepForge
