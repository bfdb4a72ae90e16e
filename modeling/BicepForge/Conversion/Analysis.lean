import BicepForge.Document.DeploymentTemplate
import BicepForge.Registry

/-!
# Analysing templates

What a deployment template holds, and what a converted document has to provide on top: a virtual
machine needs a network, and what its template refers to from outside has to be made.
-/

namespace BicepForge

namespace Conversion

/-- A resource that the converted document has to provide. -/
structure MissingDependency where
  type : String
  reason : String
  /-- Whether the template declares a resource of the type already; it is listed all the same. -/
  presentInTemplate : Bool
deriving DecidableEq, Repr

structure Analysis where
  resources : List Json
  parameterNames : List String
  variableNames : List String
  /-- The distinct resource types in the order of their first use. -/
  resourceTypes : List String
  missingDependencies : List MissingDependency
  /-- The name for the converted virtual machine. -/
  vmName : String
deriving DecidableEq

/-- The name of a virtual machine whose template does not name it by a parameter. -/
def defaultVmName : String := "myvm"

def typeOf? (resource : Json) : Option String :=
  resource.string? "type"

def distinctTypes (resources : List Json) : List String :=
  (resources.filterMap typeOf?).foldl
    (fun types type => if type ∈ types then types else types ++ [type]) []

def virtualMachines (resources : List Json) : List Json :=
  resources.filter fun r => typeOf? r = some Registry.virtualMachineType

/-! ## References to parameters -/

/-- Whether an expression speaks of a parameter. -/
def isParameterReference (v? : Option Json) : Bool :=
  (v?.bind Json.asString?).any (Text.occursIn "parameters(")

def referenceOpening : List Char := "parameters('".toList

/-- The name in a parameter reference that opens here: at least one character up to the next
quote, which must be followed by a closing parenthesis. -/
def referenceHere? (s : List Char) : Option (List Char) :=
  if referenceOpening.isPrefixOf s then
    let inside := s.drop referenceOpening.length
    let name := inside.takeWhile (· != '\'')
    if !name.isEmpty && ['\'', ')'].isPrefixOf (inside.drop name.length) then some name else none
  else none

/-- The name in the first parameter reference of a text. -/
def reference? : List Char → Option (List Char)
  | [] => none
  | c :: cs => (referenceHere? (c :: cs)).or (reference? cs)

def withoutNameEnding (name : List Char) : List Char :=
  let ending := "_name".toList
  if ending.isSuffixOf name then name.take (name.length - ending.length) else name

/-- The name for a virtual machine, from the expression that names it in the template. -/
def parameterName (expression? : Option Json) : String :=
  match (expression?.bind Json.asString?).bind fun s => reference? s.toList with
  | some name => String.ofList (withoutNameEnding name)
  | none => defaultVmName

/-! ## Dependencies -/

/-- A dependency, marked by whether its type is among the types of the template. -/
def dependency (present : List String) (type reason : String) : MissingDependency :=
  ⟨type, reason, present.contains type⟩

/-- The network interfaces of a virtual machine that come from outside. -/
def externalInterfaces (vm : Json) : List Json :=
  (((vm.path? ["properties", "networkProfile", "networkInterfaces"]).bind Json.asArray?).getD []
    ).filter fun i => isParameterReference (i.get? "id")

/-- Whether the disk of a virtual machine comes from outside. -/
def hasExternalDisk (vm : Json) : Bool :=
  isParameterReference (vm.path? ["properties", "storageProfile", "osDisk", "managedDisk", "id"])

/-- What every virtual machine needs. -/
def networkBaseline (present : List String) : List MissingDependency :=
  [dependency present "Microsoft.Network/virtualNetworks" "Required for VM deployment",
   dependency present "Microsoft.Network/networkSecurityGroups" "Security best practice",
   dependency present "Microsoft.Network/publicIPAddresses" "Optional - for external access"]

/-- What one virtual machine needs: what it refers to from outside, then the baseline. -/
def vmDependencies (present : List String) (vm : Json) : List MissingDependency :=
  (externalInterfaces vm).map (fun _ =>
    dependency present Registry.networkInterfaceType
      "External reference - will create new NIC with subnet") ++
  (if hasExternalDisk vm then
    [dependency present "Microsoft.Compute/disks"
      "External reference - will create new managed disk"] else []) ++
  networkBaseline present

namespace Analysis

/-- Analyses a template. The first virtual machine names the converted one. -/
def ofTemplate (t : DeploymentTemplate) : Analysis :=
  let resources := t.resources?.getD []
  let types := distinctTypes resources
  let machines := virtualMachines resources
  { resources
    parameterNames := Entries.keys (t.parameters?.getD [])
    variableNames := Entries.keys (t.variables?.getD [])
    resourceTypes := types
    missingDependencies := machines.flatMap (vmDependencies types)
    vmName := match machines with
      | [] => defaultVmName
      | vm :: _ => parameterName (vm.get? "name") }

def dependencyLine (d : MissingDependency) : String :=
  "Missing dependency: " ++ d.type ++ " (" ++ d.reason ++ ")" ++
    (if d.presentInTemplate then " [already in template]" else "")

def summary (a : Analysis) : List String :=
  ["Resources: " ++ toString a.resources.length,
   "Parameters: " ++ toString a.parameterNames.length,
   "Variables: " ++ toString a.variableNames.length] ++
  (if a.resourceTypes.isEmpty then []
    else ["Resource types: " ++ String.intercalate ", " a.resourceTypes]) ++
  a.missingDependencies.map dependencyLine

end Analysis

end Conversion

end BicepForge
