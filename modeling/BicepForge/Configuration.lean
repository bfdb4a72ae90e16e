import BicepForge.TargetScope
import BicepForge.Text.Blank
import BicepForge.Text.LowerCase

/-!
# Configuration

The options of a user. Every one of them has a default, and a text form in which it is kept.
-/

namespace BicepForge

/-- How a converted virtual machine gets its network. -/
inductive NetworkMode where
  | createNew
  | useExisting
deriving DecidableEq, Repr

namespace NetworkMode

def name : NetworkMode → String
  | createNew => "create-new"
  | useExisting => "existing"

def ofName? (name : String) : Option NetworkMode :=
  [createNew, useExisting].find? (·.name == name)

/-- The mode a text asks for: a new network, unless the existing one is named. -/
def ofText (s : String) : NetworkMode :=
  if Text.lower s = "existing" ∨ Text.lower s = "use-existing" then useExisting else createNew

end NetworkMode

/-- The operating system of a virtual machine. -/
inductive OsType where
  | windows
  | linux
deriving DecidableEq, Repr

/-- Why a configuration cannot be used. -/
inductive ConfigurationError where
  | missing (fields : List String)
  | unknownOsType (name : String)
deriving DecidableEq, Repr

def ConfigurationError.message : ConfigurationError → String
  | missing fields => "Missing required configuration: " ++ String.intercalate ", " fields
  | unknownOsType name =>
    "Invalid configuration: unknown OS type '" ++ name ++ "' (expected Windows or Linux)"

namespace OsType

def name : OsType → String
  | windows => "Windows"
  | linux => "Linux"

def ofName? (name : String) : Option OsType :=
  [windows, linux].find? (·.name == name)

/-- The operating system that a user names in any case and with blanks around. -/
def parse (s : String) : Except ConfigurationError OsType :=
  let name := Text.lower (Text.trim s)
  if name = "windows" then .ok windows
  else if name = "linux" then .ok linux
  else .error (.unknownOsType name)

end OsType

/-- The options of a user. -/
structure Configuration where
  /-- The region; without one the location of the resource group is used. -/
  location? : Option String := none
  targetScope : TargetScope := .resourceGroup
  environment : String := "dev"
  resourcePrefix : String := "bicep"
  networkMode : NetworkMode := .createNew
  vnetAddressSpace : String := "10.0.0.0/16"
  subnetAddressSpace : String := "10.0.1.0/24"
  existingVnetName? : Option String := none
  existingSubnetName? : Option String := none
  existingVnetResourceGroup? : Option String := none
  vmSize : String := "Standard_B2s"
  osType : OsType := .windows
  adminUsername : String := "azureuser"
  includeParameters : Bool := true
  includeDependencies : Bool := true
  includeOutputs : Bool := true
  generateModules : Bool := false
  includeNsg : Bool := true
  includeBootDiagnostics : Bool := true
  includePublicIp : Bool := true
deriving DecidableEq, Repr

namespace Configuration

/-- The region of a converted template when none is configured. -/
def defaultLocation : String := "eastus"

/-- A text that says something. -/
def worded? (s? : Option String) : Option String :=
  s?.filter fun s => !Text.isBlankText s

/-- The region of a converted template, which always needs one. -/
def conversionLocation (c : Configuration) : String :=
  (worded? c.location?).getD defaultLocation

def withExistingNetwork (c : Configuration) (vnet subnet : String) : Configuration :=
  { c with
    networkMode := .useExisting, existingVnetName? := some vnet, existingSubnetName? := some subnet }

/-- What a conversion needs: an existing network takes the names of both network and subnet, and
where one is missing both are asked for. -/
def checkForConversion (c : Configuration) : Except ConfigurationError Unit :=
  if c.networkMode = .useExisting ∧
      ((worded? c.existingVnetName?).isNone ∨ (worded? c.existingSubnetName?).isNone) then
    .error (.missing ["existingVnetName", "existingSubnetName"])
  else .ok ()

end Configuration

end BicepForge
