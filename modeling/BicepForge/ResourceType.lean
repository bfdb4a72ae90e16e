/-!
# Resource types

What is known about one type of cloud resource, and which generation recipe it follows.
-/

namespace BicepForge

/-- The generation recipe of a resource type. -/
inductive ResourceKind where
  | virtualNetwork
  | storageAccount
  | webSite
  | virtualMachine
  | nestedDeployment
  | generic
deriving DecidableEq, Repr

namespace ResourceKind

def all : List ResourceKind :=
  [virtualNetwork, storageAccount, webSite, virtualMachine, nestedDeployment, generic]

def name : ResourceKind → String
  | virtualNetwork => "virtualNetwork"
  | storageAccount => "storageAccount"
  | webSite => "webSite"
  | virtualMachine => "virtualMachine"
  | nestedDeployment => "nestedDeployment"
  | generic => "generic"

def ofName? (name : String) : Option ResourceKind :=
  all.find? (·.name == name)

/-- Whether the kind brings parameters of its own, so that none are derived from a schema. -/
def hasOwnParameters : ResourceKind → Bool
  | virtualNetwork | storageAccount | webSite | virtualMachine => true
  | nestedDeployment | generic => false

end ResourceKind

/-- What is known about a resource type. -/
structure ResourceTypeInfo where
  name : String
  kind : ResourceKind := .generic
  supportsLocationAndTags : Bool := true
  preferredApiVersion? : Option String := none
  /-- The API versions that exist, oldest first. -/
  knownApiVersions : List String := []
  /-- The types that have to be declared alongside this one. -/
  auxiliaryTypes : List String := []
  /-- Whether this comes from a registry rather than being assumed. -/
  registered : Bool := false
deriving DecidableEq, Repr

namespace ResourceTypeInfo

/-- What is assumed about a type that nobody registered. -/
def assumed (name : String) : ResourceTypeInfo :=
  { name }

def latestApiVersion? (info : ResourceTypeInfo) : Option String :=
  info.knownApiVersions.getLast?

end ResourceTypeInfo

end BicepForge
