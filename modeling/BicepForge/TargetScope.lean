/-!
# Target scopes

The level of the cloud hierarchy that a document deploys to.
-/

namespace BicepForge

/-- The level a deployment acts on. -/
inductive TargetScope where
  | resourceGroup
  | subscription
  | managementGroup
  | tenant
deriving DecidableEq, Repr

namespace TargetScope

def name : TargetScope → String
  | resourceGroup => "resourceGroup"
  | subscription => "subscription"
  | managementGroup => "managementGroup"
  | tenant => "tenant"

def ofName? (name : String) : Option TargetScope :=
  [resourceGroup, subscription, managementGroup, tenant].find? (·.name == name)

@[simp] theorem ofName?_name (s : TargetScope) : ofName? s.name = some s := by
  cases s <;> decide

end TargetScope

end BicepForge
