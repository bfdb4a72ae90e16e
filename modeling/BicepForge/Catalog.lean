/-!
# The catalog

The resources a user can pick by a short id, each with the schema file that describes it.
-/

namespace BicepForge

/-- A resource to pick: its id, a name for readers, and the name of its schema. -/
structure CatalogEntry where
  id : String
  name : String
  schema : String
deriving DecidableEq, Repr

namespace Catalog

/-- The resources on offer. -/
def entries : List CatalogEntry :=
  [⟨"storage", "Storage Account", "storage-account"⟩,
   ⟨"webapp", "Web App", "web-app"⟩,
   ⟨"vm", "Virtual Machine", "virtual-machine"⟩,
   ⟨"keyvault", "Key Vault", "key-vault"⟩,
   ⟨"sqldatabase", "SQL Database", "sql-database"⟩,
   ⟨"functions", "Function App", "function-app"⟩,
   ⟨"appplan", "App Service Plan", "app-service-plan"⟩,
   ⟨"vnet", "Virtual Network", "virtual-network"⟩]

def ids : List String :=
  entries.map (·.id)

def get? (id : String) : Option CatalogEntry :=
  entries.find? (·.id == id)

end Catalog

end BicepForge
