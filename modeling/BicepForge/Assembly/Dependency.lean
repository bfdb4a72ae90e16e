import BicepForge.Entries
import BicepForge.Generation.Naming

/-!
# Dependencies between catalog resources

Which resources have to be deployed ahead of which, by their ids in the catalog, and the symbols
under which assembled documents declare them.
-/

namespace BicepForge.Assembly

/-- The resources that each resource depends on, if they are part of the same deployment. -/
def dependencyTable : Entries (List String) :=
  [("webapp", ["appplan"]),
   ("functions", ["appplan", "storage"]),
   ("sqldatabase", ["storage"]),
   ("vm", ["vnet"])]

def dependenciesOf (id : String) : List String :=
  (dependencyTable.lookup id).getD []

/-- The symbol for an id: its letters and digits. -/
def symbolOf (id : String) : String :=
  String.ofList (Generation.alphanumerics id.toList)

end BicepForge.Assembly
