import BicepForge.Assembly.Dependency
import BicepForge.Catalog
import BicepForge.Check.ResourceType

/-!
# The members of an assembly

Every selected resource whose schema can be loaded becomes a member; the others are left out with a
warning. The API versions of a schema are put right on the way in: where one does not exist, the
newest that does takes the place of all.
-/

namespace BicepForge.Assembly

/-- A selected resource with the schema it is generated from. -/
structure Member where
  entry : CatalogEntry
  type : String
  apiVersion : String
  schema : ResourceSchema
  /-- Where the knowledge about its type came from. -/
  source : Check.TypeSource
deriving DecidableEq

namespace Member

def id (m : Member) : String :=
  m.entry.id

def symbol (m : Member) : String :=
  symbolOf m.id

def moduleSymbol (m : Member) : String :=
  m.symbol ++ "Module"

end Member

/-- What became of a selected resource. -/
structure Outcome where
  member? : Option Member
  warnings : List String
deriving DecidableEq

/-- A schema whose API versions were put right, and the version it has now. -/
structure Correction where
  version : String
  schema : ResourceSchema

/-- The correction of a schema with API versions that do not exist; none where nothing is known that
could take their place. -/
def correction? (check : Check.TypeCheck) (schema : ResourceSchema) : Option Correction :=
  if check.invalidVersions.isEmpty then none
  else check.latest?.bind fun latest =>
    (schema.withApiVersions? [latest]).map fun corrected => ⟨latest, corrected⟩

/-- The findings of a type check that a user is told of. -/
def findings (check : Check.TypeCheck) (corrected? : Option Correction) : List String :=
  check.notes ++
    (if check.known then [] else ["Resource type may not be valid"]) ++
    (if check.invalidVersions.isEmpty then []
      else ["API versions " ++ String.intercalate ", " check.invalidVersions ++
        " may be invalid"]) ++
    (corrected?.map fun c => "Auto-corrected to use API version " ++ c.version).toList

/-- Checks a selected resource with its schema. -/
def accept (c : Context) (entry : CatalogEntry) (schema : ResourceSchema) : Outcome × Context :=
  let type := schema.resourceType?.getD nestedDeploymentType
  let (check, c) := Check.checkType c type schema
  let corrected? := correction? check schema
  let schema := (corrected?.map (·.schema)).getD schema
  ({ member? := some
       { entry, type, schema, source := check.source
         apiVersion := c.registry.selectApiVersion schema type }
     warnings := (findings check corrected?).map fun text => entry.name ++ ": " ++ text }, c)

def Outcome.leftOut (entry : CatalogEntry) : Outcome :=
  ⟨none, [entry.name ++ ": Failed to load schema"]⟩

/-- The outcome for a selected resource, by the schemas that can be loaded. -/
def examine (schemas : String → Option ResourceSchema) (c : Context) (entry : CatalogEntry) :
    Outcome × Context :=
  match schemas entry.schema with
  | none => (.leftOut entry, c)
  | some schema => accept c entry schema

/-- The outcomes for a selection, one for each resource and in its order. What one check learns, the
next ones know. -/
def examineAll (schemas : String → Option ResourceSchema) (c : Context) :
    List CatalogEntry → List Outcome × Context
  | [] => ([], c)
  | entry :: rest =>
    let (outcome, c) := examine schemas c entry
    let (outcomes, c) := examineAll schemas c rest
    (outcome :: outcomes, c)

end BicepForge.Assembly
