import BicepForge.Entries
import BicepForge.Instant
import BicepForge.Text.Order

/-!
# Live metadata

What a cloud says about resource types: who is asked, what the questions are, and the cache of the
answers. Main statements: what is kept under a type is found there, and no other type is touched.
-/

namespace BicepForge

/-- Why a provider gives no answer. What it runs into on its way counts as well. -/
inductive MetadataError where
  /-- An answer that is not JSON. -/
  | malformed (reason : String)
  | unrecognized (reason : String)
  | missing (fields : List String)
  | invalid (reason : String)
  /-- The provider itself failed. -/
  | failed (reason : String)
  | notAuthenticated
  | io (reason : String)
  | yaml (reason : String)
deriving DecidableEq, Repr

def MetadataError.message : MetadataError → String
  | malformed reason => "Invalid JSON input: " ++ reason
  | unrecognized reason => "Unrecognized input: " ++ reason
  | missing fields => "Missing required configuration: " ++ String.intercalate ", " fields
  | invalid reason => "Invalid configuration: " ++ reason
  | failed reason => "Cloud metadata provider error: " ++ reason
  | notAuthenticated => "Cloud metadata provider is not authenticated"
  | io reason => "IO error: " ++ reason
  | yaml reason => "YAML parsing error: " ++ reason

/-- A question to a provider, about a resource type. -/
inductive Query where
  | existence (type : String)
  | versions (type : String)
  | locations (type : String)
deriving DecidableEq, Repr

/-- A source of live metadata. -/
structure Provider where
  authenticated : Bool := true
  /-- Whether a type exists. -/
  existence : String → Except MetadataError Bool
  /-- The API versions of a type. -/
  versions : String → Except MetadataError (List String)
  /-- The regions that offer a type. -/
  locations : String → Except MetadataError (List String)

/-- What a provider says of a type: whether it exists, and its API versions. -/
structure LiveAnswer where
  present : Bool
  apiVersions : List String
deriving DecidableEq, Repr

/-- Asks about a type. The versions are asked for only if it exists; the questions that were asked
come with the answer. -/
def Provider.describe (p : Provider) (type : String) :
    Except MetadataError LiveAnswer × List Query :=
  match p.existence type with
  | .error e => (.error e, [.existence type])
  | .ok false => (.ok ⟨false, []⟩, [.existence type])
  | .ok true =>
    ((p.versions type).map fun versions => ⟨true, Text.sorted versions⟩,
      [.existence type, .versions type])

/-- An answer that is kept. -/
structure CachedType where
  type : String
  present : Bool
  /-- The API versions in the order of texts. -/
  apiVersions : List String
  fetchedAt : Instant
deriving DecidableEq, Repr

/-- The answers that are kept, under their types. -/
structure Cache where
  entries : Entries CachedType := []

namespace Cache

def empty : Cache := {}

def get? (c : Cache) (type : String) : Option CachedType :=
  c.entries.lookup type

/-- Keeps an answer, in place of any other about its type. -/
def insert (c : Cache) (info : CachedType) : Cache :=
  ⟨Entries.put info.type info c.entries⟩

def size (c : Cache) : Nat :=
  c.entries.length

def snapshot (c : Cache) : List CachedType :=
  (c.entries.map (·.2)).mergeSort fun a b => decide (a.type ≤ b.type)

def restore (c : Cache) (infos : List CachedType) : Cache :=
  infos.foldl insert c

@[simp] theorem get?_insert_self (c : Cache) (info : CachedType) :
    (c.insert info).get? info.type = some info := by
  simp [insert, get?]

theorem get?_insert_of_ne (c : Cache) {info : CachedType} {type : String}
    (h : type ≠ info.type) : (c.insert info).get? type = c.get? type := by
  simp [insert, get?, Entries.lookup_put_of_ne h]

end Cache

end BicepForge
