import BicepForge.Context
import BicepForge.Report
import BicepForge.Text.LowerCase

/-!
# Checking resource types

Whether a resource type and the API versions of its schema are known. A provider that can be asked
decides, once for each type; without one, or if it fails, the registry does.
-/

namespace BicepForge.Check

/-- Where an answer about a resource type comes from. -/
inductive TypeSource where
  | offline
  | live
deriving DecidableEq, Repr

namespace TypeSource

def name : TypeSource → String
  | offline => "offline"
  | live => "live"

def description : TypeSource → String
  | offline => "Offline Database"
  | live => "Azure API"

end TypeSource

/-- What is known about a resource type and the API versions of a schema. -/
structure TypeCheck where
  type : String
  known : Bool
  /-- The API versions that exist, oldest first. -/
  available : List String
  schemaVersions : List String
  source : TypeSource
  suggestions : List String
  notes : List String
deriving DecidableEq, Repr

/-! ## Suggestions -/

/-- The types that may be suggested in place of an unknown one. -/
def suggestedTypes : List String :=
  ["Microsoft.Network/virtualNetworks", "Microsoft.Storage/storageAccounts",
   "Microsoft.Compute/virtualMachines", "Microsoft.Web/sites", "Microsoft.Web/serverfarms",
   "Microsoft.KeyVault/vaults", "Microsoft.Sql/servers",
   "Microsoft.Network/networkSecurityGroups", "Microsoft.Network/publicIPAddresses",
   "Microsoft.Network/loadBalancers", "Microsoft.ContainerRegistry/registries",
   "Microsoft.ContainerService/managedClusters"]

/-- The part of a type between its first two slashes; the whole of it where there is no slash. -/
def kindSegment (type : List Char) : List Char :=
  ((Text.splitOn '/' type)[1]?).getD type

/-- Whether two lower-case types have to do with each other: one holds the kind of the other. -/
def areSimilar (a b : List Char) : Bool :=
  Text.hasInfix (kindSegment a) b || Text.hasInfix (kindSegment b) a

/-- Up to three types that have to do with a type. -/
def similarTypes (type : String) : List String :=
  let lowered := (Text.lower type).toList
  if (kindSegment lowered).isEmpty then []
  else (suggestedTypes.filter fun t => areSimilar lowered (Text.lower t).toList).take 3

def suggestionsFor (known : Bool) (type : String) : List String :=
  if known then [] else similarTypes type

/-! ## The check -/

namespace TypeCheck

def invalidVersions (t : TypeCheck) : List String :=
  t.schemaVersions.filter fun v => !t.available.contains v

def validVersions (t : TypeCheck) : List String :=
  t.schemaVersions.filter fun v => t.available.contains v

def latest? (t : TypeCheck) : Option String :=
  t.available.getLast?

/-- Whether the registry was asked. -/
def isOffline (t : TypeCheck) : Bool :=
  t.source = .offline

/-- What the registry knows. -/
def offline (registry : Registry) (type : String) (schema : ResourceSchema) : TypeCheck :=
  let available := (registry.lookup type .resourceGroup).knownApiVersions
  { type
    known := !available.isEmpty
    available
    schemaVersions := schema.apiVersions
    source := .offline
    suggestions := suggestionsFor (!available.isEmpty) type
    notes := [] }

/-- What a live answer says. -/
def live (answer : CachedType) (type : String) (schema : ResourceSchema) : TypeCheck where
  type
  known := answer.present
  available := answer.apiVersions
  schemaVersions := schema.apiVersions
  source := .live
  suggestions := suggestionsFor answer.present type
  notes := []

/-- What the registry knows, with a note on why the provider was of no help. -/
def fallback (registry : Registry) (type : String) (schema : ResourceSchema) (e : MetadataError) :
    TypeCheck :=
  { offline registry type schema with
    notes := ["Live metadata unavailable, used offline data: " ++ e.message] }

end TypeCheck

/-- The live answer about a type: the one that is kept, else a new one, which is kept then. -/
def liveAnswer (c : Context) (p : Provider) (type : String) :
    Except MetadataError CachedType × Context :=
  match c.cache.get? type with
  | some info => (.ok info, c)
  | none =>
    let (answer, queries) := p.describe type
    let c := c.asked queries
    match answer with
    | .error e => (.error e, c)
    | .ok a =>
      let info : CachedType := ⟨type, a.present, a.apiVersions, c.now⟩
      (.ok info, { c with cache := c.cache.insert info })

def checkType (c : Context) (type : String) (schema : ResourceSchema) : TypeCheck × Context :=
  match c.liveProvider? with
  | none => (.offline c.registry type schema, c)
  | some p =>
    match liveAnswer c p type with
    | (.ok info, c) => (.live info type schema, c)
    | (.error e, c) => (.fallback c.registry type schema e, c)

/-! ## The report -/

def lastThree (l : List String) : List String :=
  l.drop (l.length - 3)

def reportVersions (t : TypeCheck) (r : Report) : Report :=
  if t.schemaVersions.isEmpty then r
  else if t.invalidVersions.isEmpty then r.note "All API versions are valid"
  else
    let r := r.warning ("Invalid API versions: " ++ String.intercalate ", " t.invalidVersions)
    if t.available.isEmpty then r
    else r.note ("Latest valid versions: " ++ String.intercalate ", " (lastThree t.available))

def TypeCheck.report (t : TypeCheck) : Report :=
  let r :=
    if t.known then Report.empty.note ("Resource type \"" ++ t.type ++ "\" exists in Azure")
    else
      (Report.empty.warning ("Resource type \"" ++ t.type ++ "\" not found in Azure")).withNotes
        (t.suggestions.map fun s => "Similar resource type: " ++ s)
  let r := (reportVersions t r).withWarnings t.notes
  let r := r.note ("Source: " ++ t.source.description)
  if t.isOffline then r.note "Connect to Azure for live validation" else r

end BicepForge.Check
