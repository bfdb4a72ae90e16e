import BicepForge.CommandLine.Run
import BicepForge.Proofs.Assembly.Correction
import BicepForge.Proofs.Assembly.Modes
import BicepForge.Proofs.Check.Reports

/-!
# Types that are known without a provider

Without a provider a type counts as known if API versions of it are listed. That is more than being
registered: a type may be registered without any version, as three of the built-in types are. Main
statement: in every registry exactly the listed types are known, and that alone decides whether an
assembly warns, whether a command that asks for known types finds an error, and whether other types
are suggested. So a type is known exactly if it is registered, unless it is registered without
versions.
-/

namespace BicepForge

namespace Registry

/-! ## Registered and listed types -/

/-- A type is registered with API versions that exist. -/
def Lists (r : Registry) (type : String) : Prop :=
  ∃ info, r.find? type = some info ∧ info.knownApiVersions ≠ []

def knownVersions (r : Registry) (type : String) : List String :=
  (r.lookup type .resourceGroup).knownApiVersions

/-- The last of some registrations that is about a type. -/
def lastAbout? (infos : List ResourceTypeInfo) (type : String) : Option ResourceTypeInfo :=
  infos.reverse.find? fun info => info.name == type

section Registrations

variable (r : Registry) (infos : List ResourceTypeInfo) (type : String)

theorem find?_register (info : ResourceTypeInfo) :
    (r.register info).find? type = if info.name = type then some info else r.find? type := by
  split
  case isTrue same =>
    subst same
    exact find?_register_self r info
  case isFalse other => exact find?_register_of_ne r (Ne.symm other)

/-- Of several registrations the last one about a type counts; where there is none, nothing
changes. -/
theorem find?_registerAll :
    (r.registerAll infos).find? type = (lastAbout? infos type).or (r.find? type) := by
  induction infos generalizing r with
  | nil => rfl
  | cons info infos ih =>
    have first : ((r.register info).find? type) =
        ([info].find? fun info => info.name == type).or (r.find? type) := by
      rw [find?_register, List.find?_singleton]
      by_cases same : info.name = type <;> simp [same]
    calc ((r.register info).registerAll infos).find? type
        = (lastAbout? infos type).or ((r.register info).find? type) := ih _
      _ = (lastAbout? (info :: infos) type).or (r.find? type) := by
        rw [first, lastAbout?, lastAbout?, List.reverse_cons, List.find?_append, Option.or_assoc]

/-- A type is registered if it was before or one of the registrations is about it. -/
theorem contains_registerAll :
    (r.registerAll infos).contains type = true ↔
      (∃ info ∈ infos, info.name = type) ∨ r.contains type = true := by
  rw [contains, find?_registerAll, Option.isSome_or, Bool.or_eq_true]
  refine or_congr ?_ Iff.rfl
  simp [lastAbout?]

theorem lists_of_find? {r : Registry} {type : String} {info : ResourceTypeInfo}
    (found : r.find? type = some info) : r.Lists type ↔ info.knownApiVersions ≠ [] := by
  simp [Lists, found]

theorem Lists.contains {r : Registry} {type : String} (h : r.Lists type) :
    r.contains type = true := by
  obtain ⟨info, found, -⟩ := h
  rw [Registry.contains, found]
  rfl

/-- The last registration of a type decides whether it is listed. -/
theorem lists_registerAll :
    (r.registerAll infos).Lists type ↔
      match lastAbout? infos type with
      | some info => info.knownApiVersions ≠ []
      | none => r.Lists type := by
  have found := find?_registerAll r infos type
  cases last : lastAbout? infos type with
  | some info =>
    rw [last] at found
    exact lists_of_find? found
  | none =>
    rw [last, Option.none_or] at found
    rw [Lists, found]
    exact Iff.rfl

/-- The API versions of a type do not depend on the scope; a type that is not registered has none. -/
theorem knownApiVersions_lookup (scope : TargetScope) :
    (r.lookup type scope).knownApiVersions =
      ((r.find? type).map (·.knownApiVersions)).getD [] := by
  have info : (r.lookup type scope).knownApiVersions =
      ((r.find? type).getD (.assumed type)).knownApiVersions := by
    unfold lookup
    dsimp only
    split <;> rfl
  rw [info]
  cases r.find? type <;> rfl

theorem lists_iff : r.Lists type ↔ r.knownVersions type ≠ [] := by
  rw [knownVersions, knownApiVersions_lookup, Lists]
  cases r.find? type <;> simp

instance : Decidable (r.Lists type) :=
  decidable_of_iff _ (lists_iff r type).symm

end Registrations

/-! ## The built-in types -/

def unlistedTypes : List String :=
  [nestedDeploymentType, "Microsoft.Authorization/policyAssignments",
   "Microsoft.Authorization/roleAssignments"]

/-- All built-in types are listed but these. -/
theorem not_lists_azure_iff (type : String) :
    azure.contains type = true ∧ ¬ azure.Lists type ↔ type ∈ unlistedTypes := by
  have each : ∀ info ∈ builtinTypes, ¬ azure.Lists info.name ↔ info.name ∈ unlistedTypes := by
    decide +kernel
  have all : ∀ type ∈ unlistedTypes, ∃ info ∈ builtinTypes, info.name = type := by
    decide +kernel
  have registered : azure.contains type = true ↔ ∃ info ∈ builtinTypes, info.name = type := by
    rw [azure, contains_registerAll]
    refine (or_iff_left Bool.false_ne_true).trans ?_
    simp only [List.mem_map, exists_exists_and_eq_and]
  rw [registered]
  constructor
  · rintro ⟨⟨info, mem, rfl⟩, unlisted⟩
    exact (each info mem).mp unlisted
  · intro mem
    obtain ⟨info, known, rfl⟩ := all type mem
    exact ⟨⟨info, known, rfl⟩, (each info known).mpr mem⟩

end Registry

/-! ## Checks -/

namespace Check

/-- A check knows the listed types, and suggests types that have to do with it in place of any
other. -/
structure KnowsListed (r : Registry) (type : String) (check : TypeCheck) : Prop where
  known : check.known = true ↔ r.Lists type
  listed : r.Lists type → check.suggestions = []
  unlisted : ¬ r.Lists type → check.suggestions = similarTypes type

theorem knowsListed_offline (r : Registry) (type : String) (schema : ResourceSchema) :
    KnowsListed r type (.offline r type schema) := by
  have known : (TypeCheck.offline r type schema).known = true ↔ r.Lists type := by
    simp [TypeCheck.offline, Registry.lists_iff, Registry.knownVersions]
  have suggestions : (TypeCheck.offline r type schema).suggestions =
      suggestionsFor (TypeCheck.offline r type schema).known type := rfl
  refine ⟨known, fun listed => ?_, fun unlisted => ?_⟩
  · rw [suggestions, suggestionsFor, if_pos (known.mpr listed)]
  · rw [suggestions, suggestionsFor, if_neg (mt known.mp unlisted)]

/-- A check that asked the registry knows what the registry lists, whether or not a provider was
asked ahead of it. -/
theorem knowsListed_checkType (c : Context) (type : String) (schema : ResourceSchema)
    (offline : (checkType c type schema).1.source = .offline) :
    KnowsListed c.registry type (checkType c type schema).1 := by
  cases way c type with
  | unasked none =>
    rw [checkType_unasked none]
    exact knowsListed_offline c.registry type schema
  | failed p ask missing e fails =>
    rw [checkType_failed ask missing fails]
    exact { knowsListed_offline c.registry type schema with }
  | kept p ask info kept =>
    rw [checkType_kept ask kept] at offline
    cases offline
  | learned p ask missing a answers =>
    rw [checkType_learned ask missing answers] at offline
    cases offline

theorem errors_reportVersions (check : TypeCheck) (r : Report) :
    (reportVersions check r).errors = r.errors := by
  unfold reportVersions
  split_ifs <;> rfl

/-- The report of a check has no errors. -/
theorem errors_report (check : TypeCheck) : check.report.errors = [] := by
  have first : (if check.known then
      Report.empty.note ("Resource type \"" ++ check.type ++ "\" exists in Azure")
    else (Report.empty.warning ("Resource type \"" ++ check.type ++
      "\" not found in Azure")).withNotes
        (check.suggestions.map fun s => "Similar resource type: " ++ s)).errors = [] := by
    split
    · rfl
    · exact Report.errors_withNotes _ _
  have versions := (Report.errors_withWarnings _ check.notes).trans
    ((errors_reportVersions check _).trans first)
  unfold TypeCheck.report
  by_cases offline : check.isOffline = true
  · rw [if_pos offline]
    exact versions
  · rw [if_neg offline]
    exact versions

end Check

/-! ## Assemblies -/

namespace Assembly

open Check

def unknownFinding : String := "Resource type may not be valid"

/-- The warning that the type of a resource is not known. -/
def unknownWarning (entry : CatalogEntry) : String :=
  entry.name ++ ": " ++ unknownFinding

/-- No finding but the one about an unknown type reads like it. -/
theorem unknownFinding_mem_findings (c : Context) (type : String) (schema : ResourceSchema)
    (corrected? : Option Correction) :
    unknownFinding ∈ findings (checkType c type schema).1 corrected? ↔
      (checkType c type schema).1.known = false := by
  have apart {mark : String} (other : Text.startsWith unknownFinding mark = false)
      (rest : String) : unknownFinding ≠ mark ++ rest := by
    intro same
    rw [same, Text.startsWith_append_self] at other
    cases other
  have notes : unknownFinding ∉ (checkType c type schema).1.notes := by
    intro mem
    obtain ⟨e, same⟩ := exists_of_mem_notes mem
    exact apart (by decide +kernel) _ same
  have versions : unknownFinding ∉ (if (checkType c type schema).1.invalidVersions.isEmpty then []
      else [versionsMark ++ String.intercalate ", " (checkType c type schema).1.invalidVersions ++
        " may be invalid"]) := by
    split
    · exact List.not_mem_nil
    · rw [List.mem_singleton, String.append_assoc]
      exact apart isFindingMark_versionsMark.unknown _
  have corrections : unknownFinding ∉
      (corrected?.map fun x => correctionMark ++ x.version).toList := by
    cases corrected? with
    | none => exact List.not_mem_nil
    | some x =>
      exact mt List.mem_singleton.mp (apart isFindingMark_correctionMark.unknown _)
  have findings_eq : unknownFinding ∈ findings (checkType c type schema).1 corrected? ↔
      unknownFinding ∈ if (checkType c type schema).1.known then [] else [unknownFinding] := by
    rw [findings, List.mem_append, List.mem_append, List.mem_append]
    exact (or_iff_left corrections).trans ((or_iff_left versions).trans (or_iff_right notes))
  rw [findings_eq]
  cases (checkType c type schema).1.known <;> simp

section Warnings

variable {schemas : String → Option ResourceSchema} {c : Context} {entry : CatalogEntry}

/-- A resource whose schema is loaded is warned of if the check of it does not know its type. -/
theorem unknownWarning_mem_iff {schema : ResourceSchema}
    (loaded : schemas entry.schema = some schema) :
    unknownWarning entry ∈ warningsAbout schemas c entry ↔
      (examination c entry schema).check.known = false := by
  have warnings : warningsAbout schemas c entry = (findings (examination c entry schema).check
      (correction? (examination c entry schema).check schema)).map
        fun text => entry.name ++ ": " ++ text := by
    rw [warningsAbout, examine, loaded]
    exact congrArg Outcome.warnings (outcome_accept c entry schema)
  have injective : Function.Injective fun text : String => entry.name ++ ": " ++ text :=
    fun _ _ same => String.append_right_inj _ |>.mp same
  rw [warnings]
  exact (List.mem_map_of_injective injective).trans (unknownFinding_mem_findings c _ schema _)

/-- A resource that is left out is not warned of in this way. -/
theorem unknownWarning_notMem (unloaded : schemas entry.schema = none) :
    unknownWarning entry ∉ warningsAbout schemas c entry := by
  have warnings : warningsAbout schemas c entry = [entry.name ++ ": Failed to load schema"] := by
    rw [warningsAbout, examine, unloaded]
    rfl
  have finding : unknownWarning entry = entry.name ++ ": Resource type may not be valid" :=
    String.append_assoc
  rw [warnings, finding, List.mem_singleton, String.append_right_inj]
  decide

end Warnings

/-- An assembly warns of each resource as it would of this one alone. -/
theorem exists_assemble_warnings (c : Context) (config : Configuration)
    (schemas : String → Option ResourceSchema) (settings : Entries Json)
    {selection : List CatalogEntry} (some : selection ≠ []) :
    ∃ a, (assemble c config schemas settings selection).1 = .ok a ∧
      a.warnings = selection.flatMap (warningsAbout schemas c) := by
  refine ⟨_, congrArg Prod.fst (assemble_of_ne_nil some c config schemas settings), ?_⟩
  show List.flatMap _ _ = _
  rw [@outcomes_eq_map schemas c c selection (.refl c), List.flatMap_map]
  rfl

/-- Among the warnings about a resource is the one that its type is not known if its schema is
loaded and describes a type that is not listed, provided that the registry was asked. -/
def WarnsOfUnlisted (schemas : String → Option ResourceSchema) (c : Context)
    (entry : CatalogEntry) : Prop :=
  match schemas entry.schema with
  | none => unknownWarning entry ∉ warningsAbout schemas c entry
  | some schema => (examination c entry schema).check.source = .offline →
      (unknownWarning entry ∈ warningsAbout schemas c entry ↔
        ¬ c.registry.Lists (typeOf schema))

theorem warnsOfUnlisted (schemas : String → Option ResourceSchema) (c : Context)
    (entry : CatalogEntry) : WarnsOfUnlisted schemas c entry := by
  unfold WarnsOfUnlisted
  split
  case h_1 unloaded => exact unknownWarning_notMem unloaded
  case h_2 schema loaded =>
    intro offline
    have knows := (knowsListed_checkType c (typeOf schema) schema offline).known
    rw [unknownWarning_mem_iff loaded, ← Bool.not_eq_true]
    exact not_congr knows

end Assembly

/-! ## Commands -/

namespace CommandLine

open Check

def unknownTypeError (type : String) : String :=
  "Unknown resource type: " ++ type

/-- The errors about the type of a schema where types have to be known. -/
def unknownTypeErrors (schema : ResourceSchema) : List String :=
  match schema.resourceType? with
  | none => []
  | some type => if Registry.azure.Lists type then [] else [unknownTypeError type]

theorem errors_typeReport (schema : ResourceSchema) :
    (typeReport schema).errors = unknownTypeErrors schema := by
  unfold typeReport unknownTypeErrors
  cases schema.resourceType? with
  | none => rfl
  | some type =>
    have knows := (knowsListed_offline .azure type schema).known
    dsimp only [Report.merge]
    rw [errors_report, List.append_nil]
    by_cases listed : Registry.azure.Lists type
    · rw [if_pos (knows.mpr listed), if_pos listed]
      rfl
    · rw [if_neg (mt knows.mp listed), if_neg listed]
      rfl

/-- In the report on a schema these errors stand behind those that are found in any case. -/
theorem errors_validationReport {m : Type → Type} [Monad m] (s : Site m) (q : ValidateRequest)
    (schema : ResourceSchema) (strict : q.strictTypes = true) (alone : q.instance? = none) :
    ∃ r, validationReport s q (.resourceSchema schema) = pure r ∧
      r.errors = (checkSchema schema).errors ++ unknownTypeErrors schema := by
  refine ⟨(checkSchema schema).merge (typeReport schema), ?_, ?_⟩
  · unfold validationReport
    simp only [strict, alone, if_true]
    rfl
  · rw [← errors_typeReport]
    rfl

end CommandLine

/-! ## All that is told of a type -/

namespace Check

open Assembly CommandLine

/-- A registry tells listed types from all others: checks that ask it do, and so do the assemblies
that are made with it. To be known is to be registered for the types that are not registered without
versions. -/
structure TellsListed (r : Registry) : Prop where
  check : ∀ c : Context, c.registry = r → ∀ type schema,
    ((∀ p, ¬ c.CanAsk p) → (checkType c type schema).1 = .offline r type schema) ∧
    ((checkType c type schema).1.source = .offline → KnowsListed r type (checkType c type schema).1)
  registered : ∀ type schema,
    ((TypeCheck.offline r type schema).known = true ↔ r.contains type = true) ↔
      (r.contains type = true → r.Lists type)
  assembly : ∀ c : Context, c.registry = r → ∀ config schemas settings selection,
    selection ≠ [] → ∃ a, (assemble c config schemas settings selection).1 = .ok a ∧
      a.warnings = selection.flatMap (warningsAbout schemas c) ∧
      ∀ entry ∈ selection, WarnsOfUnlisted schemas c entry

theorem tellsListed (r : Registry) : TellsListed r where
  check c same type schema := by
    subst same
    refine ⟨fun none => ?_, knowsListed_checkType c type schema⟩
    rw [checkType_unasked none]
  registered type schema := by
    rw [(knowsListed_offline r type schema).known]
    exact ⟨fun same => same.mpr, fun listed => ⟨Registry.Lists.contains, listed⟩⟩
  assembly c same config schemas settings selection some := by
    obtain ⟨a, made, warnings⟩ := exists_assemble_warnings c config schemas settings some
    exact ⟨a, made, warnings, fun entry _ => warnsOfUnlisted schemas c entry⟩

/-- Whatever is registered on whatever registry, a type is registered if one of the registrations is
about it, and listed if the last of these has versions; the listed types are the ones that are known
without a provider, that an assembly does not warn of and in place of which nothing is suggested.
Where types have to be known, the one error about a schema that declares a type is that it is not
listed; the built-in types that are not are three. -/
theorem known_iff_lists (base : Registry) (infos : List ResourceTypeInfo) :
    (∀ type, (base.registerAll infos).contains type = true ↔
      (∃ info ∈ infos, info.name = type) ∨ base.contains type = true) ∧
    (∀ type, (base.registerAll infos).Lists type ↔
      match Registry.lastAbout? infos type with
      | some info => info.knownApiVersions ≠ []
      | none => base.Lists type) ∧
    TellsListed (base.registerAll infos) ∧
    (∀ schema, (typeReport schema).errors = unknownTypeErrors schema) ∧
    (∀ (m : Type → Type) [Monad m] (s : Site m) (q : ValidateRequest) (schema : ResourceSchema),
      q.strictTypes = true → q.instance? = none →
      ∃ r, validationReport s q (.resourceSchema schema) = pure r ∧
        r.errors = (checkSchema schema).errors ++ unknownTypeErrors schema) ∧
    (∀ type, Registry.azure.contains type = true ∧ ¬ Registry.azure.Lists type ↔
      type ∈ Registry.unlistedTypes) :=
  ⟨Registry.contains_registerAll base infos, Registry.lists_registerAll base infos,
    tellsListed _, errors_typeReport, fun _ _ s q schema => errors_validationReport s q schema,
    Registry.not_lists_azure_iff⟩

/-- Nested deployments are built in and not known: a schema of theirs is refused where types have to
be known, and an assembly warns of them. A type that is registered without versions is suggested in
its own place. -/
theorem registered_unknown :
    let type := nestedDeploymentType
    let schema := schemaOffering type ["2021-04-01"]
    let entry : CatalogEntry := { id := "gauge", name := "Gauge", schema := "gauge" }
    let sites : ResourceTypeInfo := { name := "Microsoft.Web/sites", registered := true }
    let registry := Registry.empty.register sites
    (Registry.azure.contains type = true ∧
      (TypeCheck.offline .azure type schema).known = false) ∧
    (typeReport schema).errors = ["Unknown resource type: Microsoft.Resources/deployments"] ∧
    (∃ a, (assemble { now := ⟨0⟩ } {} (fun _ => some schema) [] [entry]).1 = .ok a ∧
      "Gauge: Resource type may not be valid" ∈ a.warnings) ∧
    (registry.contains sites.name = true ∧
      sites.name ∈ (TypeCheck.offline registry sites.name ⟨.obj []⟩).suggestions) := by
  intro type schema entry sites registry
  have errors := errors_typeReport schema
  exact ⟨by decide +kernel, errors.trans (by decide +kernel), ⟨_, rfl, by decide +kernel⟩,
    by decide +kernel, by decide +kernel⟩

end Check

end BicepForge
