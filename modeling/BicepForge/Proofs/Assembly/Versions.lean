import BicepForge.Proofs.Assembly.Isolation
import BicepForge.Proofs.Assembly.References
import BicepForge.Proofs.Registry.Selection

/-!
# Declared API versions

A resource is declared with an API version that the registry picks: the one it prefers, whatever a
live source lists; else one that the schema offers; else, for a schema that offers none, a fixed
one. Main statement: where the choice falls to the schema and no warning was given, the declared
version is among those that the source of the check listed. The two other cases are real exceptions.
-/

namespace BicepForge

namespace Assembly

open Check Bicep

/-! ## Examinations -/

/-- What was found about a selected resource whose schema could be loaded, and what became of it. -/
structure Examination where
  entry : CatalogEntry
  /-- The check of the schema as it was loaded. -/
  check : TypeCheck
  member : Member
  warnings : List String

def typeOf (schema : ResourceSchema) : String :=
  schema.resourceType?.getD nestedDeploymentType

def examination (c : Context) (entry : CatalogEntry) (schema : ResourceSchema) : Examination :=
  let type := typeOf schema
  let check := (checkType c type schema).1
  let corrected? := correction? check schema
  let kept := (corrected?.map (·.schema)).getD schema
  { entry, check
    member :=
      { entry, type, schema := kept, source := check.source
        apiVersion := c.registry.selectApiVersion kept type }
    warnings := (findings check corrected?).map fun text => entry.name ++ ": " ++ text }

/-- The examinations of a selection in the course of changing surroundings, after a number of
schemas were checked. -/
def examinationsAlong (schemas : String → Option ResourceSchema) (course : Course) (checked : Nat)
    (c : Context) : List CatalogEntry → List Examination
  | [] => []
  | entry :: rest =>
    match schemas entry.schema with
    | none => examinationsAlong schemas course checked c rest
    | some schema =>
      let c := c.within (course checked c.log)
      examination c entry schema ::
        examinationsAlong schemas course (checked + 1) (accept c entry schema).2 rest

section Examinations

variable (c : Context) (entry : CatalogEntry) (schema : ResourceSchema)

/-- What is accepted is what the examination says. -/
theorem outcome_accept :
    (accept c entry schema).1 =
      ⟨some (examination c entry schema).member, (examination c entry schema).warnings⟩ := by
  have registry := (surroundings_checkType c (typeOf schema) schema).1
  rw [accept, ← typeOf]
  simp only [registry]
  rfl

theorem registry_accept : (accept c entry schema).2.registry = c.registry :=
  (surroundings_checkType c (typeOf schema) schema).1

variable {schemas : String → Option ResourceSchema} {course : Course} (checked : Nat)
  (selection : List CatalogEntry)

/-- The members are those of the examinations. -/
theorem members_examineAlong :
    (examineAlong schemas course checked c selection).1.filterMap (·.member?) =
      (examinationsAlong schemas course checked c selection).map (·.member) := by
  induction selection generalizing checked c with
  | nil => rfl
  | cons entry rest ih =>
    cases loaded : schemas entry.schema with
    | none =>
      simp only [examineAlong, examinationsAlong, loaded]
      exact ih c checked
    | some schema =>
      have found : ∀ o : Outcome, ∀ m os, o.member? = some m →
          (o :: os).filterMap (·.member?) = m :: os.filterMap (·.member?) :=
        fun o m os h => List.filterMap_cons_some h
      simp only [examineAlong, examinationsAlong, loaded, outcome_accept]
      rw [found _ _ _ rfl, List.map_cons, ih]

/-- All that an examination warns of is told. -/
theorem warnings_examineAlong {x : Examination}
    (mem : x ∈ examinationsAlong schemas course checked c selection) :
    x.warnings ⊆ (examineAlong schemas course checked c selection).1.flatMap (·.warnings) := by
  induction selection generalizing checked c with
  | nil => cases mem
  | cons entry rest ih =>
    cases loaded : schemas entry.schema with
    | none =>
      simp only [examinationsAlong, loaded] at mem
      simp only [examineAlong, loaded, List.flatMap_cons]
      exact List.subset_append_of_subset_right _ (ih c checked mem)
    | some schema =>
      simp only [examinationsAlong, loaded] at mem
      simp only [examineAlong, loaded, List.flatMap_cons, outcome_accept]
      rcases List.mem_cons.mp mem with rfl | mem
      · exact List.subset_append_left _ _
      · exact List.subset_append_of_subset_right _ (ih _ _ mem)

end Examinations

/-! ## Where a version comes from -/

/-- The warning that some API versions of a resource may not exist. -/
def versionWarning (entry : CatalogEntry) (versions : String) : String :=
  entry.name ++ ": " ++ ("API versions " ++ versions ++ " may be invalid")

/-- Nobody is warned of the API versions of a resource. -/
def Examination.Silent (x : Examination) : Prop :=
  ∀ versions, versionWarning x.entry versions ∉ x.warnings

/-- How the version of a member comes from its examination. -/
structure Examination.Explained (x : Examination) (registry : Registry) : Prop where
  entry : x.member.entry = x.entry
  type : x.member.type = x.check.type
  /-- The registry comes first. -/
  preferred : ∀ version, registry.preferred? x.member.type = some version →
    x.member.apiVersion = version
  /-- Then the schema, and what it offers is listed if there is no warning. -/
  listed : registry.preferred? x.member.type = none → x.check.schemaVersions ≠ [] → x.Silent →
    x.member.apiVersion ∈ x.check.available
  /-- A schema that offers nothing has the fallback. -/
  fallback : registry.preferred? x.member.type = none → x.check.schemaVersions = [] →
    x.member.apiVersion = Registry.fallbackApiVersion

section Versions

variable (c : Context) (entry : CatalogEntry) (schema : ResourceSchema)

/-- A check is about the type and the versions that it was asked about. -/
theorem subject_checkType (type : String) :
    (checkType c type schema).1.type = type ∧
      (checkType c type schema).1.schemaVersions = schema.apiVersions := by
  cases way c type with
  | unasked none =>
    rw [checkType_unasked none]
    exact ⟨rfl, rfl⟩
  | kept p ask info kept =>
    rw [checkType_kept ask kept]
    exact ⟨rfl, rfl⟩
  | failed p ask missing e fails =>
    rw [checkType_failed ask missing fails]
    exact ⟨rfl, rfl⟩
  | learned p ask missing a answers =>
    rw [checkType_learned ask missing answers]
    exact ⟨rfl, rfl⟩

/-- Versions that do not exist are always warned of. -/
theorem invalidVersions_of_silent (h : (examination c entry schema).Silent) :
    (examination c entry schema).check.invalidVersions = [] := by
  by_contra invalid
  refine h (String.intercalate ", " (examination c entry schema).check.invalidVersions) ?_
  refine List.mem_map_of_mem ?_
  have some : (examination c entry schema).check.invalidVersions.isEmpty = false := by
    simpa using invalid
  simp only [findings]
  rw [show (checkType c (typeOf schema) schema).1.invalidVersions.isEmpty = false from some]
  simp [examination]

/-- Without such versions the schema stays as it was loaded. -/
theorem schema_member (h : (examination c entry schema).check.invalidVersions = []) :
    (examination c entry schema).member.apiVersion =
      c.registry.selectApiVersion schema (typeOf schema) := by
  have none : correction? (checkType c (typeOf schema) schema).1 schema = Option.none := by
    have empty : (checkType c (typeOf schema) schema).1.invalidVersions.isEmpty = true :=
      List.isEmpty_iff.mpr h
    rw [correction?, if_pos empty]
  simp only [examination, none, Option.map_none, Option.getD_none]

theorem explained_examination : (examination c entry schema).Explained c.registry where
  entry := rfl
  type := (subject_checkType c schema (typeOf schema)).1.symm
  preferred version preferred := Registry.selectApiVersion_of_preferred _ preferred
  listed none offers silent := by
    have valid := invalidVersions_of_silent c entry schema silent
    have asked := (subject_checkType c schema (typeOf schema)).2
    have offer : (examination c entry schema).member.apiVersion ∈
        (examination c entry schema).check.schemaVersions := by
      rw [schema_member c entry schema valid]
      exact asked ▸ Registry.selectApiVersion_of_offers schema none (asked ▸ offers)
    have known := List.filter_eq_nil_iff.mp valid _ offer
    simpa using known
  fallback none offers := by
    have asked := (subject_checkType c schema (typeOf schema)).2
    have valid : (examination c entry schema).check.invalidVersions = [] := by
      rw [TypeCheck.invalidVersions, offers]
      rfl
    rw [schema_member c entry schema valid]
    exact Registry.selectApiVersion_of_no_offers schema none (asked ▸ offers)

/-- Every member of a selection has a version that is explained. -/
theorem explained_examinationsAlong {schemas : String → Option ResourceSchema} {course : Course}
    (checked : Nat) (selection : List CatalogEntry) :
    ∀ x ∈ examinationsAlong schemas course checked c selection, x.Explained c.registry := by
  -- the context changes on the way, but its registry does not
  suffices h : ∀ d : Context, d.registry = c.registry →
      ∀ x ∈ examinationsAlong schemas course checked d selection, x.Explained c.registry by
    exact h c rfl
  induction selection generalizing checked with
  | nil =>
    intro d _ x mem
    cases mem
  | cons entry rest ih =>
    intro d same x mem
    cases loaded : schemas entry.schema with
    | none =>
      simp only [examinationsAlong, loaded] at mem
      exact ih checked d same x mem
    | some schema =>
      simp only [examinationsAlong, loaded] at mem
      rcases List.mem_cons.mp mem with rfl | mem
      · rw [← same]
        exact explained_examination (d.within _) entry schema
      · exact ih (checked + 1) _
          ((registry_accept (d.within (course checked d.log)) entry schema).trans same) x mem

end Versions

/-! ## Declared resources -/

/-- The resources that an assembly declares, in its main document or in its module files. -/
def resources (a : Assembly) : List Resource :=
  a.document.resources ++ a.modules.flatMap (·.document.resources)

/-- A resource is declared as what a member is. -/
structure Declares (m : Member) (r : Resource) : Prop where
  symbol : r.symbol = m.symbol
  type : r.type = m.type
  apiVersion : r.apiVersion = m.apiVersion

section Declared

variable (b : Batch)

/-- In place, the main document declares the members. -/
theorem declares_inline (now : Instant) (names warnings : List String)
    (mode : b.config.generateModules = false) :
    List.Forall₂ Declares b.members (b.mainDocument now names warnings).resources := by
  rw [Document.resources, declarations_inline b now names warnings mode, List.filterMap_map]
  show List.Forall₂ Declares b.members (b.members.filterMap (some ∘ b.inlineResource))
  rw [List.filterMap_eq_map, List.forall₂_map_right_iff, List.forall₂_same]
  exact fun m _ => ⟨rfl, rfl, rfl⟩

/-- Beside modules, the main document declares no resource. -/
theorem resources_modules (now : Instant) (names warnings : List String)
    (mode : b.config.generateModules = true) :
    (b.mainDocument now names warnings).resources = [] := by
  rw [Document.resources, declarations_modules b now names warnings mode, List.filterMap_map]
  exact List.filterMap_eq_nil_iff.mpr fun m _ => rfl

/-- Each module file declares its member. -/
theorem declares_moduleFiles (members : List Member) :
    List.Forall₂ Declares members
      ((members.map b.moduleFile).flatMap (·.document.resources)) := by
  induction members with
  | nil => exact .nil
  | cons m members ih => exact .cons ⟨rfl, rfl, rfl⟩ ih

end Declared

/-- Every member is declared once, in its place. -/
theorem declares_ofOutcomes (c : Context) (config : Configuration) (settings : Entries Json)
    (selection : List CatalogEntry) (outcomes : List Outcome) :
    List.Forall₂ Declares (ofOutcomes c config settings selection outcomes).members
      (ofOutcomes c config settings selection outcomes).resources := by
  let b : Batch := ⟨c.registry, config, settings, outcomes.filterMap (·.member?)⟩
  let titles := selection.map (·.name)
  let warnings := outcomes.flatMap (·.warnings)
  show List.Forall₂ Declares b.members
    ((b.mainDocument c.now titles warnings).resources ++
      b.moduleFiles.flatMap (·.document.resources))
  cases mode : config.generateModules with
  | false =>
    have files : b.moduleFiles = [] := if_neg (by simp [b, mode])
    rw [files, List.flatMap_nil, List.append_nil]
    exact declares_inline b c.now titles warnings mode
  | true =>
    have files : b.moduleFiles = b.members.map b.moduleFile := if_pos mode
    rw [files, resources_modules b c.now titles warnings mode]
    exact declares_moduleFiles b b.members

/-- A declared resource is the one that an examination is about, all that the examination warns of
is told, and the declared version is explained: the registry prefers it; else it is one of those
that the source of the check listed, if nobody is warned of the versions of the schema; and a schema
that offers none has the fallback. -/
structure Accounted (registry : Registry) (a : Assembly) (x : Examination) (r : Resource) :
    Prop where
  symbol : r.symbol = symbolOf x.entry.id
  type : r.type = x.check.type
  told : x.warnings ⊆ a.warnings
  preferred : ∀ version, registry.preferred? r.type = some version → r.apiVersion = version
  listed : registry.preferred? r.type = none → x.check.schemaVersions ≠ [] → x.Silent →
    r.apiVersion ∈ x.check.available
  fallback : registry.preferred? r.type = none → x.check.schemaVersions = [] →
    r.apiVersion = Registry.fallbackApiVersion

/-- A run makes an assembly that declares one resource for each examination. -/
def AccountsFor (registry : Registry) (run : Except AssemblyError Assembly)
    (examinations : List Examination) : Prop :=
  ∃ a, run = .ok a ∧ a.members = examinations.map (·.member) ∧
    List.Forall₂ (Accounted registry a) examinations a.resources

theorem accounted_of_explained {registry : Registry} {a : Assembly} {x : Examination}
    {r : Resource} (explained : x.Explained registry) (declares : Declares x.member r)
    (told : x.warnings ⊆ a.warnings) : Accounted registry a x r where
  symbol := by rw [declares.symbol, Member.symbol, Member.id, explained.entry]
  type := declares.type.trans explained.type
  told := told
  preferred := by
    rw [declares.type, declares.apiVersion]
    exact explained.preferred
  listed := by
    rw [declares.type, declares.apiVersion]
    exact explained.listed
  fallback := by
    rw [declares.type, declares.apiVersion]
    exact explained.fallback

section Runs

variable (c : Context) (config : Configuration) (schemas : String → Option ResourceSchema)
  (settings : Entries Json) (selection : List CatalogEntry)

theorem accountsFor_assembleAlong (course : Course) (some : selection ≠ []) :
    AccountsFor c.registry (assembleAlong course c config schemas settings selection).1
      (examinationsAlong schemas course 0 c selection) := by
  let run := examineAlong schemas course 0 c selection
  let a := ofOutcomes run.2 config settings selection run.1
  have members : a.members = (examinationsAlong schemas course 0 c selection).map (·.member) :=
    members_examineAlong c 0 selection
  have declares : List.Forall₂ Declares a.members a.resources :=
    declares_ofOutcomes run.2 config settings selection run.1
  have explained : ∀ x ∈ examinationsAlong schemas course 0 c selection, x.Explained c.registry :=
    explained_examinationsAlong c 0 selection
  have told : ∀ x ∈ examinationsAlong schemas course 0 c selection, x.warnings ⊆ a.warnings :=
    fun x mem => warnings_examineAlong c 0 selection mem
  refine ⟨a, ?_, members, ?_⟩
  · rw [assembleAlong, if_neg (by simpa using some)]
  · rw [members, List.forall₂_map_left_iff] at declares
    have known := (List.forall₂_and_left _ _).mpr
      ⟨fun x mem => And.intro (explained x mem) (told x mem), declares⟩
    exact known.imp fun x r h => accounted_of_explained h.1.1 h.2 h.1.2

/-- A selection is empty and refused, or it makes an assembly that declares one resource for each
schema that can be loaded, in the version that the registry prefers, else in one that the check of
the schema found listed unless it warned of invalid ones, else in the fallback of a schema without
versions. That holds for unchanging surroundings and along any course of them. -/
theorem assemble_versions :
    (selection = [] ∧
      (assemble c config schemas settings selection).1 = .error .emptySelection ∧
      ∀ course, (assembleAlong course c config schemas settings selection).1 =
        .error .emptySelection) ∨
    (AccountsFor c.registry (assemble c config schemas settings selection).1
        (examinationsAlong schemas (still c) 0 c selection) ∧
      ∀ course, AccountsFor c.registry (assembleAlong course c config schemas settings selection).1
        (examinationsAlong schemas course 0 c selection)) := by
  by_cases empty : selection = []
  · subst empty
    exact .inl ⟨rfl, rfl, fun course => rfl⟩
  · have along := fun course =>
      accountsFor_assembleAlong c config schemas settings selection course empty
    refine .inr ⟨?_, along⟩
    rw [← assembleAlong_still]
    exact along (still c)

end Runs

/-- Every resource is declared in a listed version, if the source of its check lists any and nobody
is warned of the versions of its schema. -/
def ListedOrWarned (a : Assembly) (examinations : List Examination) : Prop :=
  List.Forall₂ (fun x r => x.check.available ≠ [] →
    (∀ versions, versionWarning x.entry versions ∉ a.warnings) →
      r.apiVersion ∈ x.check.available) examinations a.resources

theorem not_listedOrWarned {a : Assembly} {x : Examination} {r : Resource}
    (declared : a.resources = [r]) (silent : a.warnings = []) (lists : x.check.available ≠ [])
    (unlisted : r.apiVersion ∉ x.check.available) : ¬ ListedOrWarned a [x] := by
  intro h
  rw [ListedOrWarned, declared] at h
  cases h with
  | cons listed _ =>
    exact unlisted (listed lists (by simp [silent]))

/-- A schema for a type that offers some versions. -/
def schemaOffering (type : String) (versions : List String) : ResourceSchema :=
  ⟨.obj [("properties", .obj
    [("type", .obj [("const", .str type)]),
     ("apiVersion", .obj [("enum", .arr (versions.map .str))])])]⟩

/-- Neither the preference of the registry nor the fallback heeds what is listed: a schema without
versions is declared in one that the registry does not list, and the preferred one is declared where
the provider lists another one. Nobody is warned. -/
theorem assemble_unlisted :
    let entry : CatalogEntry := { id := "gauge", name := "Gauge", schema := "gauge" }
    let provider : Provider :=
      { existence := fun _ => .ok true
        versions := fun _ => .ok ["2023-01-01"]
        locations := fun _ => .ok [] }
    let offline : Context := { now := ⟨0⟩ }
    let live : Context := { now := ⟨0⟩, provider? := some provider }
    let components : String → Option ResourceSchema := fun _ =>
      some (schemaOffering "Microsoft.Insights/components" [])
    let accounts : String → Option ResourceSchema := fun _ =>
      some (schemaOffering "Microsoft.Storage/storageAccounts" ["2023-01-01"])
    (∃ a, (assemble offline {} components [] [entry]).1 = .ok a ∧
      ¬ ListedOrWarned a (examinationsAlong components (still offline) 0 offline [entry])) ∧
    (∃ a, (assemble live {} accounts [] [entry]).1 = .ok a ∧
      ¬ ListedOrWarned a (examinationsAlong accounts (still live) 0 live [entry])) := by
  intro entry provider offline live components accounts
  exact
    ⟨⟨_, rfl, not_listedOrWarned rfl (by decide +kernel) (by decide +kernel) (by decide +kernel)⟩,
      ⟨_, rfl, not_listedOrWarned rfl (by decide +kernel) (by decide +kernel) (by decide +kernel)⟩⟩

end Assembly

end BicepForge
