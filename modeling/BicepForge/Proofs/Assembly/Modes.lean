import BicepForge.Proofs.Assembly.Rearrangement
import BicepForge.Proofs.Assembly.Wiring
import BicepForge.Proofs.Text.Joined

/-!
# In place and in modules

An assembly declares its resources in the main document, or each in a module of its own. Both say
the same about every resource: what is declared in place has the entries of the resource in the
module, and between them tags, bindings of its own parameters and what it waits for. A main document
of modules passes each of them the parameters that it has, and reads no output that it has not.
-/

namespace BicepForge.Assembly

open Bicep Generation References Check

/-- The configuration by which resources are declared in modules, or in place. -/
def inMode (config : Configuration) (modules : Bool) : Configuration :=
  { config with generateModules := modules }

/-- The batch with its resources declared in modules, or in place. -/
def Batch.inMode (b : Batch) (modules : Bool) : Batch :=
  { b with config := Assembly.inMode b.config modules }

/-- The entries that a resource begins with wherever it is declared. -/
def Batch.front (b : Batch) (m : Member) : Body :=
  .property "name" (Batch.resourceName m.id) ::
    Body.onlyIf (b.isLocated m) [.ref "location" "location"]

/-- A user gives these settings under an id: an object, and one that has entries. -/
def IsGiven (settings : Entries Json) (id : String) (given : Json) : Prop :=
  settings.lookup id = some given ∧ ∃ entry rest, given = .obj (entry :: rest)

/-- The settings of a member in its module, and those in place. -/
inductive SettingsAgree (b : Batch) (m : Member) : Body → Body → Prop
  /-- What a user gives is the properties of the resource in both. -/
  | given {v : Json} (found : IsGiven b.settings m.id v) :
      SettingsAgree b m [.property "properties" (Value.ofJson v)]
        [.property "properties" (Value.ofJson v)]
  /-- Otherwise both have the defaults of the kind. -/
  | default (free : ∀ v, ¬ IsGiven b.settings m.id v)
      (apart : b.kind m = .webSite → ∀ p ∈ b.members, p.id ≠ "appplan") :
      SettingsAgree b m (Batch.defaultSettings b.config (b.kind m) none)
        (Batch.defaultSettings b.config (b.kind m) none)
  /-- Those of a web site name the plan in place, where it is in the batch. -/
  | onPlan (free : ∀ v, ¬ IsGiven b.settings m.id v) (site : b.kind m = .webSite) {p : Member}
      (mem : p ∈ b.members) (plan : p.id = "appplan") {defaults : Body}
      (same : Batch.defaultSettings b.config .webSite none = [.nest "properties" defaults]) :
      SettingsAgree b m [.nest "properties" defaults]
        [.nest "properties" (.ref "serverFarmId" "appplan.id" :: defaults)]

/-- A member of a batch is the same resource in place, beside the parameters of the main document,
and in its module. -/
structure Counterpart (b : Batch) (schemas : String → Option ResourceSchema)
    (selection : List CatalogEntry) (parameters : List Param) (m : Member)
    (place module : Resource) : Prop where
  symbol : place.symbol = module.symbol
  type : place.type = module.type
  apiVersion : place.apiVersion = module.apiVersion
  existing : place.existing = module.existing
  bodies : ∃ inside outside, SettingsAgree b m inside outside ∧
    module.body = b.front m ++ inside ∧
    place.body = b.front m ++
      Body.onlyIf (b.isLocated m) [.ref "tags" "commonTags"] ++
      (b.ownParameters m).map (fun p => .ref p.property (m.id ++ "_" ++ p.property)) ++ outside ++
      Batch.waiting ((awaited b.config schemas selection m.id).map symbolOf)
  /-- What the bindings read is a parameter of the main document. -/
  own : ∀ p ∈ b.ownParameters m, p.param ∈ parameters ∧ p.param.name = m.id ++ "_" ++ p.property

/-- A module is declared for a file: it gets the parameters of the file, and what the given outputs
read from it the file has. -/
structure Joined (outputs : List Output) (d : Module) (f : ModuleFile) : Prop where
  path : d.path = f.path
  params : ∃ params, d.body.get? "params" = some (.object params) ∧
    Body.keys params = f.document.parameters.map (·.name)
  outputs : ∀ o ∈ outputs, ∀ name, o.value = .expr (d.symbol ++ ".outputs." ++ name) →
    name ∈ f.document.outputs.map (·.name)

/-- The assembly of a selection in place and the one in modules describe one deployment. -/
structure SameDeployment (registry : Registry) (config : Configuration)
    (schemas : String → Option ResourceSchema) (settings : Entries Json)
    (selection : List CatalogEntry) (place modules : Assembly) : Prop where
  members : place.members = modules.members
  warnings : place.warnings = modules.warnings
  /-- Member by member there are a resource in place, a module and its file, and no others. -/
  resources : ∃ (resource : Member → Resource) (module : Member → Module)
      (file : Member → ModuleFile),
    place.document.declarations = place.members.map (fun m => .resource (resource m)) ∧
    modules.document.declarations = place.members.map (fun m => .module (module m)) ∧
    modules.modules = place.members.map file ∧
    ∀ m ∈ place.members, Joined modules.document.outputs (module m) (file m) ∧
      ∃ r, (file m).document.declarations = [.resource r] ∧
        Counterpart ⟨registry, config, settings, place.members⟩ schemas selection
          place.document.parameters m (resource m) r
  /-- No output reads anything but an output of a module. -/
  reads : ∀ o ∈ modules.document.outputs, ∃ d ∈ modules.document.modules, ∃ name,
    o.value = .expr (d.symbol ++ ".outputs." ++ name)
  paths : modules.document.modules.map (·.path) = modules.modules.map (·.path)
  /-- So each file has one module, unless an id is selected twice. -/
  distinct : (selection.map (·.id)).Nodup → (modules.modules.map (·.path)).Nodup

/-! ## Resources -/

section Batch

variable {b : Batch} {m : Member}

theorem member?_plan {p : Member} (h : b.member? "appplan" = some p) :
    p.symbol ++ ".id" = "appplan.id" := by
  have id : p.id = "appplan" := by simpa using List.find?_some h
  rw [Member.symbol, id]
  decide +kernel

theorem givenSettings?_eq_some_iff {v : Json} :
    b.givenSettings? m = some v ↔ IsGiven b.settings m.id v := by
  unfold Batch.givenSettings?
  constructor
  · intro found
    split at found
    · rename_i entry rest look
      obtain rfl := Option.some.inj found
      exact ⟨look, entry, rest, rfl⟩
    · cases found
  · rintro ⟨look, entry, rest, rfl⟩
    rw [look]

theorem givenSettings?_eq_none_iff :
    b.givenSettings? m = none ↔ ∀ v, ¬ IsGiven b.settings m.id v := by
  rw [Option.eq_none_iff_forall_ne_some]
  exact forall_congr' fun v => not_congr givenSettings?_eq_some_iff

/-- Only the default of a web site looks at the plan. -/
theorem defaultSettings_of_apart (config : Configuration) {kind : ResourceKind}
    {plan? : Option Member} (h : kind = .webSite → plan? = none) :
    Batch.defaultSettings config kind plan? = Batch.defaultSettings config kind none := by
  cases kind with
  | webSite => rw [h rfl]
  | virtualNetwork | storageAccount | virtualMachine | nestedDeployment | generic => rfl

theorem settingsAgree :
    SettingsAgree b m (b.settingsOf m none) (b.settingsOf m (b.member? "appplan")) := by
  unfold Batch.settingsOf
  cases settings : b.givenSettings? m with
  | some v => exact .given (givenSettings?_eq_some_iff.mp settings)
  | none =>
    have free := givenSettings?_eq_none_iff.mp settings
    cases plan : b.member? "appplan" with
    | none =>
      refine .default free fun _ p mem same => ?_
      exact List.find?_eq_none.mp plan p mem (beq_iff_eq.mpr same)
    | some p =>
      by_cases site : b.kind m = .webSite
      · have onPlan := @SettingsAgree.onPlan b m free site p (List.mem_of_find?_eq_some plan)
          (by simpa using List.find?_some plan) _ rfl
        simpa only [site, Batch.defaultSettings, Option.map_some, Option.map_none,
          Option.toList_some, Option.toList_none, List.nil_append, List.singleton_append,
          member?_plan plan] using onPlan
      · have same : Batch.defaultSettings b.config (b.kind m) (some p) =
            Batch.defaultSettings b.config (b.kind m) none :=
          defaultSettings_of_apart b.config fun web => absurd web site
        rw [same]
        exact .default free fun web => absurd web site

theorem givenSettings?_inMode (modules : Bool) :
    (b.inMode modules).givenSettings? m = b.givenSettings? m := rfl

theorem kind_inMode (modules : Bool) : (b.inMode modules).kind m = b.kind m := rfl

theorem settingsOf_inMode (modules : Bool) (plan? : Option Member) :
    (b.inMode modules).settingsOf m plan? = b.settingsOf m plan? := by
  have defaults : Batch.defaultSettings (b.inMode modules).config =
      Batch.defaultSettings b.config := by
    funext kind plan?
    cases kind <;> rfl
  rw [Batch.settingsOf, givenSettings?_inMode, kind_inMode, defaults]
  rfl

theorem onlyIf_cons_cons (b : Bool) (first second : Entry) :
    Body.onlyIf b [first, second] = Body.onlyIf b [first] ++ Body.onlyIf b [second] := by
  cases b <;> rfl

/-- What a resource has in place: its front and its settings, and beside them what only the main
document can say. -/
theorem body_inPlace {schemas : String → Option ResourceSchema} {selection : List CatalogEntry}
    (entries : b.members.map (·.entry) = selection.filter fun entry =>
      (schemas entry.schema).isSome) :
    ((b.inMode false).inlineResource m).body = b.front m ++
      Body.onlyIf (b.isLocated m) [.ref "tags" "commonTags"] ++
      (b.ownParameters m).map (fun p => .ref p.property (m.id ++ "_" ++ p.property)) ++
      b.settingsOf m (b.member? "appplan") ++
      Batch.waiting ((awaited b.config schemas selection m.id).map symbolOf) := by
  have bindings : (b.ownParameters m).map (fun p => Entry.ref p.property p.param.name) =
      (b.ownParameters m).map (fun p => .ref p.property (m.id ++ "_" ++ p.property)) :=
    List.map_congr_left fun p hp => by rw [(name_ownParameter hp).1]
  have waits := map_dependencies (b := b) (m := m) entries symbolOf
  rw [← settingsOf_inMode false, ← waits, ← bindings, Batch.front, List.cons_append,
    ← onlyIf_cons_cons]
  rfl

theorem counterpart {schemas : String → Option ResourceSchema} {selection : List CatalogEntry}
    {parameters : List Param} (hm : m ∈ b.members)
    (entries : b.members.map (·.entry) = selection.filter fun entry =>
      (schemas entry.schema).isSome)
    (own : b.members.flatMap (fun m => (b.ownParameters m).map (·.param)) ⊆ parameters)
    {r : Resource} (h : ((b.inMode true).moduleDocument m).declarations = [.resource r]) :
    Counterpart b schemas selection parameters m ((b.inMode false).inlineResource m) r := by
  obtain rfl := Declaration.resource.inj (List.cons.inj h).1
  exact
    { symbol := rfl
      type := rfl
      apiVersion := rfl
      existing := rfl
      bodies := by
        refine ⟨_, _, settingsAgree, ?_, body_inPlace entries⟩
        rw [← settingsOf_inMode true]
        rfl
      own := fun p hp => ⟨own (List.mem_flatMap.mpr ⟨m, hm, List.mem_map_of_mem hp⟩),
        (name_ownParameter hp).1⟩ }

/-! ## Modules -/

/-- What is read from a module is behind its symbol, which holds no dot. -/
theorem read_inj {m m' : Member} {name name' : String}
    (h : m.moduleSymbol ++ ".outputs." ++ name = m'.moduleSymbol ++ ".outputs." ++ name') :
    name = name' := by
  have noDot (m : Member) : '.' ∉ m.moduleSymbol.toList := by
    intro mem
    have word := List.all_eq_true.mp (isWord_moduleSymbol m) '.' mem
    exact absurd word (by decide)
  have mark : ".outputs.".toList = '.' :: "outputs.".toList := by decide +kernel
  exact (Text.joined_inj mark (noDot m) (noDot m') h).2

/-- Each module has the same outputs. -/
theorem outputs_moduleFile :
    (b.moduleFile m).document.outputs.map (·.name) = ["resourceId", "resourceName"] := rfl

end Batch

section Documents

variable (b : Batch) (now : Instant) (titles warnings : List String)

theorem modules_mainDocument (mode : b.config.generateModules = true) :
    (b.mainDocument now titles warnings).modules = b.members.map b.moduleDeclaration := by
  rw [Document.modules, declarations_modules b now titles warnings mode, List.filterMap_map]
  show List.filterMap (some ∘ b.moduleDeclaration) _ = _
  rw [List.filterMap_eq_map]

theorem joined (mode : b.config.generateModules = true) (m : Member) :
    Joined (b.mainDocument now titles warnings).outputs (b.moduleDeclaration m)
      (b.moduleFile m) where
  path := rfl
  params := ⟨_, rfl, rfl⟩
  outputs := by
    intro o ho name read
    obtain ⟨d, hd, f, hf, -, out, hout, value⟩ :=
      outputs_modules b now titles warnings mode o ho
    rw [declarations_modules b now titles warnings mode] at hd
    obtain ⟨m', -, made⟩ := List.mem_map.mp hd
    obtain rfl := Declaration.module.inj made
    rw [Batch.moduleFiles, if_pos mode] at hf
    obtain ⟨m'', -, rfl⟩ := List.mem_map.mp hf
    rw [value] at read
    obtain rfl := read_inj (Value.expr.inj read)
    have mem := List.mem_map_of_mem (f := Output.name) hout
    rw [outputs_moduleFile] at mem ⊢
    exact mem

end Documents

/-- An id can be read off the path of its module. -/
theorem modulePath_injective : Function.Injective Batch.modulePath := by
  intro id id' h
  have chars := congrArg String.toList h
  simp only [Batch.modulePath, String.toList_append] at chars
  exact String.toList_inj.mp (List.append_cancel_left (List.append_cancel_right chars))

/-- The same outcomes make the same deployment in place and in modules. -/
theorem sameDeployment_ofOutcomes {registry : Registry} {c c' : Context}
    (known : c.registry = registry) (known' : c'.registry = registry) (config : Configuration)
    (settings : Entries Json)
    {schemas : String → Option ResourceSchema} {selection : List CatalogEntry}
    {outcomes : List Outcome}
    (entries : (outcomes.filterMap (·.member?)).map (·.entry) =
      selection.filter fun entry => (schemas entry.schema).isSome)
    (ids : (selection.map (·.id)).Nodup → ((outcomes.filterMap (·.member?)).map Member.id).Nodup) :
    SameDeployment registry config schemas settings selection
      (ofOutcomes c (inMode config false) settings selection outcomes)
      (ofOutcomes c' (inMode config true) settings selection outcomes) := by
  let b : Batch := ⟨registry, config, settings, outcomes.filterMap (·.member?)⟩
  let titles := selection.map (·.name)
  let warnings := outcomes.flatMap (·.warnings)
  have files : (b.inMode true).moduleFiles = b.members.map (b.inMode true).moduleFile :=
    if_pos rfl
  have paths : (b.inMode true).moduleFiles.map (·.path) =
      b.members.map fun m => Batch.modulePath m.id := by
    rw [files, List.map_map]
    rfl
  rw [ofOutcomes, ofOutcomes, known, known']
  exact
    { members := rfl
      warnings := rfl
      resources :=
        ⟨(b.inMode false).inlineResource, (b.inMode true).moduleDeclaration,
          (b.inMode true).moduleFile,
          declarations_inline (b.inMode false) c.now titles warnings rfl,
          declarations_modules (b.inMode true) c'.now titles warnings rfl, files,
          fun m hm => ⟨joined (b.inMode true) c'.now titles warnings rfl m, _, rfl,
            counterpart hm entries (List.subset_append_right _ _) rfl⟩⟩
      reads := by
        intro o ho
        obtain ⟨d, hd, -, -, -, out, -, value⟩ :=
          outputs_modules (b.inMode true) c'.now titles warnings rfl o ho
        exact ⟨d, List.mem_filterMap.mpr ⟨_, hd, rfl⟩, out.name, value⟩
      paths := by
        show List.map _ ((b.inMode true).mainDocument c'.now titles warnings).modules = _
        rw [modules_mainDocument (b.inMode true) c'.now titles warnings rfl, List.map_map]
        exact paths.symm
      distinct := by
        intro nodup
        show ((b.inMode true).moduleFiles.map (·.path)).Nodup
        have injective := (ids nodup).map modulePath_injective
        rw [List.map_map] at injective
        rwa [paths] }

/-- A selection that is not empty is assembled from its outcomes. -/
theorem assemble_of_ne_nil {selection : List CatalogEntry} (h : selection ≠ []) (c : Context)
    (config : Configuration) (schemas : String → Option ResourceSchema)
    (settings : Entries Json) :
    assemble c config schemas settings selection =
      (.ok (ofOutcomes (examineAll schemas c selection).2 config settings selection
        (examineAll schemas c selection).1), (examineAll schemas c selection).2) := by
  rw [assemble, if_neg (by simpa using h)]

/-- A module of an assembly has the id of an entry whose schema could be loaded, and the place that
goes with it; there is none without modules. -/
theorem exists_entry_of_mem_modules {c : Context} {config : Configuration}
    {schemas : String → Option ResourceSchema} {settings : Entries Json}
    {selection : List CatalogEntry} {a : Assembly}
    (h : (assemble c config schemas settings selection).1 = .ok a) :
    ∀ m ∈ a.modules, config.generateModules = true ∧
      ∃ entry ∈ selection, (schemas entry.schema).isSome = true ∧ m.id = entry.id ∧
        m.path = Batch.modulePath entry.id := by
  have filled : selection ≠ [] := by
    rintro rfl
    cases h
  rw [assemble_of_ne_nil filled] at h
  cases h
  have entries := @entries_examineAll schemas c selection
  intro m mem
  change m ∈ if config.generateModules then _ else _ at mem
  split at mem
  · rename_i modules
    obtain ⟨member, given, rfl⟩ := List.mem_map.mp mem
    have selected := List.mem_map_of_mem (f := (·.entry)) given
    rw [entries] at selected
    obtain ⟨listed, loaded⟩ := List.mem_filter.mp selected
    exact ⟨modules, member.entry, listed, loaded, rfl, rfl⟩
  · cases mem

/-- A selection is assembled in place and in modules alike: it is empty and refused, or it makes the
same deployment, also where one assembly goes on with what the checks for the other one learnt. -/
theorem assemble_modes (c : Context) (config : Configuration)
    (schemas : String → Option ResourceSchema) (settings : Entries Json)
    (selection : List CatalogEntry) :
    let run (c : Context) (modules : Bool) :=
      assemble c (inMode config modules) schemas settings selection
    (selection = [] ∧
      (run c false).1 = .error .emptySelection ∧ (run c true).1 = .error .emptySelection) ∨
      ∃ place modules later, (run c false).1 = .ok place ∧ (run c true).1 = .ok modules ∧
        (run (run c false).2 true).1 = .ok later ∧
        SameDeployment c.registry config schemas settings selection place modules ∧
        SameDeployment c.registry config schemas settings selection place later := by
  intro run
  by_cases empty : selection = []
  · subst empty
    exact .inl ⟨rfl, rfl, rfl⟩
  · right
    have entries := @entries_examineAll schemas c selection
    have ids : (selection.map (·.id)).Nodup → _ :=
      fun distinct => @nodup_ids schemas selection distinct c
    -- the second run may find more in the cache, but it comes to the same outcomes
    have known := @sameKnowledge_examineAll schemas c selection
    have again := @sameKnowledge_examineAll schemas (examineAll schemas c selection).2 selection
    have outcomes : (examineAll schemas (examineAll schemas c selection).2 selection).1 =
        (examineAll schemas c selection).1 := by
      rw [outcomes_eq_map selection known, outcomes_eq_map selection (.refl c)]
    simp only [run, assemble_of_ne_nil empty, outcomes]
    refine ⟨_, _, _, rfl, rfl, rfl, ?_, ?_⟩
    · exact sameDeployment_ofOutcomes known.registry known.registry config settings entries ids
    · exact sameDeployment_ofOutcomes known.registry (again.registry.trans known.registry) config
        settings entries ids

/-- The properties of a resource that the main document declares. -/
def properties? (a : Assembly) (symbol : String) : Option Value :=
  (a.document.resource? symbol).bind fun r => Body.get? r.body "properties"

/-- Two sites and their plan. -/
def siteSelection : List CatalogEntry :=
  ["webapp", "functions", "appplan"].filterMap Catalog.get?

def siteSettings : Entries Json :=
  [("webapp", .obj [("httpsOnly", .bool false)])]

theorem properties?_sites :
    ∃ a, (assemble { registry := .azure, now := ⟨0⟩ } (inMode {} false) siteSchemas siteSettings
        siteSelection).1 = .ok a ∧
      properties? a "webapp" = some (.object [.flag "httpsOnly" false]) ∧
      properties? a "functions" = some (.object
        [.ref "serverFarmId" "appplan.id", .flag "httpsOnly" true,
          .nest "siteConfig" [.lit "minTlsVersion" "1.2"]]) := by
  refine ⟨_, rfl, ?_, ?_⟩
  · rfl
  · rfl

/-- The two sites and their plan are the same in both modes. In place, the site with settings has
these alone, and the other one runs on the plan. -/
theorem assemble_modes_sites :
    let run (modules : Bool) := (assemble { registry := .azure, now := ⟨0⟩ } (inMode {} modules)
      siteSchemas siteSettings siteSelection).1
    ∃ place modules, run false = .ok place ∧ run true = .ok modules ∧
      SameDeployment .azure {} siteSchemas siteSettings siteSelection place modules ∧
      properties? place "webapp" = some (.object [.flag "httpsOnly" false]) ∧
      properties? place "functions" = some (.object
        [.ref "serverFarmId" "appplan.id", .flag "httpsOnly" true,
          .nest "siteConfig" [.lit "minTlsVersion" "1.2"]]) := by
  intro run
  obtain ⟨a, made, webapp, functions⟩ := properties?_sites
  rcases assemble_modes { registry := .azure, now := ⟨0⟩ } {} siteSchemas siteSettings
    siteSelection with ⟨empty, -⟩ | ⟨place, modules, -, inPlace, inModules, -, same, -⟩
  · exact absurd empty (List.cons_ne_nil _ _)
  · obtain rfl := Except.ok.inj (made.symm.trans inPlace)
    exact ⟨a, modules, inPlace, inModules, same, webapp, functions⟩

end BicepForge.Assembly
