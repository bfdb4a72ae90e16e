import BicepForge.Proofs.Assembly.Modes
import BicepForge.Proofs.Assembly.Namespace
import BicepForge.Proofs.Bicep.Keys
import BicepForge.Proofs.Generation.Usable

/-!
# The keys of assembled bodies

The body of a member declared in place has fixed keys, a key for each parameter of the member's own,
the keys of its settings, and one key for what it waits for. No parameter takes a fixed key or one
of the settings, but the last key can be taken: then it comes twice. Main statement: that is the
only key that ever does, and exactly those bodies have it twice that are declared in place for a
member with such a parameter and something to wait for.
-/

namespace BicepForge

/-- A property of a schema is found by its name. -/
theorem ResourceSchema.property?_eq_some_iff {s : ResourceSchema}
    (distinct : s.document.hasDistinctKeys = true) {name : String} {v : Json} :
    s.property? name = some v ↔ (name, v) ∈ s.properties?.getD [] := by
  rw [property?]
  cases found : s.properties? with
  | none => simp
  | some entries => exact Entries.lookup_eq_some_iff (distinct_properties? distinct found).keys

namespace Assembly

open Bicep Generation

/-- The bodies of all that is declared in an assembly: in the main document and in module files. -/
def bodies (a : Assembly) : List Body :=
  (a.document :: a.modules.map (·.document)).flatMap fun d => d.declarations.map (·.body)

/-- A member is declared in place with two lists of what it waits for: one is the list, and the
other comes of a property of its schema that has the same key. -/
structure Batch.Clashes (b : Batch) (m : Member) : Prop where
  inPlace : b.config.generateModules = false
  parameters : b.config.includeParameters = true
  dependencies : b.config.includeDependencies = true
  generic : b.kind m = .generic
  property : ∃ entries, m.schema.property? "dependsOn" = some (.obj entries)
  awaited : ∃ id ∈ dependenciesOf m.id, ∃ other ∈ b.members, other.id = id

/-- The keys that the parameters of a member's own bring into its body. -/
def Batch.ownKeys (b : Batch) (m : Member) : List String :=
  (b.ownParameters m).map (·.property)

section Batch

variable {b : Batch} {m : Member}

/-! ## Properties -/

/-- A member that follows no recipe has a parameter for every object among the properties of its
schema, unless it is a fixed field or joins to no name. -/
theorem mem_ownKeys_iff (distinct : m.schema.document.hasDistinctKeys = true)
    {name : String} :
    name ∈ b.ownKeys m ↔ (b.config.includeParameters = true ∧ b.kind m = .generic) ∧
      (∃ entries, m.schema.property? name = some (.obj entries)) ∧ name ∉ identityFields ∧
      Value.isIdentifier (m.id ++ "_" ++ name) = true := by
  rw [Batch.ownKeys, List.mem_map]
  constructor
  · rintro ⟨p, mem, rfl⟩
    obtain ⟨derives, property, schema, found, made⟩ := Batch.mem_ownParameters_iff.mp mem
    obtain ⟨object, identity, identifier, rfl⟩ := Batch.ownParameter?_eq_some_iff.mp made
    obtain ⟨entries, rfl⟩ := (isObject_iff _).mp object
    exact ⟨derives, ⟨entries, (ResourceSchema.property?_eq_some_iff distinct).mpr found⟩, identity,
      identifier⟩
  · rintro ⟨derives, ⟨entries, found⟩, identity, identifier⟩
    have mem := (ResourceSchema.property?_eq_some_iff distinct).mp found
    have made := Batch.ownParameter?_eq_some_iff.mpr
      ⟨(isObject_iff _).mpr ⟨entries, rfl⟩, identity, identifier, rfl⟩
    exact ⟨_, Batch.mem_ownParameters_iff.mpr ⟨derives, name, .obj entries, mem, made⟩, rfl⟩

theorem ownKeys_apart (distinct : m.schema.document.hasDistinctKeys = true) :
    ∀ name ∈ b.ownKeys m, name ∉ identityFields :=
  fun _ mem => ((mem_ownKeys_iff distinct).mp mem).2.2.1

/-! ## Settings -/

/-- Settings have their keys once. Only those of a storage account have another one than
`properties`. -/
theorem keys_settingsOf (plan? : Option Member) :
    Body.keys (b.settingsOf m plan?) = ["properties"] ∨
      b.kind m = .storageAccount ∧
        Body.keys (b.settingsOf m plan?) = ["sku", "kind", "properties"] := by
  unfold Batch.settingsOf
  split
  · exact .inl rfl
  · cases b.kind m with
    | storageAccount => exact .inr ⟨rfl, rfl⟩
    | virtualNetwork | webSite | nestedDeployment | virtualMachine | generic => exact .inl rfl

theorem hasDistinctInnerKeys_settingsOf
    (given : ∀ e ∈ b.settings, e.2.hasDistinctKeys = true) (plan? : Option Member) :
    Body.HasDistinctInnerKeys (b.settingsOf m plan?) := by
  unfold Batch.settingsOf
  split
  · rename_i v found
    refine Body.hasDistinctInnerKeys_property ?_
    rw [Value.hasDistinctKeys_ofJson]
    unfold Batch.givenSettings? at found
    split at found
    · rename_i e es looked
      obtain rfl := Option.some.inj found
      exact given _ (Entries.mem_of_lookup looked)
    · cases found
  · cases b.kind m with
    | webSite => cases plan? <;> rfl
    | virtualNetwork | storageAccount | nestedDeployment | virtualMachine | generic => rfl

end Batch

/-! ## Lists of what is awaited -/

/-- No key comes twice in a body or inside it, but for the one under which a declaration waits. -/
structure RepeatsWaitingOnly (body : Body) : Prop where
  inner : Body.HasDistinctInnerKeys body
  outer : ∀ key, 1 < (Body.keys body).count key → key = "dependsOn"

section Waiting

variable {body : Body} (distinct : Body.HasDistinctKeys body) (symbols : List String)

theorem keys_waiting :
    Body.keys (Batch.waiting symbols) = if symbols = [] then [] else ["dependsOn"] := by
  cases symbols <;> rfl

theorem hasDistinctInnerKeys_waiting : Body.HasDistinctInnerKeys (Batch.waiting symbols) := by
  unfold Batch.waiting
  split
  · rfl
  · exact Body.hasDistinctInnerKeys_property (Value.itemsHaveDistinctKeys_exprs symbols)

include distinct

theorem hasDistinctInnerKeys_append_waiting :
    Body.HasDistinctInnerKeys (body ++ Batch.waiting symbols) :=
  (Body.hasDistinctInnerKeys_append _ _).mpr
    ⟨distinct.inner, hasDistinctInnerKeys_waiting symbols⟩

/-- A list of what is awaited repeats a key exactly if there is such a list and the body has its key
already. -/
theorem hasDistinctKeys_append_waiting_iff :
    Body.HasDistinctKeys (body ++ Batch.waiting symbols) ↔
      ¬ ("dependsOn" ∈ Body.keys body ∧ symbols ≠ []) := by
  have outer : (Body.keys (body ++ Batch.waiting symbols)).Nodup ↔
      ¬ ("dependsOn" ∈ Body.keys body ∧ symbols ≠ []) := by
    rw [Body.keys_append, keys_waiting]
    split
    · rename_i none
      rw [List.append_nil]
      exact iff_of_true distinct.outer fun waits => waits.2 none
    · rename_i some
      rw [List.nodup_append_comm, List.singleton_append, List.nodup_cons,
        and_iff_left distinct.outer, and_iff_left some]
  exact ⟨fun h => outer.mp h.outer,
    fun h => ⟨outer.mpr h, hasDistinctInnerKeys_append_waiting distinct symbols⟩⟩

theorem repeatsWaitingOnly_append_waiting :
    RepeatsWaitingOnly (body ++ Batch.waiting symbols) where
  inner := hasDistinctInnerKeys_append_waiting distinct symbols
  outer := by
    intro key twice
    by_contra other
    have once := List.nodup_iff_count_le_one.mp distinct.outer key
    have none : (Body.keys (Batch.waiting symbols)).count key = 0 := by
      rw [keys_waiting, List.count_eq_zero]
      split
      · exact List.not_mem_nil
      · exact mt List.mem_singleton.mp other
    rw [Body.keys_append, List.count_append, none] at twice
    omega

end Waiting

theorem repeatsWaitingOnly_of_distinct {body : Body} (h : Body.HasDistinctKeys body) :
    RepeatsWaitingOnly body where
  inner := h.inner
  outer key twice := absurd (List.nodup_iff_count_le_one.mp h.outer key) (Nat.not_le.mpr twice)

/-! ## Bodies in place -/

section InPlace

variable {b : Batch} {m : Member}

/-- What stands in a body in place ahead of the list that the member waits for. -/
def Batch.ahead (b : Batch) (m : Member) : Body :=
  .property "name" (Batch.resourceName m.id) ::
    Body.onlyIf (b.isLocated m) [.ref "location" "location", .ref "tags" "commonTags"] ++
    (b.ownParameters m).map (fun p => .ref p.property p.param.name) ++
    b.settingsOf m (b.member? "appplan")

theorem body_inlineResource :
    (b.inlineResource m).body =
      b.ahead m ++ Batch.waiting ((b.dependencies m).map Member.symbol) := rfl

def Batch.fixedKeys (b : Batch) (m : Member) : List String :=
  if b.isLocated m then ["name", "location", "tags"] else ["name"]

theorem fixedKeys_spec :
    (b.fixedKeys m).Nodup ∧ b.fixedKeys m ⊆ ["name", "location", "tags"] := by
  unfold Batch.fixedKeys
  split
  · decide
  · decide

theorem keys_ahead :
    Body.keys (b.ahead m) = b.fixedKeys m ++
      (b.ownKeys m ++ Body.keys (b.settingsOf m (b.member? "appplan"))) := by
  have fixed : Body.keys (.property "name" (Batch.resourceName m.id) ::
      Body.onlyIf (b.isLocated m) [.ref "location" "location", .ref "tags" "commonTags"]) =
        b.fixedKeys m := by
    unfold Batch.fixedKeys
    cases b.isLocated m <;> rfl
  rw [Batch.ahead, Body.keys_append, Body.keys_append, fixed, Body.keys_refs, List.append_assoc]
  rfl

theorem hasDistinctInnerKeys_ahead (given : ∀ e ∈ b.settings, e.2.hasDistinctKeys = true) :
    Body.HasDistinctInnerKeys (b.ahead m) := by
  have fixed : Body.HasDistinctInnerKeys (.property "name" (Batch.resourceName m.id) ::
      Body.onlyIf (b.isLocated m) [.ref "location" "location", .ref "tags" "commonTags"]) := by
    cases b.isLocated m <;> rfl
  rw [Batch.ahead, Body.hasDistinctInnerKeys_append, Body.hasDistinctInnerKeys_append]
  exact ⟨⟨fixed, Body.hasDistinctInnerKeys_refs _ _ _⟩, hasDistinctInnerKeys_settingsOf given _⟩

/-- The keys of settings are neither fixed nor those of parameters. -/
theorem settings_apart (distinct : m.schema.document.hasDistinctKeys = true)
    (plan? : Option Member) :
    (Body.keys (b.settingsOf m plan?)).Nodup ∧
      ∀ key ∈ Body.keys (b.settingsOf m plan?),
        key ∉ ["name", "location", "tags", "dependsOn"] ∧ key ∉ b.ownKeys m := by
  rcases keys_settingsOf (b := b) (m := m) plan? with keys | ⟨kind, keys⟩
  · rw [keys]
    refine ⟨List.nodup_singleton _, fun key mem => ?_⟩
    obtain rfl := List.mem_singleton.mp mem
    exact ⟨by decide, fun own => ownKeys_apart distinct _ own (by decide)⟩
  · -- a storage account follows a recipe, so it has no parameters of its own
    rw [keys]
    have apart : ∀ key ∈ ["sku", "kind", "properties"],
        key ∉ ["name", "location", "tags", "dependsOn"] := by decide
    refine ⟨by decide, fun key mem => ⟨apart key mem, fun own => ?_⟩⟩
    have generic := ((mem_ownKeys_iff distinct).mp own).1.2
    rw [kind] at generic
    cases generic

theorem hasDistinctKeys_ahead (distinct : m.schema.document.hasDistinctKeys = true)
    (given : ∀ e ∈ b.settings, e.2.hasDistinctKeys = true) :
    Body.HasDistinctKeys (b.ahead m) := by
  refine ⟨?_, hasDistinctInnerKeys_ahead given⟩
  obtain ⟨settings, apart⟩ := settings_apart (b := b) distinct (b.member? "appplan")
  obtain ⟨fixed, among⟩ := fixedKeys_spec (b := b) (m := m)
  have identity : ["name", "location", "tags"] ⊆ identityFields := by decide
  rw [keys_ahead, List.nodup_append, List.nodup_append]
  refine ⟨fixed, ⟨nodup_property_ownParameters distinct, settings, ?_⟩, ?_⟩
  · rintro key own key' mem rfl
    exact (apart key mem).2 own
  · -- a fixed key is an identity field, and those never become parameters
    rintro key mem key' rest rfl
    rcases List.mem_append.mp rest with own | mem'
    · exact ownKeys_apart distinct key own (identity (among mem))
    · have other := (apart key mem').1
      have inner : ["name", "location", "tags"] ⊆ ["name", "location", "tags", "dependsOn"] := by
        decide
      exact other (inner (among mem))

/-- Only a parameter brings the key under which a member waits. -/
theorem dependsOn_mem_ahead_iff (distinct : m.schema.document.hasDistinctKeys = true) :
    "dependsOn" ∈ Body.keys (b.ahead m) ↔ "dependsOn" ∈ b.ownKeys m := by
  obtain ⟨-, apart⟩ := settings_apart (b := b) distinct (b.member? "appplan")
  have fixed : "dependsOn" ∉ b.fixedKeys m := by
    intro mem
    have none : "dependsOn" ∉ ["name", "location", "tags"] := by decide
    exact none (fixedKeys_spec.2 mem)
  have settings : "dependsOn" ∉ Body.keys (b.settingsOf m (b.member? "appplan")) :=
    fun mem => (apart _ mem).1 (by decide)
  rw [keys_ahead, List.mem_append, or_iff_right fixed, List.mem_append, or_iff_left settings]

/-- Whoever depends on something has an id that joins to names. -/
theorem isIdentifier_of_dependencies {id other : String} (h : other ∈ dependenciesOf id) :
    Value.isIdentifier (id ++ "_" ++ "dependsOn") = true := by
  have table : ∀ row ∈ dependencyTable,
      Value.isIdentifier (row.1 ++ "_" ++ "dependsOn") = true := by decide +kernel
  obtain ⟨ids, row, -⟩ := exists_row_of_dependency h
  exact table (id, ids) row

theorem dependencies_ne_nil_iff :
    b.dependencies m ≠ [] ↔ b.config.includeDependencies = true ∧
      ∃ id ∈ dependenciesOf m.id, ∃ other ∈ b.members, other.id = id := by
  have found (id : String) : b.member? id ≠ none ↔ ∃ other ∈ b.members, other.id = id := by
    rw [← Option.isSome_iff_ne_none, member?_isSome, List.any_eq_true]
    simp only [beq_iff_eq]
  unfold Batch.dependencies
  split
  · rename_i waits
    simp only [and_iff_right waits, ne_eq, List.filterMap_eq_nil_iff, not_forall, exists_prop]
    exact exists_congr fun id => and_congr_right fun _ => found id
  · rename_i waits
    exact iff_of_false (fun some => some rfl) fun h => waits h.1

/-- A member clashes exactly if it brings the key and waits. -/
theorem clashes_iff (distinct : m.schema.document.hasDistinctKeys = true)
    (mode : b.config.generateModules = false) :
    b.Clashes m ↔ "dependsOn" ∈ b.ownKeys m ∧ b.dependencies m ≠ [] := by
  rw [mem_ownKeys_iff distinct, dependencies_ne_nil_iff]
  constructor
  · rintro ⟨-, parameters, dependencies, generic, property, awaited⟩
    obtain ⟨id, depends, loaded⟩ := awaited
    exact ⟨⟨⟨parameters, generic⟩, property, by decide, isIdentifier_of_dependencies depends⟩,
      dependencies, id, depends, loaded⟩
  · rintro ⟨⟨⟨parameters, generic⟩, property, -, -⟩, dependencies, awaited⟩
    exact ⟨mode, parameters, dependencies, generic, property, awaited⟩

theorem hasDistinctKeys_inlineResource_iff (distinct : m.schema.document.hasDistinctKeys = true)
    (given : ∀ e ∈ b.settings, e.2.hasDistinctKeys = true)
    (mode : b.config.generateModules = false) :
    Body.HasDistinctKeys (b.inlineResource m).body ↔ ¬ b.Clashes m := by
  rw [body_inlineResource, clashes_iff distinct mode, ← dependsOn_mem_ahead_iff distinct,
    hasDistinctKeys_append_waiting_iff (hasDistinctKeys_ahead distinct given), ne_eq, ne_eq,
    List.map_eq_nil_iff]

end InPlace

/-! ## Bodies beside and in modules -/

section Modules

variable (b : Batch) (m : Member)

def Batch.moduleBody (b : Batch) (m : Member) : Body :=
  b.front m ++ b.settingsOf m none

/-- The entries that a resource begins with have fixed keys. -/
theorem keys_front_spec :
    (Body.keys (b.front m)).Nodup ∧ Body.keys (b.front m) ⊆ ["name", "location"] := by
  unfold Batch.front
  cases b.isLocated m
  · exact ⟨by show ["name"].Nodup; decide, by show ["name"] ⊆ _; decide⟩
  · exact ⟨by show ["name", "location"].Nodup; decide, List.Subset.refl _⟩

theorem hasDistinctKeys_moduleDeclaration :
    Body.HasDistinctKeys (b.moduleDeclaration m).body := by
  have front : Body.HasDistinctKeys [.lit "name" (m.id ++ "-deployment"), .nest "params"
      [.ref "location" "location", .ref "environment" "environment",
        .ref "resourcePrefix" "resourcePrefix"]] :=
    ⟨by show ["name", "params"].Nodup; decide, rfl⟩
  refine (hasDistinctKeys_append_waiting_iff front _).mpr fun waits => ?_
  have none : "dependsOn" ∉ ["name", "params"] := by decide
  exact none waits.1

variable {b m}

theorem hasDistinctKeys_moduleBody (distinct : m.schema.document.hasDistinctKeys = true)
    (given : ∀ e ∈ b.settings, e.2.hasDistinctKeys = true) :
    Body.HasDistinctKeys (b.moduleBody m) := by
  obtain ⟨settings, apart⟩ := settings_apart (b := b) distinct none
  obtain ⟨fixed, among⟩ := keys_front_spec b m
  constructor
  · rw [Batch.moduleBody, Body.keys_append, List.nodup_append]
    refine ⟨fixed, settings, ?_⟩
    rintro key mem key' mem' rfl
    have inner : ["name", "location"] ⊆ ["name", "location", "tags", "dependsOn"] := by decide
    exact (apart key mem').1 (inner (among mem))
  · rw [Batch.moduleBody, Body.hasDistinctInnerKeys_append]
    refine ⟨?_, hasDistinctInnerKeys_settingsOf given none⟩
    unfold Batch.front
    cases b.isLocated m <;> rfl

end Modules

/-! ## Assemblies -/

section Outcomes

variable (c : Context) (config : Configuration) (settings : Entries Json)
  (selection : List CatalogEntry) (outcomes : List Outcome)

/-- In place, the bodies are those of the members. -/
theorem bodies_inPlace (mode : config.generateModules = false) :
    let a := ofOutcomes c config settings selection outcomes
    let b : Batch := ⟨c.registry, config, settings, a.members⟩
    a.bodies = a.members.map fun m => (b.inlineResource m).body := by
  intro a b
  have files : a.modules = [] := if_neg (by simp [mode])
  rw [bodies, files, List.map_nil, List.flatMap_singleton]
  show (b.mainDocument c.now _ _).declarations.map (·.body) = _
  rw [declarations_inline b _ _ _ mode, List.map_map]
  rfl

/-- With modules, every member has one body beside them and one in a file. -/
theorem bodies_modules (mode : config.generateModules = true) :
    let a := ofOutcomes c config settings selection outcomes
    let b : Batch := ⟨c.registry, config, settings, a.members⟩
    a.bodies = (a.members.map fun m => (b.moduleDeclaration m).body) ++
      a.members.map b.moduleBody := by
  intro a b
  have files : a.modules = a.members.map b.moduleFile := if_pos mode
  rw [bodies, files, List.flatMap_cons, List.map_map, List.flatMap_map]
  refine congrArg₂ (· ++ ·) ?_ ?_
  · show (b.mainDocument c.now _ _).declarations.map (·.body) = _
    rw [declarations_modules b _ _ _ mode, List.map_map]
    rfl
  · exact (List.map_eq_flatMap).symm

variable {outcomes} (distinct : ∀ m ∈ outcomes.filterMap (·.member?),
    m.schema.document.hasDistinctKeys = true)
  (given : ∀ e ∈ settings, e.2.hasDistinctKeys = true)
include distinct given

/-- Bodies with a key twice are exactly those of members that clash. -/
theorem hasDistinctKeys_ofOutcomes_iff :
    let a := ofOutcomes c config settings selection outcomes
    let b : Batch := ⟨c.registry, config, settings, a.members⟩
    (∀ body ∈ a.bodies, Body.HasDistinctKeys body) ↔ ∀ m ∈ a.members, ¬ b.Clashes m := by
  intro a b
  cases mode : config.generateModules with
  | false =>
    rw [bodies_inPlace c config settings selection outcomes mode, List.forall_mem_map]
    exact forall₂_congr fun m hm =>
      hasDistinctKeys_inlineResource_iff (b := b) (distinct m hm) given mode
  | true =>
    -- nothing clashes here, since neither body has keys from a schema
    rw [bodies_modules c config settings selection outcomes mode, List.forall_mem_append,
      List.forall_mem_map, List.forall_mem_map]
    refine iff_of_true ⟨fun m _ => hasDistinctKeys_moduleDeclaration b m, fun m hm => ?_⟩
      fun m _ clashes => ?_
    · exact hasDistinctKeys_moduleBody (distinct m hm) given
    · exact absurd (clashes.inPlace.symm.trans mode) Bool.false_ne_true

theorem repeatsWaitingOnly_ofOutcomes :
    ∀ body ∈ (ofOutcomes c config settings selection outcomes).bodies, RepeatsWaitingOnly body := by
  cases mode : config.generateModules with
  | false =>
    rw [bodies_inPlace c config settings selection outcomes mode, List.forall_mem_map]
    intro m hm
    exact repeatsWaitingOnly_append_waiting (hasDistinctKeys_ahead (distinct m hm) given) _
  | true =>
    rw [bodies_modules c config settings selection outcomes mode, List.forall_mem_append,
      List.forall_mem_map, List.forall_mem_map]
    refine ⟨fun m _ => ?_, fun m hm => ?_⟩
    · exact repeatsWaitingOnly_of_distinct (hasDistinctKeys_moduleDeclaration _ m)
    · exact repeatsWaitingOnly_of_distinct (hasDistinctKeys_moduleBody (distinct m hm) given)

end Outcomes

/-- No body of an assembly has a key twice, at the top or in an object inside, unless a member
clashes; and no key ever comes twice but `dependsOn` at the top. Schemas and settings are taken to
have distinct keys, as all JSON values that are read have. -/
theorem assemble_keys (c : Context) (config : Configuration)
    {schemas : String → Option ResourceSchema}
    (distinct : ∀ name schema, schemas name = some schema →
      schema.document.hasDistinctKeys = true)
    {settings : Entries Json} (given : ∀ e ∈ settings, e.2.hasDistinctKeys = true)
    {selection : List CatalogEntry} (nonempty : selection ≠ []) :
    ∃ a, (assemble c config schemas settings selection).1 = .ok a ∧
      let b : Batch := ⟨c.registry, config, settings, a.members⟩
      ((∀ body ∈ a.bodies, Body.HasDistinctKeys body) ↔ ∀ m ∈ a.members, ¬ b.Clashes m) ∧
      ∀ body ∈ a.bodies, RepeatsWaitingOnly body := by
  rw [assemble, if_neg (by simpa using nonempty)]
  have registry := (@sameKnowledge_examineAll schemas c selection).registry
  have keys := hasDistinctKeys_member distinct c selection
  refine ⟨_, rfl, ?_, repeatsWaitingOnly_ofOutcomes _ config settings selection keys given⟩
  rw [← registry]
  exact hasDistinctKeys_ofOutcomes_iff _ config settings selection keys given

/-- The whole catalog, with settings for the web application, has no body with a key twice. -/
theorem assemble_keys_catalog :
    let c : Context := { registry := .azure, now := ⟨0⟩ }
    let schemas := fun _ : String => some (gearSchema "teeth")
    let settings : Entries Json := [("webapp", .obj [("wear", .obj [("wear", .null)])])]
    (∀ name schema, schemas name = some schema → schema.document.hasDistinctKeys = true) ∧
      (∀ e ∈ settings, e.2.hasDistinctKeys = true) ∧ Catalog.entries ≠ [] ∧
      ∃ a, (assemble c {} schemas settings Catalog.entries).1 = .ok a ∧
        ∀ body ∈ a.bodies, Body.HasDistinctKeys body := by
  intro c schemas settings
  have distinct : ∀ name schema, schemas name = some schema →
      schema.document.hasDistinctKeys = true := by
    intro name schema loaded
    obtain rfl := Option.some.inj loaded
    decide +kernel
  have given : ∀ e ∈ settings, e.2.hasDistinctKeys = true := by decide +kernel
  have nonempty : Catalog.entries ≠ [] := List.cons_ne_nil _ _
  obtain ⟨a, made, iff, -⟩ := assemble_keys c {} distinct given nonempty
  refine ⟨distinct, given, nonempty, a, made, iff.mpr fun m hm clashes => ?_⟩
  obtain rfl := Except.ok.inj made
  have none : ∀ m ∈ (examineAll schemas c Catalog.entries).1.filterMap (·.member?),
      (m.schema.property? "dependsOn").isNone = true := by decide +kernel
  obtain ⟨entries, found⟩ := clashes.property
  have absent := none m hm
  rw [found] at absent
  cases absent

/-- A property of a schema and the list of what the resource waits for have one key. -/
theorem dependsOn_bound_twice :
    let c : Context := { registry := .azure, now := ⟨0⟩ }
    let schemas := fun name => some (gearSchema name)
    let selection : List CatalogEntry :=
      [⟨"webapp", "Web", "dependsOn"⟩, ⟨"appplan", "Plan", "teeth"⟩]
    (∀ schema ∈ [gearSchema "dependsOn", gearSchema "teeth"],
      schema.document.hasDistinctKeys = true) ∧
      ∃ a, (assemble c {} schemas [] selection).1 = .ok a ∧
        a.bodies.map Body.keys =
          [["name", "location", "tags", "dependsOn", "properties", "dependsOn"],
           ["name", "location", "tags", "teeth", "properties"]] ∧
        ¬ ∀ body ∈ a.bodies, Body.HasDistinctKeys body := by
  intro c schemas selection
  exact ⟨by decide +kernel, _, rfl, by decide +kernel, by decide +kernel⟩

end Assembly

end BicepForge
