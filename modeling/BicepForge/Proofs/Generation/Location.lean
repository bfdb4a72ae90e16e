import BicepForge.Proofs.Bicep.Keys
import BicepForge.Proofs.Generation.Namespace

/-!
# Location and tags

Some types of resources have no location and no tags. In their documents nothing speaks of either:
no parameter, variable, output or entry of a resource has the name, and no expression refers to it.
In all other documents each of these is there. One flag decides all of it, whatever a schema says.
-/

namespace BicepForge.Generation

open Bicep References

/-- The names of the declarations that are there for located resources only. -/
def locatedNames : List String := ["location", "tags", "commonTags"]

/-- A document speaks of location and tags throughout, or not at all. -/
structure Located (located includeOutputs : Bool) (d : Document) : Prop where
  location : d.hasParam "location" = located
  tags : d.hasParam "tags" = located
  commonTags : (d.var? "commonTags").isSome = located
  output : (d.output? "location").isSome = (located && includeOutputs)
  resources : ∀ declaration ∈ d.declarations,
    Body.hasKey declaration.body "location" = located ∧
      Body.hasKey declaration.body "tags" = located

/-! ## Looking up names -/

section Lookup

theorem isSome_find?_iff {α : Type} (name : α → String) (xs : List α) (n : String) :
    (xs.find? (name · == n)).isSome = true ↔ n ∈ xs.map name := by
  rw [List.isSome_find?, List.any_eq_true, List.mem_map]
  simp only [beq_iff_eq]

theorem hasKey_iff (body : Body) (key : String) :
    Body.hasKey body key = true ↔ key ∈ Body.keys body := by
  rw [Body.hasKey, Option.isSome_iff_ne_none, ne_eq, Body.get?, Entries.lookup_eq_none_iff, not_not]
  rfl

end Lookup

/-! ## Names that only located resources have -/

/-- No recipe and no schema brings a name that only located resources have. -/
theorem locatedNames_apart {n : String} (h : n ∈ locatedNames) (registry : Registry)
    (config : Configuration) (schema : ResourceSchema) (type : String) :
    n ∉ recipeNames (registry.lookup type config.targetScope).kind ∧
      n ∉ derivedNames registry config schema type := by
  constructor
  · have none : ∀ n ∈ locatedNames,
        n ∉ recipeNames (registry.lookup type config.targetScope).kind := by
      cases (registry.lookup type config.targetScope).kind <;> decide +kernel
    exact none n h
  · intro derived
    obtain ⟨p, hp, rfl⟩ := List.mem_map.mp derived
    have usable := isUsable_of_mem_derivedProperties hp
    simp only [isUsable, Bool.and_eq_true, Bool.not_eq_true', List.contains_eq_mem,
      decide_eq_false_iff_not, takenNames, List.mem_append, not_or] at usable
    obtain ⟨⟨⟨-, identity⟩, ⟨-, reserved⟩, -⟩, -⟩ := usable
    have kept : ∀ n ∈ locatedNames, n ∈ identityFields ∨ n ∈ reservedNames := by decide
    exact (kept _ h).elim identity reserved

section Documents

variable (registry : Registry) (now : Instant) (config : Configuration) (schema : ResourceSchema)
  (type : String)

/-! ## Parameters, variables and outputs -/

theorem names_parameters_iff {n : String} (h : n ∈ ["location", "tags"]) :
    n ∈ (generateForType registry now config schema type).parameters.map (·.name) ↔
      (registry.lookup type config.targetScope).supportsLocationAndTags = true := by
  obtain ⟨recipes, derived⟩ :=
    locatedNames_apart (List.mem_append_left ["commonTags"] h) registry config schema type
  rw [recipeNames, List.mem_append, not_or] at recipes
  rw [parameters_generateForType, List.map_append, names_ownParameters, List.mem_append,
    List.mem_append, or_iff_left (not_or.mpr ⟨recipes.1, derived⟩)]
  cases (registry.lookup type config.targetScope).supportsLocationAndTags with
  | true =>
    have both : ∀ n ∈ ["location", "tags"],
        n ∈ ["resourceName", "location", "environment", "tags"] := by decide
    exact iff_of_true (both n h) rfl
  | false =>
    have none : ∀ n ∈ ["location", "tags"], n ∉ ["resourceName", "environment"] := by decide
    exact iff_of_false (none n h) Bool.false_ne_true

theorem names_vars_iff :
    "commonTags" ∈ (generateForType registry now config schema type).vars.map (·.name) ↔
      (registry.lookup type config.targetScope).supportsLocationAndTags = true := by
  have recipes := (@locatedNames_apart "commonTags" (by decide) registry config schema type).1
  rw [recipeNames, List.mem_append, not_or] at recipes
  show "commonTags" ∈ (baseVariables _ _ ++ (recipe _).vars).map (·.name) ↔ _
  rw [List.map_append, List.mem_append, or_iff_left recipes.2]
  cases (registry.lookup type config.targetScope).supportsLocationAndTags with
  | true => exact iff_of_true (List.mem_cons_of_mem _ List.mem_cons_self) rfl
  | false =>
    show "commonTags" ∈ ["resourceNameFormatted"] ↔ _
    decide

/-- No symbol changes the names of the outputs that a recipe brings. -/
theorem location_notMem_outputs (kind : ResourceKind) (symbol : String) :
    "location" ∉ ((recipe kind).outputs symbol).map (·.name) := by
  have names : ((recipe kind).outputs symbol).map (·.name) =
      ((recipe kind).outputs "").map (·.name) := by
    cases kind <;> rfl
  rw [names]
  cases kind <;> decide

theorem names_outputs_iff :
    "location" ∈ (generateForType registry now config schema type).outputs.map (·.name) ↔
      (registry.lookup type config.targetScope).supportsLocationAndTags = true ∧
        config.includeOutputs = true := by
  have base (located : Bool) : "location" ∈
      (baseOutputs (resourceSymbol type) located).map (·.name) ↔ located = true := by
    cases located with
    | true => exact iff_of_true (by simp [baseOutputs]) rfl
    | false => exact iff_of_false (by simp [baseOutputs]) Bool.false_ne_true
  simp only [generateForType]
  split
  · rename_i outputs
    rw [List.map_append, List.mem_append, base, or_iff_left (location_notMem_outputs _ _),
      and_iff_left outputs]
  · rename_i none
    exact iff_of_false List.not_mem_nil fun both => none both.2

end Documents

/-! ## Resources -/

theorem keys_identity (name : Value) (located : Bool) :
    Body.keys (identity name located) = "name" :: if located then ["location", "tags"] else [] := by
  cases located <;> rfl

theorem mem_keys_identity (name : Value) (located : Bool) {n : String}
    (h : n ∈ ["location", "tags"]) : n ∈ Body.keys (identity name located) ↔ located = true := by
  have other : n ≠ "name" := by
    rintro rfl
    exact absurd h (by decide)
  rw [keys_identity, List.mem_cons, or_iff_right other, List.mem_ite_nil_right, and_iff_left h]

/-- The settings of a recipe have no entry for location or tags. -/
theorem keys_recipe {kind : ResourceKind} {settings : String → Configuration → Body}
    (own : (recipe kind).settings? = some settings) (symbol : String) (config : Configuration) :
    ∀ n ∈ ["location", "tags"], n ∉ Body.keys (settings symbol config) := by
  cases kind with
  | generic => cases own
  | storageAccount =>
    obtain rfl := Option.some.inj own
    show ∀ n ∈ ["location", "tags"], n ∉ ["sku", "kind", "properties"]
    decide
  | virtualNetwork | webSite | virtualMachine | nestedDeployment =>
    obtain rfl := Option.some.inj own
    show ∀ n ∈ ["location", "tags"], n ∉ ["properties"]
    decide

theorem keys_bindings (params : List Param) :
    Body.keys (bindings params) = params.map (·.name) :=
  Body.keys_refs _ _ params

/-- Settings without a recipe have the keys of derived parameters, and one for the rest. -/
theorem keys_genericSettings (type : String) (derived : DerivedParameters) :
    Body.keys (genericSettings type derived) ⊆ derived.params.map (·.name) ++ ["properties"] := by
  unfold genericSettings
  split
  · exact List.subset_append_right _ _
  · rw [Body.keys_append, keys_bindings]
    exact List.Subset.refl _

/-- A resource has location and tags exactly if its type has them, whatever its settings are. -/
theorem mem_keys_mainResource (config : Configuration) (info : ResourceTypeInfo)
    (symbol version : String) {derived : DerivedParameters} {n : String}
    (h : n ∈ ["location", "tags"]) (apart : n ∉ derived.params.map (·.name)) :
    n ∈ Body.keys (mainResource config info symbol version derived).body ↔
      info.supportsLocationAndTags = true := by
  rw [mainResource, Body.keys_append, List.mem_append, mem_keys_identity _ _ h]
  refine or_iff_left ?_
  split
  · rename_i own
    exact keys_recipe own symbol config n h
  · intro mem
    rcases List.mem_append.mp (keys_genericSettings _ _ mem) with mem | mem
    · exact apart mem
    · rw [List.mem_singleton.mp mem] at h
      exact absurd h (by decide)

theorem mem_keys_networkInterface (symbol version : String) (located : Bool) {n : String}
    (h : n ∈ ["location", "tags"]) :
    n ∈ Body.keys (networkInterface symbol version located).body ↔ located = true := by
  have settings : n ∉ ["properties"] := by
    intro mem
    rw [List.mem_singleton.mp mem] at h
    exact absurd h (by decide)
  rw [networkInterface, Body.keys_append, List.mem_append, mem_keys_identity _ _ h]
  exact or_iff_left settings

/-! ## Documents -/

section Documents

variable (registry : Registry) (now : Instant) (config : Configuration) (schema : ResourceSchema)
  (type : String)

/-- Every resource ahead of the main one is its network interface. -/
theorem exists_of_mem_auxiliary {info : ResourceTypeInfo} {symbol : String} {r : Resource}
    (h : r ∈ auxiliaryResources registry info symbol) :
    ∃ version, r = networkInterface symbol version info.supportsLocationAndTags := by
  obtain ⟨other, -, made⟩ := List.mem_filterMap.mp h
  split_ifs at made
  exact ⟨_, (Option.some.inj made).symm⟩

theorem mem_keys_declaration {n : String} (h : n ∈ ["location", "tags"]) :
    ∀ declaration ∈ (generateForType registry now config schema type).declarations,
      (Body.hasKey declaration.body n = true ↔
        (registry.lookup type config.targetScope).supportsLocationAndTags = true) := by
  intro declaration mem
  rw [hasKey_iff]
  rw [declarations_generateForType] at mem
  rcases List.mem_append.mp mem with mem | mem
  · obtain ⟨r, hr, rfl⟩ := List.mem_map.mp mem
    obtain ⟨version, rfl⟩ := exists_of_mem_auxiliary registry hr
    exact mem_keys_networkInterface _ _ _ h
  · obtain rfl := List.mem_singleton.mp mem
    refine mem_keys_mainResource _ _ _ _ h ?_
    rw [names_derivedOf]
    exact (locatedNames_apart (List.mem_append_left ["commonTags"] h) registry config schema
      type).2

theorem located_generateForType :
    Located (registry.lookup type config.targetScope).supportsLocationAndTags
      config.includeOutputs (generateForType registry now config schema type) where
  location := by
    rw [Bool.eq_iff_iff, Document.hasParam, Document.param?, isSome_find?_iff]
    exact names_parameters_iff registry now config schema type (by decide)
  tags := by
    rw [Bool.eq_iff_iff, Document.hasParam, Document.param?, isSome_find?_iff]
    exact names_parameters_iff registry now config schema type (by decide)
  commonTags := by
    rw [Bool.eq_iff_iff, Document.var?, isSome_find?_iff]
    exact names_vars_iff registry now config schema type
  output := by
    rw [Bool.eq_iff_iff, Document.output?, isSome_find?_iff, Bool.and_eq_true]
    exact names_outputs_iff registry now config schema type
  resources := fun declaration mem =>
    ⟨Bool.eq_iff_iff.mpr (mem_keys_declaration _ _ _ _ _ (by decide) declaration mem),
      Bool.eq_iff_iff.mpr (mem_keys_declaration _ _ _ _ _ (by decide) declaration mem)⟩

/-! ## References -/

/-- Where a type has no location, the only one of these names that may be declared is the symbol. -/
theorem eq_resourceSymbol_of_declared
    (none : (registry.lookup type config.targetScope).supportsLocationAndTags = false)
    {n : String} (h : n ∈ locatedNames)
    (declared : n ∈ declaredNames (generateForType registry now config schema type) ++
      [networkInterfaceSymbol (resourceSymbol type)]) : n = resourceSymbol type := by
  have interface : n ≠ networkInterfaceSymbol (resourceSymbol type) := by
    rintro rfl
    exact networkInterfaceSymbol_notMem true .generic _
      (List.mem_append_left _ (List.mem_append_right _ h))
  have names := perm_names registry now config schema type
  obtain ⟨recipes, derived⟩ := locatedNames_apart h registry config schema type
  have base : n ∉ baseNames false := by
    have apart : ∀ n ∈ locatedNames, n ∉ baseNames false := by decide
    exact apart n h
  rw [declaredNames, List.append_assoc, List.mem_append, names.mem_iff, none, tableNames,
    List.mem_append, List.mem_append, List.mem_append, List.mem_singleton] at declared
  rcases declared with ((table | table) | derived') | symbol | same
  · exact absurd table base
  · exact absurd table recipes
  · exact absurd derived' derived
  · obtain ⟨declaration, mem, rfl⟩ := List.mem_map.mp symbol
    rw [declarations_generateForType] at mem
    rcases List.mem_append.mp mem with mem | mem
    · obtain ⟨r, hr, rfl⟩ := List.mem_map.mp mem
      obtain ⟨version, rfl⟩ := exists_of_mem_auxiliary registry hr
      exact absurd rfl interface
    · rw [List.mem_singleton.mp mem]
      rfl
  · exact absurd same interface

/-- Location and tags are in a generated document exactly if its type has them: as parameters,
variable, output and entries of every resource. Where the type has none, all that may refer to them
are the symbol of the resource and the holes of what is written between quotes as it is. -/
theorem generateForType_location :
    let located := (registry.lookup type config.targetScope).supportsLocationAndTags
    let d := generateForType registry now config schema type
    Located located config.includeOutputs d ∧
      (located = false → ∀ n ∈ ["location", "tags", "commonTags"], n ≠ resourceSymbol type →
        (n ∈ referredNames d ↔ n ∈ unescapedNames registry config schema type)) := by
  intro located d
  refine ⟨located_generateForType registry now config schema type, ?_⟩
  intro none n hn other
  constructor
  · intro referred
    have declares := declares_of_subset registry now config schema type
      (List.subset_append_left _ [networkInterfaceSymbol (resourceSymbol type)])
      fun _ => List.mem_append_right _ List.mem_cons_self
    have among := referredNames_subset_of_declares registry now config schema type
      (List.subset_append_left _ _) declares referred
    refine (List.mem_append.mp among).resolve_left fun declared => ?_
    exact other (eq_resourceSymbol_of_declared registry now config schema type none hn declared)
  · intro hole
    exact unescapedNames_subset registry now config schema type hole

end Documents

/-- A schema whose one property has a default with the given key. -/
def keyedSchema (key : String) : ResourceSchema :=
  ⟨.obj [("properties", .obj [("teeth", .obj
    [("type", .str "object"), ("default", .obj [(key, .num (.int 1))])])])]⟩

/-- Nothing in the document for a role assignment refers to location or tags. -/
theorem generateForType_location_roles :
    let type := "Microsoft.Authorization/roleAssignments"
    let d := generateForType .azure ⟨0⟩ {} (keyedSchema "location") type
    (Registry.azure.lookup type .resourceGroup).supportsLocationAndTags = false ∧
      Located false true d ∧ ∀ n ∈ ["location", "tags", "commonTags"], n ∉ referredNames d := by
  intro type d
  have none : (Registry.azure.lookup type .resourceGroup).supportsLocationAndTags = false := by
    decide +kernel
  have holes : unescapedNames .azure {} (keyedSchema "location") type = [] := by decide +kernel
  obtain ⟨located, references⟩ :=
    generateForType_location .azure ⟨0⟩ {} (keyedSchema "location") type
  have symbol : resourceSymbol type ∉ ["location", "tags", "commonTags"] := by decide +kernel
  refine ⟨none, ?_, ?_⟩
  · exact none ▸ located
  · intro n hn referred
    have other : n ≠ resourceSymbol type := fun same => symbol (same ▸ hn)
    have hole := (references none n hn other).mp referred
    rw [holes] at hole
    cases hole

/-- A key with a hole reads a location that the document does not have. -/
theorem location_referred :
    let type := "Microsoft.Authorization/roleAssignments"
    let d := generateForType .azure ⟨0⟩ {} (keyedSchema "$\x7blocation\x7d") type
    (Registry.azure.lookup type .resourceGroup).supportsLocationAndTags = false ∧
      "location" ∈ referredNames d ∧ "location" ≠ resourceSymbol type := by
  intro type d
  have hole : "location" ∈ unescapedNames .azure {} (keyedSchema "$\x7blocation\x7d") type := by
    decide +kernel
  exact ⟨by decide +kernel, unescapedNames_subset _ _ _ _ _ hole, by decide +kernel⟩

end BicepForge.Generation
