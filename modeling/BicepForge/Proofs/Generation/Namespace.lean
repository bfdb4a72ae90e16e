import BicepForge.Proofs.Check.Acceptance
import BicepForge.Proofs.Json.Keys
import BicepForge.Proofs.References.Declared
import Mathlib.Data.List.Nodup

/-!
# The namespace of a generated document

Parameters, variables and resources share one namespace. Derived parameters keep away from all other
names, and the names of the tables differ from each other; but nothing keeps the symbol of the
resource away from the tables, and it may begin with a digit. So a document has one namespace unless
its type ends in one of a few words, or in a digit first.
-/

namespace BicepForge.Generation

open Bicep References Check

/-- The declared names are identifiers, and no two declarations share one. -/
structure OneNamespace (d : Document) : Prop where
  identifiers : ∀ n ∈ declaredNames d, Value.isIdentifier n = true
  distinct : (declaredNames d).Nodup

/-- The names of the parameters and variables that every document begins with. -/
def baseNames (located : Bool) : List String :=
  ["resourceName", "environment", "resourceNameFormatted"] ++
    if located then ["location", "tags", "commonTags"] else []

def recipeParameterNames (kind : ResourceKind) : List String :=
  ((recipe kind).parameters?.map fun parameters => (parameters {}).map (·.name)).getD []

/-- The names of the parameters and variables that a recipe brings. -/
def recipeNames (kind : ResourceKind) : List String :=
  recipeParameterNames kind ++ (recipe kind).vars.map (·.name)

def tableNames (located : Bool) (kind : ResourceKind) : List String :=
  baseNames located ++ recipeNames kind

/-! ## The tables -/

theorem tableNames_sublist (located : Bool) (kind : ResourceKind) :
    (tableNames located kind).Sublist (tableNames true kind) := by
  refine List.Sublist.append ?_ (List.Sublist.refl _)
  cases located with
  | true => exact List.Sublist.refl _
  | false => exact List.sublist_append_left _ _

/-- The names of the tables are identifiers, and none of them is that of a network interface. -/
theorem tableNames_spec {located : Bool} {kind : ResourceKind} {n : String}
    (h : n ∈ tableNames located kind) :
    Value.isIdentifier n = true ∧ ¬ "NetworkInterface".toList <:+ n.toList := by
  have base : ∀ n ∈ baseNames true,
      Value.isIdentifier n = true ∧ ¬ "NetworkInterface".toList <:+ n.toList := by
    decide +kernel
  have recipes : ∀ n ∈ recipeNames kind,
      Value.isIdentifier n = true ∧ ¬ "NetworkInterface".toList <:+ n.toList := by
    cases kind <;> decide +kernel
  rcases List.mem_append.mp ((tableNames_sublist located kind).subset h) with mem | mem
  · exact base n mem
  · exact recipes n mem

theorem nodup_tableNames (located : Bool) (kind : ResourceKind) :
    (tableNames located kind).Nodup := by
  have distinct : (tableNames true kind).Nodup := by cases kind <;> decide +kernel
  exact distinct.sublist (tableNames_sublist located kind)

/-- No configuration changes the names of the base declarations. -/
theorem perm_baseNames (located : Bool) (config : Configuration) (type : String) :
    ((baseParameters located config).map (·.name) ++
      (baseVariables type located).map (·.name)).Perm (baseNames located) := by
  cases located with
  | true =>
    show List.Perm (["resourceName", "location", "environment", "tags"] ++
      ["resourceNameFormatted", "commonTags"]) _
    decide +kernel
  | false =>
    show List.Perm (["resourceName", "environment"] ++ ["resourceNameFormatted"]) _
    decide +kernel

/-- No configuration changes the names that a recipe brings. -/
theorem names_recipe {kind : ResourceKind} {parameters : Configuration → List Param}
    (own : (recipe kind).parameters? = some parameters) (config : Configuration) :
    (parameters config).map (·.name) = recipeParameterNames kind := by
  cases kind with
  | virtualNetwork | storageAccount | webSite | virtualMachine =>
    obtain rfl := Option.some.inj own
    rfl
  | nestedDeployment | generic => cases own

theorem networkInterfaceSymbol_notMem (located : Bool) (kind : ResourceKind) (symbol : String) :
    networkInterfaceSymbol symbol ∉ tableNames located kind := by
  intro mem
  refine (tableNames_spec mem).2 ?_
  rw [networkInterfaceSymbol, String.toList_append]
  exact List.suffix_append _ _

/-! ## Symbols -/

/-- Only virtual machines have resources ahead of the main one. -/
theorem auxiliaryResources_eq_nil {registry : Registry} {info : ResourceTypeInfo}
    (other : info.kind ≠ .virtualMachine) (symbol : String) :
    auxiliaryResources registry info symbol = [] := by
  rw [auxiliaryResources, List.filterMap_eq_nil_iff]
  exact fun _ _ => if_neg fun both => other both.2

/-- Only a virtual machine has another symbol beside its own: that of its network interface. -/
theorem symbols_auxiliary {registry : Registry} (bring : BringInterface registry) (type : String)
    (scope : TargetScope) (symbol : String) :
    (auxiliaryResources registry (registry.lookup type scope) symbol).map (·.symbol) =
      if (registry.lookup type scope).kind = .virtualMachine then [networkInterfaceSymbol symbol]
      else [] := by
  split
  · rename_i machine
    obtain ⟨entry, mem, kind, types⟩ := kind_lookup machine
    show _ = List.replicate 1 _
    rw [auxiliaryResources, List.eq_replicate_iff]
    constructor
    · rw [List.length_map, List.length_filterMap_eq_countP, types, ← bring entry mem kind]
      refine List.countP_congr fun other _ => ?_
      by_cases same : other = Registry.networkInterfaceType
      · simp [same, machine]
      · simp [same]
    · intro n hn
      obtain ⟨r, hr, rfl⟩ := List.mem_map.mp hn
      obtain ⟨other, -, made⟩ := List.mem_filterMap.mp hr
      split_ifs at made
      obtain rfl := Option.some.inj made
      rfl
  · rename_i other
    rw [auxiliaryResources_eq_nil other, List.map_nil]

theorem networkInterfaceSymbol_ne (symbol : String) : networkInterfaceSymbol symbol ≠ symbol := by
  intro same
  have lengths := congrArg String.length same
  have own : "NetworkInterface".length = 16 := by decide
  rw [networkInterfaceSymbol, String.length_append, own] at lengths
  omega

section Documents

variable (registry : Registry) (now : Instant) (config : Configuration) (schema : ResourceSchema)
  (type : String)

def derivedNames : List String :=
  (derivedProperties registry config schema type).map (·.1)

theorem names_derivedOf :
    (derivedOf registry config schema type).params.map (·.name) =
      derivedNames registry config schema type := by
  rw [params_derivedOf, List.map_map]
  rfl

theorem names_ownParameters :
    (ownParameters registry config schema type).map (·.name) =
      recipeParameterNames (registry.lookup type config.targetScope).kind ++
        derivedNames registry config schema type := by
  unfold ownParameters derivedNames derivedProperties
  cases own : (recipe (registry.lookup type config.targetScope).kind).parameters? with
  | some parameters =>
    have names := names_recipe own config
    simpa only [List.map_nil, List.append_nil] using names
  | none =>
    simp only [recipeParameterNames, own, Option.map_none, Option.getD_none, List.nil_append,
      List.map_map]
    rfl

/-- The parameters and variables have the names of the tables and those of derived parameters. -/
theorem perm_names :
    let info := registry.lookup type config.targetScope
    let d := generateForType registry now config schema type
    (d.parameters.map (·.name) ++ d.vars.map (·.name)).Perm
      (tableNames info.supportsLocationAndTags info.kind ++
        derivedNames registry config schema type) := by
  intro info d
  have parameters : d.parameters.map (·.name) =
      (baseParameters info.supportsLocationAndTags config).map (·.name) ++
        (recipeParameterNames info.kind ++ derivedNames registry config schema type) := by
    rw [parameters_generateForType, List.map_append, names_ownParameters]
  have vars : d.vars.map (·.name) =
      (baseVariables type info.supportsLocationAndTags).map (·.name) ++
        (recipe info.kind).vars.map (·.name) :=
    List.map_append
  have base := perm_baseNames info.supportsLocationAndTags config type
  rw [parameters, vars]
  rw [List.perm_iff_count] at base ⊢
  intro n
  have count := base n
  simp only [List.count_append, tableNames, recipeNames] at count ⊢
  omega

/-- The resources have the symbol of the type, and that of a network interface in front of it. -/
theorem symbols_generateForType (bring : BringInterface registry) :
    (generateForType registry now config schema type).declarations.map (·.symbol) =
      (if (registry.lookup type config.targetScope).kind = .virtualMachine then
        [networkInterfaceSymbol (resourceSymbol type)] else []) ++ [resourceSymbol type] := by
  rw [declarations_generateForType, List.map_append, List.map_map, ← symbols_auxiliary bring]
  rfl

theorem mem_symbols_iff (bring : BringInterface registry) {n : String} :
    n ∈ (generateForType registry now config schema type).declarations.map (·.symbol) ↔
      n = resourceSymbol type ∨
        (registry.lookup type config.targetScope).kind = .virtualMachine ∧
          n = networkInterfaceSymbol (resourceSymbol type) := by
  rw [symbols_generateForType registry now config schema type bring, List.mem_append,
    List.mem_singleton, or_comm, List.mem_ite_nil_right, List.mem_singleton]

theorem nodup_symbols (bring : BringInterface registry) :
    ((generateForType registry now config schema type).declarations.map (·.symbol)).Nodup := by
  rw [symbols_generateForType registry now config schema type bring]
  split
  · rw [List.cons_append, List.nil_append, List.nodup_cons, List.mem_singleton]
    exact ⟨networkInterfaceSymbol_ne _, List.nodup_cons.mpr ⟨List.not_mem_nil, List.nodup_nil⟩⟩
  · exact List.nodup_cons.mpr ⟨List.not_mem_nil, List.nodup_nil⟩

end Documents

section Derived

variable {registry : Registry} {config : Configuration} {schema : ResourceSchema} {type : String}

/-- Derived parameters keep away from all other names. -/
theorem derivedNames_apart {n : String} (h : n ∈ derivedNames registry config schema type) :
    let info := registry.lookup type config.targetScope
    n ∉ tableNames info.supportsLocationAndTags info.kind ∧ n ≠ resourceSymbol type ∧
      info.kind ≠ .virtualMachine := by
  intro info
  obtain ⟨p, hp, rfl⟩ := List.mem_map.mp h
  have own : (recipe info.kind).parameters? = none := by
    unfold derivedProperties at hp
    split at hp
    · cases hp
    · rename_i own
      exact own
  have usable := isUsable_of_mem_derivedProperties hp
  have free : p.1 ∉ takenNames registry config type := by
    simp only [isUsable, Bool.and_eq_true, Bool.not_eq_true', List.contains_eq_mem,
      decide_eq_false_iff_not] at usable
    exact usable.1.2
  simp only [takenNames, List.map_append, List.mem_append, List.mem_singleton, not_or] at free
  obtain ⟨⟨⟨base, vars, recipeVars⟩, -⟩, symbol⟩ := free
  refine ⟨?_, symbol, ?_⟩
  · simp only [tableNames, recipeNames, recipeParameterNames, own, Option.map_none,
      Option.getD_none, List.nil_append, List.mem_append, not_or]
    refine ⟨?_, recipeVars⟩
    rw [← (perm_baseNames info.supportsLocationAndTags config type).mem_iff, List.mem_append,
      not_or]
    exact ⟨base, vars⟩
  · intro kind
    rw [kind] at own
    cases own

theorem nodup_derivedNames (keys : schema.document.hasDistinctKeys = true) :
    (derivedNames registry config schema type).Nodup := by
  unfold derivedNames derivedProperties
  split
  · exact List.nodup_nil
  · refine List.Nodup.sublist (List.filter_sublist.map _) ?_
    cases settings : schema.settings? with
    | some entries => exact (ResourceSchema.distinct_settings? keys settings).keys
    | none =>
      cases properties : schema.properties? with
      | some entries => exact (ResourceSchema.distinct_properties? keys properties).keys
      | none => exact List.nodup_nil

end Derived

/-! ## The namespace -/

section Namespace

variable (registry : Registry) (now : Instant) (config : Configuration) {schema : ResourceSchema}
  (type : String)

/-- The parameters and variables alone have one namespace in any case. -/
theorem namespace_names (keys : schema.document.hasDistinctKeys = true) :
    let d := generateForType registry now config schema type
    (∀ n ∈ d.parameters.map (·.name) ++ d.vars.map (·.name), Value.isIdentifier n = true) ∧
      (d.parameters.map (·.name) ++ d.vars.map (·.name)).Nodup := by
  intro d
  have perm := perm_names registry now config schema type
  constructor
  · intro n hn
    rcases List.mem_append.mp (perm.mem_iff.mp hn) with table | derived
    · exact (tableNames_spec table).1
    · obtain ⟨p, hp, rfl⟩ := List.mem_map.mp derived
      exact isIdentifier_of_mem_derivedProperties hp
  · rw [perm.nodup_iff, List.nodup_append]
    refine ⟨nodup_tableNames _ _, nodup_derivedNames keys, ?_⟩
    rintro n table m derived rfl
    exact (derivedNames_apart derived).1 table

/-- The whole document has one namespace exactly if the symbol of its resource begins with a letter
and is none of the names in the tables. -/
theorem oneNamespace_iff (bring : BringInterface registry)
    (keys : schema.document.hasDistinctKeys = true) :
    OneNamespace (generateForType registry now config schema type) ↔
      startsWithLetter (resourceSymbol type) = true ∧
        resourceSymbol type ∉ tableNames
          (registry.lookup type config.targetScope).supportsLocationAndTags
          (registry.lookup type config.targetScope).kind := by
  obtain ⟨identifiers, distinct⟩ := namespace_names registry now config type keys
  have names := perm_names registry now config schema type
  have letter := isIdentifier_iff_startsWithLetter (isAlphanum_resourceSymbol type)
  rw [← letter]
  constructor
  · rintro ⟨allIdentifiers, allDistinct⟩
    have own := (mem_symbols_iff registry now config schema type bring).mpr (.inl rfl)
    constructor
    · exact allIdentifiers _ (List.mem_append_right _ own)
    · intro table
      have declared := names.mem_iff.mpr (List.mem_append_left _ table)
      exact (List.nodup_append.mp allDistinct).2.2 _ declared _ own rfl
  · rintro ⟨identifier, free⟩
    constructor
    · intro n hn
      rcases List.mem_append.mp hn with hn | hn
      · exact identifiers n hn
      · rcases (mem_symbols_iff registry now config schema type bring).mp hn with rfl | ⟨-, rfl⟩
        · exact identifier
        · exact isIdentifier_append identifier (by decide)
    · refine List.nodup_append.mpr
        ⟨distinct, nodup_symbols registry now config schema type bring, ?_⟩
      rintro n hn m hm rfl
      -- only the symbol and the tables are kept apart by nothing but the assumption
      have symbol := (mem_symbols_iff registry now config schema type bring).mp hm
      rcases List.mem_append.mp (names.mem_iff.mp hn) with table | derived
      · rcases symbol with rfl | ⟨-, rfl⟩
        · exact free table
        · exact networkInterfaceSymbol_notMem _ _ _ table
      · obtain ⟨-, other, kind⟩ := derivedNames_apart derived
        rcases symbol with same | ⟨machine, -⟩
        · exact other same
        · exact kind machine

end Namespace

/-! ## The built-in types -/

/-- The types with a recipe do not end in a name of their recipe. -/
theorem resourceSymbol_notMem_recipeNames (type : String) (scope : TargetScope) :
    resourceSymbol type ∉ recipeNames (Registry.azure.lookup type scope).kind := by
  have builtin : ∀ entry ∈ Registry.azure.entries,
      resourceSymbol entry.1 ∉ recipeNames entry.2.kind := by decide +kernel
  have kind : (Registry.azure.lookup type scope).kind =
      ((Registry.azure.find? type).getD (.assumed type)).kind := by
    simp only [Registry.lookup]
    split_ifs <;> rfl
  rw [kind]
  cases found : Registry.azure.find? type with
  | none => exact List.not_mem_nil
  | some info =>
    obtain ⟨front, back, entries, -⟩ := List.lookup_eq_some_iff.mp found
    refine builtin (type, info) ?_
    rw [entries]
    exact List.mem_append_right _ List.mem_cons_self

/-- The parameters and variables of a generated document are distinct identifiers. With the symbols
of its resources they are so, too, exactly if the symbol of the type begins with a letter and is
none of the names that every document begins with. -/
theorem generateForType_namespace (now : Instant) (config : Configuration)
    {schema : ResourceSchema} (keys : schema.document.hasDistinctKeys = true) (type : String) :
    let d := generateForType .azure now config schema type
    let located := (Registry.azure.lookup type config.targetScope).supportsLocationAndTags
    (∀ n ∈ d.parameters.map (·.name) ++ d.vars.map (·.name), Value.isIdentifier n = true) ∧
      (d.parameters.map (·.name) ++ d.vars.map (·.name)).Nodup ∧
      (OneNamespace d ↔ startsWithLetter (resourceSymbol type) = true ∧
        resourceSymbol type ∉ baseNames located) := by
  intro d located
  have bring : BringInterface .azure := by decide +kernel
  obtain ⟨identifiers, distinct⟩ := namespace_names .azure now config type keys
  refine ⟨identifiers, distinct, ?_⟩
  have recipes := resourceSymbol_notMem_recipeNames type config.targetScope
  rw [oneNamespace_iff .azure now config type bring keys, tableNames, List.mem_append, not_or,
    and_iff_left recipes]

/-- A schema whose settings are named like other declarations, but for one. -/
def crowdedSchema : ResourceSchema :=
  ⟨.obj [("properties", .obj [("properties", .obj [("properties", .obj
    [("gears", .obj []), ("environment", .obj []), ("commonTags", .obj []),
     ("teeth", .obj [])])])])]⟩

/-- Of the settings only one becomes a parameter, and the document has one namespace. -/
theorem generateForType_namespace_gears :
    crowdedSchema.document.hasDistinctKeys = true ∧
      OneNamespace (generateForType .azure ⟨0⟩ {} crowdedSchema "Acme/gears") ∧
      derivedNames .azure {} crowdedSchema "Acme/gears" = ["teeth"] := by
  have keys : crowdedSchema.document.hasDistinctKeys = true := by decide +kernel
  have whole := (generateForType_namespace ⟨0⟩ {} keys "Acme/gears").2.2
  exact ⟨keys, whole.mpr (by decide +kernel), by decide +kernel⟩

/-- A type that ends in the name of a parameter declares it twice, and the symbol of one that ends
in a digit first is no identifier. -/
theorem location_declared_twice :
    ¬ OneNamespace (generateForType .azure ⟨0⟩ {} ⟨.obj []⟩ "Acme/location") ∧
      ¬ OneNamespace (generateForType .azure ⟨0⟩ {} ⟨.obj []⟩ "Acme/3dmodels") := by
  constructor
  · intro one
    have twice : (declaredNames
        (generateForType .azure ⟨0⟩ {} ⟨.obj []⟩ "Acme/location")).count "location" = 2 := by
      decide +kernel
    have once := List.nodup_iff_count_le_one.mp one.distinct "location"
    omega
  · intro one
    have declared : "3dmodels" ∈
        declaredNames (generateForType .azure ⟨0⟩ {} ⟨.obj []⟩ "Acme/3dmodels") := by
      decide +kernel
    exact absurd (one.identifiers _ declared) (by decide)

end BicepForge.Generation
