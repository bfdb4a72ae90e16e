import BicepForge.Proofs.Generation.Namespace

/-!
# Usable properties

A type without parameters of its own has them derived from the settings in its schema, or from the
top-level properties where the schema describes no settings. Every property that is usable becomes
one parameter, in the order of the schema, and no other one does. What is usable keeps away from all
names of the document, so that no schema touches the parameters that every document begins with.
-/

namespace BicepForge.Generation

open Bicep References

/-- Whether a property becomes a parameter beside those that a document begins with: it has an
object for a schema, does not identify the resource, and its name is an identifier that nothing else
has. -/
structure Usable (base : List Param) (vars : List Variable) (symbol name : String)
    (property : Json) : Prop where
  object : ∃ entries, property = .obj entries
  identifier : Value.isIdentifier name = true
  identity : name ∉ identityFields
  parameters : name ∉ base.map (·.name)
  vars : name ∉ vars.map (·.name)
  reserved : name ∉ reservedNames
  symbol : name ≠ symbol

/-- Parameters that are derived from properties: one from each usable property, in their order. -/
structure DerivedFrom (properties : List (String × Json)) (usable : String → Json → Prop)
    (params : List Param) : Prop where
  order : (params.map (·.name)).Sublist (Entries.keys properties)
  once : (params.map (·.name)).Nodup
  mem_iff : ∀ p, p ∈ params ↔ ∃ property, (p.name, property) ∈ properties ∧
    usable p.name property ∧ p = parameterOfSchema p.name property

/-- A parameter that no other parameter, no variable and no resource shares its name with. -/
structure SoleOfItsName (d : Document) (p : Param) : Prop where
  found : d.param? p.name = some p
  sole : (declaredNames d).count p.name = 1

/-! ## Single properties -/

theorem isObject_iff (v : Json) : v.isObject = true ↔ ∃ entries, v = .obj entries := by
  cases v <;> simp [Json.isObject]

theorem isUsable_iff (registry : Registry) (config : Configuration) (type name : String)
    (property : Json) :
    let info := registry.lookup type config.targetScope
    isUsable (takenNames registry config type) name property = true ↔
      Usable (baseParameters info.supportsLocationAndTags config)
        (baseVariables type info.supportsLocationAndTags ++ (recipe info.kind).vars)
        (resourceSymbol type) name property := by
  intro info
  simp only [isUsable, takenNames, Bool.and_eq_true, Bool.not_eq_true', List.contains_eq_mem,
    decide_eq_false_iff_not, List.mem_append, List.mem_singleton, not_or, isObject_iff]
  constructor
  · rintro ⟨⟨⟨object, identity⟩, ⟨⟨parameters, vars⟩, reserved⟩, symbol⟩, identifier⟩
    exact ⟨object, identifier, identity, parameters, vars, reserved, symbol⟩
  · rintro ⟨object, identifier, identity, parameters, vars, reserved, symbol⟩
    exact ⟨⟨⟨object, identity⟩, ⟨⟨parameters, vars⟩, reserved⟩, symbol⟩, identifier⟩

theorem isSensitive_iff (name : String) :
    isSensitive name = true ↔
      ∃ mark ∈ secretMarks, mark.toList <:+: (Text.lower name).toList := by
  simp only [isSensitive, List.any_eq_true, Text.occursIn, Text.hasInfix_iff]

theorem isSecure_iff (p : Param) : p.isSecure = true ↔ .secure ∈ p.decorators := by
  rw [Param.isSecure, List.any_eq_true]
  constructor
  · rintro ⟨d, mem, secure⟩
    cases d with
    | secure => exact mem
    | _ => cases secure
  · exact fun mem => ⟨.secure, mem, rfl⟩

/-- Nothing but its name makes a derived parameter a secret. -/
theorem isSecure_parameterOfSchema_iff (name : String) (schema : Json) :
    (parameterOfSchema name schema).isSecure = true ↔
      ∃ mark ∈ secretMarks, mark.toList <:+: (Text.lower name).toList := by
  rw [isSecure_iff, ← isSensitive_iff]
  simp [parameterOfSchema, decorators, Option.bind_eq_some_iff]

/-! ## Derived parameters -/

section Derived

variable {registry : Registry} {config : Configuration} {schema : ResourceSchema} {type : String}

theorem kind_eq_of_own {kind : ResourceKind} (own : kind.hasOwnParameters = false) :
    kind = .nestedDeployment ∨ kind = .generic := by
  cases kind with
  | nestedDeployment => exact .inl rfl
  | generic => exact .inr rfl
  | _ => cases own

theorem recipe_eq_none_of_own {kind : ResourceKind} (own : kind.hasOwnParameters = false) :
    (recipe kind).parameters? = none := by
  rwa [hasOwnParameters_eq, Option.isSome_eq_false_iff, Option.isNone_iff_eq_none] at own

theorem params_derivedOf_eq
    (own : (registry.lookup type config.targetScope).kind.hasOwnParameters = false) :
    (derivedOf registry config schema type).params = ownParameters registry config schema type := by
  rw [params_derivedOf, ownParameters, recipe_eq_none_of_own own]

theorem derivedFrom_ownParameters (keys : schema.document.hasDistinctKeys = true)
    (own : (registry.lookup type config.targetScope).kind.hasOwnParameters = false) :
    let info := registry.lookup type config.targetScope
    DerivedFrom (schema.settings?.getD (schema.properties?.getD []))
      (Usable (baseParameters info.supportsLocationAndTags config)
        (baseVariables type info.supportsLocationAndTags ++ (recipe info.kind).vars)
        (resourceSymbol type))
      (ownParameters registry config schema type) := by
  intro info
  have properties : derivedProperties registry config schema type =
      (schema.settings?.getD (schema.properties?.getD [])).filter fun p =>
        isUsable (takenNames registry config type) p.1 p.2 := by
    rw [derivedProperties, recipe_eq_none_of_own own]
  rw [← params_derivedOf_eq own]
  have names := names_derivedOf registry config schema type
  constructor
  · rw [names, derivedNames, properties]
    exact List.filter_sublist.map _
  · rw [names]
    exact nodup_derivedNames keys
  · intro p
    rw [params_derivedOf, properties, List.mem_map]
    constructor
    · rintro ⟨⟨name, property⟩, mem, rfl⟩
      obtain ⟨mem, usable⟩ := List.mem_filter.mp mem
      exact ⟨property, mem, (isUsable_iff registry config type name property).mp usable, rfl⟩
    · rintro ⟨property, mem, usable, made⟩
      have kept := (isUsable_iff registry config type p.name property).mpr usable
      exact ⟨(p.name, property), List.mem_filter.mpr ⟨mem, kept⟩, made.symm⟩

end Derived

/-! ## Documents -/

section Documents

variable (registry : Registry) (now : Instant) (config : Configuration) {schema : ResourceSchema}
  (type : String)

/-- A search for a parameter of a document finds it. -/
theorem param?_eq_some (keys : schema.document.hasDistinctKeys = true) {p : Param}
    (h : p ∈ (generateForType registry now config schema type).parameters) :
    (generateForType registry now config schema type).param? p.name = some p := by
  have distinct := (namespace_names registry now config type keys).2
  exact (find?_eq_some_iff (List.nodup_append.mp distinct).1).mpr ⟨h, rfl⟩

/-- The main resource has no other one ahead of it where the type has no parameters of its own. -/
theorem declarations_of_derived
    (own : (registry.lookup type config.targetScope).kind.hasOwnParameters = false) :
    (generateForType registry now config schema type).declarations =
      [.resource (mainResource config (registry.lookup type config.targetScope)
        (resourceSymbol type) (registry.selectApiVersion schema type)
        (derivedOf registry config schema type))] := by
  have other : (registry.lookup type config.targetScope).kind ≠ .virtualMachine := by
    rcases kind_eq_of_own own with kind | kind <;> rw [kind] <;> exact ResourceKind.noConfusion
  rw [declarations_generateForType, auxiliaryResources_eq_nil other]
  rfl

/-- A derived parameter has its name for itself. -/
theorem soleOfItsName (keys : schema.document.hasDistinctKeys = true)
    (own : (registry.lookup type config.targetScope).kind.hasOwnParameters = false) {p : Param}
    (h : p ∈ ownParameters registry config schema type) :
    SoleOfItsName (generateForType registry now config schema type) p := by
  have mem : p ∈ (generateForType registry now config schema type).parameters := by
    rw [parameters_generateForType]
    exact List.mem_append_right _ h
  have derived : p.name ∈ derivedNames registry config schema type := by
    have name := List.mem_map_of_mem (f := Param.name) h
    rw [names_ownParameters, recipeParameterNames, recipe_eq_none_of_own own] at name
    exact name
  obtain ⟨table, symbol, -⟩ := derivedNames_apart derived
  refine ⟨param?_eq_some registry now config type keys mem, ?_⟩
  have names := (perm_names registry now config schema type).count_eq p.name
  have symbols : (generateForType registry now config schema type).declarations.map (·.symbol) =
      [resourceSymbol type] := by
    rw [declarations_of_derived registry now config type own]
    rfl
  rw [declaredNames, List.count_append, names, List.count_append, symbols,
    List.count_eq_zero_of_not_mem table,
    List.count_eq_one_of_mem (nodup_derivedNames keys) derived,
    List.count_eq_zero_of_not_mem (mt List.mem_singleton.mp symbol)]

/-- The parameters of a document are those that every document begins with, and no schema changes
them; where the type has no parameters of its own, one for each usable property comes behind them,
which no declaration shares its name with and whose name alone says whether it is a secret. -/
theorem generateForType_derived (keys : schema.document.hasDistinctKeys = true) :
    let info := registry.lookup type config.targetScope
    let d := generateForType registry now config schema type
    let base := baseParameters info.supportsLocationAndTags config
    (∀ p ∈ base, d.param? p.name = some p) ∧
      (info.kind.hasOwnParameters = false → ∃ derived, d.parameters = base ++ derived ∧
        DerivedFrom (schema.settings?.getD (schema.properties?.getD []))
          (Usable base d.vars (resourceSymbol type)) derived ∧
        ∀ p ∈ derived, SoleOfItsName d p ∧ (p.isSecure = true ↔
          ∃ mark ∈ secretMarks, mark.toList <:+: (Text.lower p.name).toList)) := by
  intro info d base
  have parameters := parameters_generateForType registry now config schema type
  constructor
  · intro p hp
    refine param?_eq_some registry now config type keys ?_
    rw [parameters]
    exact List.mem_append_left _ hp
  · intro own
    have derivation := derivedFrom_ownParameters keys own
    refine ⟨ownParameters registry config schema type, parameters, derivation, ?_⟩
    intro p hp
    obtain ⟨property, -, -, made⟩ := (derivation.mem_iff p).mp hp
    refine ⟨soleOfItsName registry now config type keys own hp, ?_⟩
    rw [made]
    exact isSecure_parameterOfSchema_iff p.name property

end Documents

/-- A schema with settings of which only the last two can become parameters. -/
def settledSchema : ResourceSchema :=
  ⟨.obj [("properties", .obj [("properties", .obj [("properties", .obj
    [("gears", .obj []), ("environment", .obj []), ("commonTags", .obj []), ("name", .obj []),
     ("shape", .str "round"), ("3d", .obj []), ("teeth", .obj []), ("apiToken", .obj [])])])])]⟩

/-- A type that is not registered has no parameters of its own, but a location. -/
theorem lookup_gears :
    let info := Registry.azure.lookup "Acme/gears" .resourceGroup
    info.kind = .generic ∧ info.supportsLocationAndTags = true := by
  decide +kernel

theorem names_settled {derived : List Param}
    (h : (generateForType .azure ⟨0⟩ {} settledSchema "Acme/gears").parameters =
      baseParameters true {} ++ derived) : derived.map (·.name) = ["teeth", "apiToken"] := by
  have all : (generateForType .azure ⟨0⟩ {} settledSchema "Acme/gears").parameters.map (·.name) =
      ["resourceName", "location", "environment", "tags", "teeth", "apiToken"] := by
    decide +kernel
  rw [h, List.map_append] at all
  exact List.append_cancel_left all

/-- Of the settings only two become parameters, one of them a secret, and no setting takes the place
of a parameter that every document begins with. -/
theorem generateForType_derived_gears :
    let d := generateForType .azure ⟨0⟩ {} settledSchema "Acme/gears"
    settledSchema.document.hasDistinctKeys = true ∧
      (Registry.azure.lookup "Acme/gears" .resourceGroup).kind.hasOwnParameters = false ∧
      (∀ p ∈ baseParameters true {}, d.param? p.name = some p) ∧
      ∃ derived, d.parameters = baseParameters true {} ++ derived ∧
        derived.map (·.name) = ["teeth", "apiToken"] ∧
        ∀ p ∈ derived, SoleOfItsName d p ∧ (p.isSecure = true ↔ p.name = "apiToken") := by
  intro d
  obtain ⟨generic, located⟩ := lookup_gears
  have keys : settledSchema.document.hasDistinctKeys = true := by decide +kernel
  have own : (Registry.azure.lookup "Acme/gears" .resourceGroup).kind.hasOwnParameters = false := by
    rw [generic]
    rfl
  obtain ⟨base, derived⟩ := generateForType_derived .azure ⟨0⟩ {} "Acme/gears" keys
  obtain ⟨params, parameters, -, spec⟩ := derived own
  rw [located] at base parameters
  have names := names_settled parameters
  refine ⟨keys, own, base, params, parameters, names, fun p hp => ⟨(spec p hp).1, ?_⟩⟩
  rw [(spec p hp).2]
  have secret : ∀ name ∈ ["teeth", "apiToken"],
      (isSensitive name = true ↔ name = "apiToken") := by
    decide +kernel
  exact (isSensitive_iff p.name).symm.trans (secret p.name (names ▸ List.mem_map_of_mem hp))

end BicepForge.Generation
