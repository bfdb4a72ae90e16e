import BicepForge.Generation.Generator

/-!
# Derived parameters

Which properties of a schema become parameters of a generated document, and how the parameters and
the main resource of the document depend on them.
-/

namespace BicepForge.Generation

open Bicep

/-- The names that no derived parameter may take. -/
def takenNames (registry : Registry) (config : Configuration) (type : String) : List String :=
  let info := registry.lookup type config.targetScope
  let located := info.supportsLocationAndTags
  (baseParameters located config).map (·.name) ++
    (baseVariables type located ++ (recipe info.kind).vars).map (·.name) ++
    reservedNames ++ [resourceSymbol type]

/-- The properties from which the parameters of a document are derived. -/
def derivedProperties (registry : Registry) (config : Configuration) (schema : ResourceSchema)
    (type : String) : List (String × Json) :=
  match (recipe (registry.lookup type config.targetScope).kind).parameters? with
  | some _ => []
  | none =>
    (schema.settings?.getD (schema.properties?.getD [])).filter fun p =>
      isUsable (takenNames registry config type) p.1 p.2

/-- The parameters behind the base ones: those of the recipe, or derived ones. -/
def ownParameters (registry : Registry) (config : Configuration) (schema : ResourceSchema)
    (type : String) : List Param :=
  match (recipe (registry.lookup type config.targetScope).kind).parameters? with
  | some parameters => parameters config
  | none => (derivedProperties registry config schema type).map fun p => parameterOfSchema p.1 p.2

def derivedOf (registry : Registry) (config : Configuration) (schema : ResourceSchema)
    (type : String) : DerivedParameters :=
  match (recipe (registry.lookup type config.targetScope).kind).parameters? with
  | some _ => ⟨[], false⟩
  | none => deriveParameters schema (takenNames registry config type)

section Documents

variable (registry : Registry) (now : Instant) (config : Configuration) (schema : ResourceSchema)
  (type : String)

theorem params_derivedOf :
    (derivedOf registry config schema type).params =
      (derivedProperties registry config schema type).map fun p => parameterOfSchema p.1 p.2 := by
  unfold derivedOf derivedProperties
  split
  · rfl
  · simp only [deriveParameters]
    cases schema.settings? <;> rfl

theorem params_derivedOf_subset :
    (derivedOf registry config schema type).params ⊆ ownParameters registry config schema type := by
  rw [params_derivedOf]
  unfold ownParameters derivedProperties
  split
  · exact List.nil_subset _
  · exact List.Subset.refl _

theorem parameters_generateForType :
    (generateForType registry now config schema type).parameters =
      baseParameters (registry.lookup type config.targetScope).supportsLocationAndTags config ++
        ownParameters registry config schema type := by
  have derived := params_derivedOf registry config schema type
  simp only [generateForType, ownParameters]
  congr 1
  cases own : (recipe (registry.lookup type config.targetScope).kind).parameters? with
  | some parameters => rfl
  | none =>
    simp only [derivedOf, own] at derived
    exact derived

/-- A parameter is there for each property from which one is derived. -/
theorem parameterOfSchema_mem_parameters {p : String × Json}
    (h : p ∈ derivedProperties registry config schema type) :
    parameterOfSchema p.1 p.2 ∈ (generateForType registry now config schema type).parameters := by
  rw [parameters_generateForType]
  refine List.mem_append_right _ (params_derivedOf_subset registry config schema type ?_)
  rw [params_derivedOf]
  exact List.mem_map.mpr ⟨p, h, rfl⟩

theorem declarations_generateForType :
    (generateForType registry now config schema type).declarations =
      (auxiliaryResources registry (registry.lookup type config.targetScope)
        (resourceSymbol type)).map .resource ++
        [.resource (mainResource config (registry.lookup type config.targetScope)
          (resourceSymbol type) (registry.selectApiVersion schema type)
          (derivedOf registry config schema type))] := rfl

end Documents

/-- A derived parameter has a name that nobody else has taken. -/
theorem isUsable_of_mem_derivedProperties {registry : Registry} {config : Configuration}
    {schema : ResourceSchema} {type : String} {p : String × Json}
    (h : p ∈ derivedProperties registry config schema type) :
    isUsable (takenNames registry config type) p.1 p.2 = true := by
  unfold derivedProperties at h
  split at h
  · cases h
  · exact (List.mem_filter.mp h).2

theorem isIdentifier_of_mem_derivedProperties {registry : Registry} {config : Configuration}
    {schema : ResourceSchema} {type : String} {p : String × Json}
    (h : p ∈ derivedProperties registry config schema type) : Value.isIdentifier p.1 = true := by
  have usable := isUsable_of_mem_derivedProperties h
  simp only [isUsable, Bool.and_eq_true] at usable
  exact usable.2

end BicepForge.Generation
