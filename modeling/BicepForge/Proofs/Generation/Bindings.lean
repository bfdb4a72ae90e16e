import BicepForge.Proofs.Generation.Location
import BicepForge.Proofs.Generation.Usable

/-!
# Bindings

What is derived from a schema is bound in the main resource: each parameter once, where its property
came from, under its own name. A nested deployment is the exception. Its settings are always those
of an incremental deployment without resources, and none of the parameters is bound in them.

Bodies are compared by their leaves, the values that are no objects, each with the keys that lead to
it.
-/

namespace BicepForge.Bicep

/-- A value that is no object, with the keys that lead to it. -/
structure Leaf where
  path : List String
  value : Value

/-- A leaf of an object as one of the object around it. -/
def Leaf.below (key : String) (l : Leaf) : Leaf :=
  { l with path := key :: l.path }

mutual
/-- The leaves of a value. -/
def Value.leaves : Value → List Leaf
  | .object body => Body.leaves body
  | v => [⟨[], v⟩]
def Body.leaves : Body → List Leaf
  | [] => []
  | .comment _ :: es => Body.leaves es
  | .property key v :: es => (Value.leaves v).map (.below key) ++ Body.leaves es
end

theorem Body.leaves_append (xs ys : Body) :
    Body.leaves (xs ++ ys) = Body.leaves xs ++ Body.leaves ys := by
  induction xs with
  | nil => rfl
  | cons e es ih =>
    cases e with
    | comment text => exact ih
    | property key v =>
      rw [List.cons_append, Body.leaves, Body.leaves, ih, List.append_assoc]

theorem Body.leaves_nest (key : String) (body : Body) :
    Body.leaves [.nest key body] = (Body.leaves body).map (.below key) := by
  rw [Entry.nest, Body.leaves, Value.leaves, Body.leaves, List.append_nil]

end BicepForge.Bicep

namespace BicepForge.Generation

open Bicep References

/-- The leaf that binds a parameter to its own name in an object. -/
def bindingAt (place : List String) (p : Param) : Leaf :=
  ⟨place ++ [p.name], .expr p.name⟩

/-- Where a resource has its settings, or its top-level properties. -/
def place (nested : Bool) : List String :=
  if nested then ["properties"] else []

/-- Neither a body nor the settings in it have a key twice. -/
structure DistinctKeys (body : Body) : Prop where
  outer : (Body.keys body).Nodup
  inner : ∃ settings, Body.get? body "properties" = some (.object settings) ∧
    (Body.keys settings).Nodup

/-- A body binds each of some parameters in an object, and has nothing else but what identifies the
resource. -/
structure BindsEach (located : Bool) (place : List String) (params : List Param) (body : Body) :
    Prop where
  leaves : Body.leaves body =
    Body.leaves (identity (.expr "resourceNameFormatted") located) ++ params.map (bindingAt place)
  paths : ((Body.leaves body).map (·.path)).Nodup
  once : ∀ p ∈ params, ∀ path, ⟨path, .expr p.name⟩ ∈ Body.leaves body ↔ path = place ++ [p.name]

/-! ## Settings -/

theorem leaves_bindings (params : List Param) :
    Body.leaves (bindings params) = params.map (bindingAt []) := by
  induction params with
  | nil => rfl
  | cons p params ih => exact congrArg (bindingAt [] p :: ·) ih

/-- The bindings of derived parameters beside the settings. -/
def outerBindings (derived : DerivedParameters) : Body :=
  if derived.nested then [] else bindings derived.params

/-- The settings of a resource without a recipe. -/
def innerSettings (type : String) (derived : DerivedParameters) : Body :=
  if derived.nested ∧ !derived.params.isEmpty then bindings derived.params else placeholder type

section Settings

variable (type : String) (derived : DerivedParameters)

theorem genericSettings_eq :
    genericSettings type derived =
      outerBindings derived ++ [.nest "properties" (innerSettings type derived)] := by
  rcases derived with ⟨params, _ | _⟩ <;> cases params <;> rfl

theorem leaves_genericSettings :
    Body.leaves (genericSettings type derived) =
      derived.params.map (bindingAt (place derived.nested)) := by
  rw [genericSettings_eq, Body.leaves_append, Body.leaves_nest]
  rcases derived with ⟨params, _ | _⟩
  · exact (List.append_nil _).trans (leaves_bindings params)
  · cases params with
    | nil => rfl
    | cons p params =>
      show (Body.leaves (bindings (p :: params))).map (Leaf.below "properties") = _
      rw [leaves_bindings, List.map_map]
      rfl

theorem nodup_keys_innerSettings (distinct : (derived.params.map (·.name)).Nodup) :
    (Body.keys (innerSettings type derived)).Nodup := by
  rw [innerSettings]
  split
  · rwa [keys_bindings]
  · exact List.nodup_nil

theorem keys_outerBindings_sublist :
    (Body.keys (outerBindings derived)).Sublist (derived.params.map (·.name)) := by
  rw [outerBindings]
  split
  · exact List.nil_sublist _
  · rw [keys_bindings]

end Settings

/-! ## Bodies -/

/-- Parameters with distinct names that no entry of the resource has or refers to by itself. -/
structure Apart (params : List Param) : Prop where
  once : (params.map (·.name)).Nodup
  free : ∀ p ∈ params, p.name ∉ identityFields ∧ p.name ∉ reservedNames

/-- The leaves of an identity have its fields for paths, and refer to no derived parameter. -/
theorem exists_of_mem_leaves_identity {located : Bool} {l : Leaf}
    (h : l ∈ Body.leaves (identity (.expr "resourceNameFormatted") located)) :
    ∃ field ∈ identityFields, ∃ name ∈ identityFields ++ reservedNames,
      l = ⟨[field], .expr name⟩ := by
  have all : Body.leaves (identity (.expr "resourceNameFormatted") located) ⊆
      [⟨["name"], .expr "resourceNameFormatted"⟩, ⟨["location"], .expr "location"⟩,
        ⟨["tags"], .expr "commonTags"⟩] := by
    cases located with
    | true => exact List.Subset.refl _
    | false => exact List.cons_subset_cons _ (List.nil_subset _)
  have mem := all h
  simp only [List.mem_cons, List.not_mem_nil, or_false] at mem
  rcases mem with rfl | rfl | rfl
  · exact ⟨"name", by decide, "resourceNameFormatted", by decide, rfl⟩
  · exact ⟨"location", by decide, "location", by decide, rfl⟩
  · exact ⟨"tags", by decide, "commonTags", by decide, rfl⟩

theorem nodup_paths_identity (located : Bool) :
    ((Body.leaves (identity (.expr "resourceNameFormatted") located)).map (·.path)).Nodup := by
  cases located with
  | true => show [["name"], ["location"], ["tags"]].Nodup; decide
  | false => exact List.nodup_singleton _

section Bodies

variable {located : Bool} {params : List Param} (apart : Apart params)
include apart

theorem notMem_leaves_identity {p : Param} (h : p ∈ params) (path : List String) :
    ⟨path, .expr p.name⟩ ∉ Body.leaves (identity (.expr "resourceNameFormatted") located) := by
  intro mem
  obtain ⟨field, -, name, taken, same⟩ := exists_of_mem_leaves_identity mem
  obtain ⟨-, value⟩ := Leaf.mk.inj same
  rw [← Value.expr.inj value] at taken
  exact (List.mem_append.mp taken).elim (apart.free p h).1 (apart.free p h).2

theorem bindsEach_of_leaves {place : List String} {body : Body}
    (leaves : Body.leaves body =
      Body.leaves (identity (.expr "resourceNameFormatted") located) ++
        params.map (bindingAt place)) :
    BindsEach located place params body where
  leaves
  paths := by
    have bound : ((params.map (bindingAt place)).map (·.path)).Nodup := by
      have distinct := apart.once.map (f := fun name => place ++ [name])
        fun _ _ same => List.singleton_injective (List.append_cancel_left same)
      rw [List.map_map] at distinct ⊢
      exact distinct
    rw [leaves, List.map_append]
    refine List.nodup_append.mpr ⟨nodup_paths_identity located, bound, ?_⟩
    rintro path own other derived rfl
    obtain ⟨l, mem, rfl⟩ := List.mem_map.mp own
    obtain ⟨field, identity, name, -, rfl⟩ := exists_of_mem_leaves_identity mem
    simp only [List.map_map, List.mem_map] at derived
    obtain ⟨p, hp, same⟩ := derived
    -- the last key of the path would be an identity field and the name of the parameter
    have last := congrArg List.getLast? same
    simp only [Function.comp_apply, bindingAt, List.getLast?_concat,
      List.getLast?_singleton] at last
    exact (apart.free p hp).1 (Option.some.inj last ▸ identity)
  once := by
    intro p hp path
    rw [leaves, List.mem_append, or_iff_right (notMem_leaves_identity apart hp path), List.mem_map]
    constructor
    · rintro ⟨q, -, same⟩
      obtain ⟨rfl, value⟩ := Leaf.mk.inj same
      rw [Value.expr.inj value]
    · rintro rfl
      exact ⟨p, hp, rfl⟩

end Bodies

theorem distinctKeys_append {front settings : Body} (outer : (Body.keys front).Nodup)
    (free : "properties" ∉ Body.keys front) (inner : (Body.keys settings).Nodup) :
    DistinctKeys (front ++ [.nest "properties" settings]) := by
  have keys : (Body.keys (front ++ [.nest "properties" settings])).Nodup := by
    rw [Body.keys_append]
    refine List.nodup_append.mpr ⟨outer, List.nodup_singleton _, ?_⟩
    rintro key mem other single rfl
    rw [List.mem_singleton.mp single] at mem
    exact free mem
  refine ⟨keys, settings, ?_, inner⟩
  refine (Entries.lookup_eq_some_iff keys).mpr ?_
  rw [Body.properties, List.filterMap_append]
  exact List.mem_append_right _ (List.mem_singleton_self _)

theorem distinctKeys_genericSettings (name : Value) (located : Bool) (type : String)
    {derived : DerivedParameters} (apart : Apart derived.params) :
    DistinctKeys (identity name located ++ genericSettings type derived) := by
  have identity' : Body.keys (identity name located) ⊆ ["name", "location", "tags"] := by
    rw [keys_identity]
    cases located <;> decide
  have names {n : String} (h : n ∈ Body.keys (outerBindings derived)) : n ∉ identityFields := by
    obtain ⟨p, hp, rfl⟩ := List.mem_map.mp ((keys_outerBindings_sublist derived).subset h)
    exact (apart.free p hp).1
  rw [genericSettings_eq, ← List.append_assoc]
  refine distinctKeys_append ?_ ?_ (nodup_keys_innerSettings type derived apart.once)
  · rw [Body.keys_append]
    refine List.nodup_append.mpr ⟨?_, apart.once.sublist (keys_outerBindings_sublist derived), ?_⟩
    · rw [keys_identity]
      cases located <;> decide
    · rintro n own m outer rfl
      have fields : ["name", "location", "tags"] ⊆ identityFields := by decide
      exact names outer (fields (identity' own))
  · rw [Body.keys_append, List.mem_append, not_or]
    constructor
    · intro mem
      exact absurd (identity' mem) (by decide)
    · intro mem
      exact names mem (by decide)

/-- The settings of a nested deployment refer to nothing. -/
theorem notMem_leaves_nestedDeployment (path : List String) (name : String) :
    ⟨path, .expr name⟩ ∉ Body.leaves [.nest "properties" nestedDeploymentSettings] := by
  have leaves : Body.leaves [.nest "properties" nestedDeploymentSettings] =
      [⟨["properties", "mode"], .str "Incremental"⟩,
        ⟨["properties", "template", "$schema"], .str templateSchemaUri⟩,
        ⟨["properties", "template", "contentVersion"], .str "1.0.0.0"⟩,
        ⟨["properties", "template", "resources"], .array []⟩] := rfl
  simp [leaves]

/-! ## Documents -/

section Derived

variable {registry : Registry} {config : Configuration} {schema : ResourceSchema} {type : String}
  (own : (registry.lookup type config.targetScope).kind.hasOwnParameters = false)
include own

theorem nested_derivedOf :
    (derivedOf registry config schema type).nested = schema.settings?.isSome := by
  rw [derivedOf, recipe_eq_none_of_own own]
  show (deriveParameters schema _).nested = _
  rw [deriveParameters]
  cases schema.settings? <;> rfl

theorem apart_ownParameters (keys : schema.document.hasDistinctKeys = true) :
    Apart (ownParameters registry config schema type) := by
  have derivation := derivedFrom_ownParameters keys own
  constructor
  · exact derivation.once
  · intro p hp
    obtain ⟨property, -, usable, -⟩ := (derivation.mem_iff p).mp hp
    exact ⟨usable.identity, usable.reserved⟩

end Derived

/-- A body binds none of some parameters. -/
def BindsNone (params : List Param) (body : Body) : Prop :=
  ∀ p ∈ params, ∀ path, ⟨path, .expr p.name⟩ ∉ Body.leaves body

section MainResource

variable {info : ResourceTypeInfo} (config : Configuration) (symbol apiVersion : String)
  {derived : DerivedParameters} (apart : Apart derived.params)
include apart

theorem mainResource_generic (generic : info.kind = .generic) :
    let body := (mainResource config info symbol apiVersion derived).body
    DistinctKeys body ∧
      BindsEach info.supportsLocationAndTags (place derived.nested) derived.params body := by
  intro body
  have whole : body = identity (.expr "resourceNameFormatted") info.supportsLocationAndTags ++
      genericSettings info.name derived := by
    simp only [body, mainResource, generic, recipe, nameVariable]
  rw [whole]
  refine ⟨distinctKeys_genericSettings _ _ _ apart, bindsEach_of_leaves apart ?_⟩
  rw [Body.leaves_append, leaves_genericSettings]

theorem mainResource_nestedDeployment (nested : info.kind = .nestedDeployment) :
    let body := (mainResource config info symbol apiVersion derived).body
    DistinctKeys body ∧ BindsNone derived.params body ∧
      body = identity (.expr "resourceNameFormatted") info.supportsLocationAndTags ++
        [.nest "properties" nestedDeploymentSettings] := by
  intro body
  have whole : body = identity (.expr "resourceNameFormatted") info.supportsLocationAndTags ++
      [.nest "properties" nestedDeploymentSettings] := by
    simp only [body, mainResource, nested, recipe, nameVariable]
  refine ⟨?_, ?_, whole⟩ <;> rw [whole]
  · refine distinctKeys_append ?_ ?_ (by decide) <;> rw [keys_identity] <;>
      cases info.supportsLocationAndTags <;> decide
  · intro p hp path
    rw [Body.leaves_append, List.mem_append, not_or]
    exact ⟨notMem_leaves_identity apart hp path, notMem_leaves_nestedDeployment path p.name⟩

end MainResource

/-- Where a type has no parameters of its own, its resource binds each derived parameter once, in
the object that its property came from, and has nothing else but its name, location and tags. A
nested deployment binds none of them: its settings are always those without resources. No key comes
twice in either. -/
theorem generateForType_bindings (registry : Registry) (now : Instant) (config : Configuration)
    {schema : ResourceSchema} (type : String) (keys : schema.document.hasDistinctKeys = true)
    (own : (registry.lookup type config.targetScope).kind.hasOwnParameters = false) :
    let info := registry.lookup type config.targetScope
    let located := info.supportsLocationAndTags
    let d := generateForType registry now config schema type
    ∃ derived r, d.parameters = baseParameters located config ++ derived ∧
      d.declarations = [.resource r] ∧ DistinctKeys r.body ∧
      (info.kind ≠ .nestedDeployment →
        BindsEach located (place schema.settings?.isSome) derived r.body) ∧
      (info.kind = .nestedDeployment → BindsNone derived r.body ∧
        r.body = identity (.expr "resourceNameFormatted") located ++
          [.nest "properties" nestedDeploymentSettings]) := by
  intro info located d
  have params := @params_derivedOf_eq registry config schema type own
  have apart := apart_ownParameters own keys
  rw [← params] at apart
  refine ⟨ownParameters registry config schema type, _,
    parameters_generateForType registry now config schema type,
    declarations_of_derived registry now config type own, ?_⟩
  rw [← params, ← nested_derivedOf own]
  rcases kind_eq_of_own own with nested | generic
  · obtain ⟨distinct, settings⟩ := mainResource_nestedDeployment config (resourceSymbol type)
      (registry.selectApiVersion schema type) apart nested
    exact ⟨distinct, fun other => absurd nested other, fun _ => settings⟩
  · obtain ⟨distinct, binds⟩ := mainResource_generic config (resourceSymbol type)
      (registry.selectApiVersion schema type) apart generic
    have other : info.kind ≠ .nestedDeployment := by
      rw [show info.kind = .generic from generic]
      exact ResourceKind.noConfusion
    exact ⟨distinct, fun _ => binds, fun nested => absurd nested other⟩

/-- Two settings become parameters, and each is bound in the properties of the resource. -/
theorem generateForType_bindings_gears :
    let d := generateForType .azure ⟨0⟩ {} settledSchema "Acme/gears"
    ∃ derived r, d.parameters = baseParameters true {} ++ derived ∧
      derived.map (·.name) = ["teeth", "apiToken"] ∧ d.declarations = [.resource r] ∧
      DistinctKeys r.body ∧ BindsEach true ["properties"] derived r.body := by
  intro d
  obtain ⟨generic, located⟩ := lookup_gears
  have keys : settledSchema.document.hasDistinctKeys = true := by decide +kernel
  have own : (Registry.azure.lookup "Acme/gears" .resourceGroup).kind.hasOwnParameters = false := by
    rw [generic]
    rfl
  obtain ⟨derived, r, parameters, declarations, distinct, binds, -⟩ :=
    generateForType_bindings .azure ⟨0⟩ {} "Acme/gears" keys own
  have other : (Registry.azure.lookup "Acme/gears" .resourceGroup).kind ≠ .nestedDeployment := by
    rw [generic]
    exact ResourceKind.noConfusion
  have nested : settledSchema.settings?.isSome = true := by decide +kernel
  have binds := binds other
  rw [located] at parameters binds
  rw [nested] at binds
  exact ⟨derived, r, parameters, names_settled parameters, declarations, distinct, binds⟩

/-- A schema without a type whose one property can become a parameter. -/
def toothedSchema : ResourceSchema :=
  ⟨.obj [("properties", .obj [("teeth", .obj [("type", .str "string")])])]⟩

/-- A nested deployment has no entry that is bound to the parameter for a property. -/
theorem teeth_unbound :
    let d := generateForType .azure ⟨0⟩ {} toothedSchema nestedDeploymentType
    (Registry.azure.lookup nestedDeploymentType .resourceGroup).kind.hasOwnParameters = false ∧
      derivedNames .azure {} toothedSchema nestedDeploymentType = ["teeth"] ∧
      d.hasParam "teeth" = true ∧
      ∃ r, d.declarations = [.resource r] ∧
        ∀ path, ⟨path, .expr "teeth"⟩ ∉ Body.leaves r.body := by
  intro d
  have own : (Registry.azure.lookup nestedDeploymentType .resourceGroup).kind.hasOwnParameters =
      false := by
    decide +kernel
  have nested : (Registry.azure.lookup nestedDeploymentType .resourceGroup).kind =
      .nestedDeployment := by
    decide +kernel
  have names : derivedNames .azure {} toothedSchema nestedDeploymentType = ["teeth"] := by
    decide +kernel
  refine ⟨own, names, by decide +kernel, _, declarations_of_derived .azure ⟨0⟩ {} _ own, ?_⟩
  have apart : Apart (derivedOf .azure {} toothedSchema nestedDeploymentType).params := by
    rw [params_derivedOf_eq own]
    exact apart_ownParameters own (by decide +kernel)
  have none := (mainResource_nestedDeployment {} (resourceSymbol nestedDeploymentType)
    (Registry.azure.selectApiVersion toothedSchema nestedDeploymentType) apart nested).2.1
  have teeth : "teeth" ∈
      (derivedOf .azure {} toothedSchema nestedDeploymentType).params.map (·.name) := by
    rw [names_derivedOf, names]
    exact List.mem_singleton_self _
  obtain ⟨p, hp, name⟩ := List.mem_map.mp teeth
  exact name ▸ none p hp

end BicepForge.Generation
