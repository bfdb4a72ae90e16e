import BicepForge.Conversion.Session
import BicepForge.Proofs.Generation.Derived
import BicepForge.Proofs.Generation.Naming
import BicepForge.Proofs.References.Plans

/-!
# References are declared

What a converted document refers to is declared in it. For a generated document that holds of
every expression; what remains are the holes in texts that are written between quotes as they are:
the types of its resources, and the object keys in the choices and defaults of derived parameters.
-/

namespace BicepForge.References

open Bicep Generation Conversion

/-- Every type of virtual machines brings one network interface along. -/
def BringInterface (registry : Registry) : Prop :=
  ∀ entry ∈ registry.entries, entry.2.kind = .virtualMachine →
    entry.2.auxiliaryTypes.count Registry.networkInterfaceType = 1

instance (registry : Registry) : Decidable (BringInterface registry) :=
  inferInstanceAs (Decidable (∀ entry ∈ registry.entries, _))

/-- The object keys in the choices and the default of a property. -/
def propertyKeys (schema : Json) : List String :=
  keysOfItems ((schema.array? "enum").getD []) ++ ((schema.get? "default").map keysOf).getD []

/-- The names in the holes of what a generated document writes between quotes as it is. -/
def unescapedNames (registry : Registry) (config : Configuration) (schema : ResourceSchema)
    (type : String) : List String :=
  let info := registry.lookup type config.targetScope
  let references :=
    (auxiliaryResources registry info (resourceSymbol type)).map (·.typeReference) ++
      [info.name ++ "@" ++ registry.selectApiVersion schema type]
  references.flatMap (fun reference => namesIn (Value.inQuotes reference.toList)) ++
    (derivedProperties registry config schema type).flatMap fun p =>
      (propertyKeys p.2).flatMap keyNames

/-! ## Parameters from a schema -/

/-- A derived parameter refers to what the keys of its choices and its default say. -/
theorem paramNames_parameterOfSchema {read : Reading} (literal : read.Quiet) (name : String)
    (schema : Json) :
    paramNames (parameterOfSchema name schema) read =
      (propertyKeys schema).flatMap (keyNames · read) := by
  have quiet {α : Type} (x : Option α) {f : α → Decorator}
      (h : ∀ a, decoratorNames (f a) read = []) :
      ((x.map f).toList).flatMap (decoratorNames · read) = [] := by
    cases x with
    | none => rfl
    | some a => simp [h]
  have described (text : String) : decoratorNames (.description text) read = [] := literal text
  have secret : (if isSensitive name then [Decorator.secure] else []).flatMap
      (decoratorNames · read) = [] := by
    split <;> rfl
  have choices : (((schema.array? "enum").map fun choices =>
      Decorator.allowed (choices.map Value.ofJson)).toList).flatMap (decoratorNames · read) =
      (keysOfItems ((schema.array? "enum").getD [])).flatMap (keyNames · read) := by
    cases schema.array? "enum" with
    | none => rfl
    | some vs =>
      have items := namesOfItems_ofItems literal vs
      rw [Check.ofItems_eq_map] at items
      simpa [decoratorNames] using items
  have default : (((schema.get? "default").map Value.ofJson).map (namesOf · read)).getD [] =
      (((schema.get? "default").map keysOf).getD []).flatMap (keyNames · read) := by
    cases schema.get? "default" with
    | none => rfl
    | some v => exact namesOf_ofJson literal v
  have decorated : (decorators name schema).flatMap (decoratorNames · read) =
      (keysOfItems ((schema.array? "enum").getD [])).flatMap (keyNames · read) := by
    simp only [decorators, List.flatMap_append, List.flatMap_singleton, described,
      choices, secret, quiet _ fun _ : Nat => (rfl : decoratorNames (.minLength _) read = []),
      quiet _ fun _ : Nat => (rfl : decoratorNames (.maxLength _) read = []),
      quiet _ fun _ : Int => (rfl : decoratorNames (.minValue _) read = []),
      quiet _ fun _ : Int => (rfl : decoratorNames (.maxValue _) read = []),
      quiet _ fun _ : String => (rfl : decoratorNames (.note _) read = []), List.nil_append,
      List.append_nil]
  rw [paramNames, parameterOfSchema, decorated, default, propertyKeys, List.flatMap_append]

/-! ## What a generated document declares -/

theorem kind_lookup {registry : Registry} {type : String} {scope : TargetScope}
    (h : (registry.lookup type scope).kind = .virtualMachine) :
    ∃ entry ∈ registry.entries, entry.2.kind = .virtualMachine ∧
      (registry.lookup type scope).auxiliaryTypes = entry.2.auxiliaryTypes := by
  have kind : (((registry.find? type).getD (.assumed type))).kind = .virtualMachine ∧
      (registry.lookup type scope).auxiliaryTypes =
        ((registry.find? type).getD (.assumed type)).auxiliaryTypes := by
    simp only [Registry.lookup] at h ⊢
    split_ifs at h ⊢
    · exact ⟨h, rfl⟩
    · exact ⟨h, rfl⟩
  cases found : registry.find? type with
  | none =>
    rw [found] at kind
    cases kind.1
  | some info =>
    rw [found] at kind
    obtain ⟨front, back, entries, -⟩ := List.lookup_eq_some_iff.mp found
    refine ⟨(type, info), ?_, kind⟩
    rw [entries]
    exact List.mem_append_right _ List.mem_cons_self

/-- A virtual machine is declared behind its network interface. -/
theorem exists_networkInterface {registry : Registry} {type : String} {scope : TargetScope}
    (bring : BringInterface registry)
    (h : (registry.lookup type scope).kind = .virtualMachine) (symbol : String) :
    ∃ r ∈ auxiliaryResources registry (registry.lookup type scope) symbol,
      r.symbol = networkInterfaceSymbol symbol := by
  obtain ⟨entry, mem, kind, types⟩ := kind_lookup h
  have listed : Registry.networkInterfaceType ∈ (registry.lookup type scope).auxiliaryTypes := by
    rw [types, ← List.count_pos_iff, bring entry mem kind]
    exact Nat.one_pos
  refine ⟨networkInterface symbol (((registry.lookup Registry.networkInterfaceType
    .resourceGroup).latestApiVersion?).getD Registry.fallbackApiVersion)
    (registry.lookup type scope).supportsLocationAndTags, ?_, rfl⟩
  exact List.mem_filterMap.mpr ⟨_, listed, if_pos ⟨rfl, h⟩⟩

theorem isWord_of_isAlphanum {s : String} (h : ∀ c ∈ s.toList, c.isAlphanum = true) :
    isWord s = true := by
  rw [isWord, List.all_eq_true]
  intro c hc
  rw [Check.continuesName, h c hc, Bool.true_or]

theorem isWord_resourceSymbol (type : String) : isWord (resourceSymbol type) = true :=
  isWord_of_isAlphanum (isAlphanum_resourceSymbol type)

section Generated

variable (registry : Registry) (now : Instant) (config : Configuration) (schema : ResourceSchema)
  (type : String)

theorem baseParameters_declared :
    (baseParameters (registry.lookup type config.targetScope).supportsLocationAndTags config).map
      (·.name) ⊆ declaredNames (generateForType registry now config schema type) := by
  rw [declaredNames, parameters_generateForType, List.map_append]
  intro n hn
  exact List.mem_append_left _ (List.mem_append_left _ (List.mem_append_left _ hn))

theorem ownParameters_declared :
    (ownParameters registry config schema type).map (·.name) ⊆
      declaredNames (generateForType registry now config schema type) := by
  rw [declaredNames, parameters_generateForType, List.map_append]
  intro n hn
  exact List.mem_append_left _ (List.mem_append_left _ (List.mem_append_right _ hn))

theorem vars_declared :
    (baseVariables type (registry.lookup type config.targetScope).supportsLocationAndTags ++
      (recipe (registry.lookup type config.targetScope).kind).vars).map (·.name) ⊆
      declaredNames (generateForType registry now config schema type) := by
  intro n hn
  exact List.mem_append_left _ (List.mem_append_right _ hn)

/-- Names among which are the declared ones will do for the recipe, if the one of a network
interface is among them where it is read. -/
theorem declares_of_subset {names : List String}
    (declared : declaredNames (generateForType registry now config schema type) ⊆ names)
    (interface : (registry.lookup type config.targetScope).kind = .virtualMachine →
      networkInterfaceSymbol (resourceSymbol type) ∈ names) :
    Declares names config (registry.lookup type config.targetScope).kind (resourceSymbol type) where
  word := isWord_resourceSymbol type
  main := by
    refine declared (List.mem_append_right _ ?_)
    rw [declarations_generateForType, List.map_append]
    exact List.mem_append_right _ (List.mem_singleton_self _)
  formatted := declared (vars_declared _ _ _ _ _ List.mem_cons_self)
  parameters := by
    intro parameters own
    have own' := List.Subset.trans (ownParameters_declared registry now config schema type) declared
    unfold ownParameters at own'
    rwa [own] at own'
  vars := by
    refine List.Subset.trans ?_ (List.Subset.trans (vars_declared _ _ _ _ _) declared)
    rw [List.map_append]
    exact List.subset_append_right _ _
  interface := interface

theorem declares_generateForType (bring : BringInterface registry) :
    Declares (declaredNames (generateForType registry now config schema type)) config
      (registry.lookup type config.targetScope).kind (resourceSymbol type) := by
  refine declares_of_subset _ _ _ _ _ (List.Subset.refl _) ?_
  intro kind
  obtain ⟨r, hr, symbol⟩ := exists_networkInterface bring kind (resourceSymbol type)
  refine List.mem_append_right _ ?_
  rw [declarations_generateForType, List.map_append]
  exact List.mem_append_left _ (List.mem_map.mpr ⟨.resource r, List.mem_map_of_mem hr, symbol⟩)

theorem located_declared
    (located : (registry.lookup type config.targetScope).supportsLocationAndTags = true) :
    "location" ∈ declaredNames (generateForType registry now config schema type) ∧
      "commonTags" ∈ declaredNames (generateForType registry now config schema type) := by
  constructor
  · refine baseParameters_declared _ _ _ _ _ ?_
    rw [located]
    exact List.mem_cons_of_mem _ List.mem_cons_self
  · refine vars_declared _ _ _ _ _ ?_
    rw [located]
    exact List.mem_cons_of_mem _ List.mem_cons_self

/-! ## What a generated document refers to -/

theorem paramNames_own : ∀ p ∈ ownParameters registry config schema type,
    paramNames p ⊆ unescapedNames registry config schema type := by
  intro p hp
  unfold ownParameters at hp
  split at hp
  · rename_i own
    exact paramNames_recipe own p hp
  · obtain ⟨⟨name, property⟩, mem, rfl⟩ := List.mem_map.mp hp
    rw [paramNames_parameterOfSchema quiet_namesIn]
    intro n hn
    exact List.mem_append_right _ (List.mem_flatMap.mpr ⟨_, mem, hn⟩)

section Among

variable {names : List String}
  (declared : declaredNames (generateForType registry now config schema type) ⊆ names)
  (declares : Declares names config (registry.lookup type config.targetScope).kind
    (resourceSymbol type))
include declared declares

theorem declarationNames_generated :
    ∀ d ∈ (generateForType registry now config schema type).declarations,
      declarationNames d ⊆ names ++ unescapedNames registry config schema type := by
  have located (has : (registry.lookup type config.targetScope).supportsLocationAndTags = true) :=
    (located_declared registry now config schema type has).imp (@declared _) (@declared _)
  have whole {r : Resource}
      (reference : namesIn (Value.inQuotes r.typeReference.toList) ⊆
        unescapedNames registry config schema type)
      (body : namesOfBody r.body ⊆ names) :
      declarationNames (.resource r) ⊆ names ++ unescapedNames registry config schema type :=
    List.append_subset.mpr ⟨List.Subset.trans reference (List.subset_append_right _ _),
      List.Subset.trans body (List.subset_append_left _ _)⟩
  intro d hd
  rw [declarations_generateForType] at hd
  rcases List.mem_append.mp hd with hd | hd
  · obtain ⟨r, hr, rfl⟩ := List.mem_map.mp hd
    refine whole ?_ ?_
    · intro n hn
      refine List.mem_append_left _ (List.mem_flatMap.mpr ⟨r.typeReference, ?_, hn⟩)
      exact List.mem_append_left _ (List.mem_map_of_mem hr)
    · obtain ⟨aux, -, made⟩ := List.mem_filterMap.mp hr
      split_ifs at made with machine
      obtain rfl := Option.some.inj made
      rw [machine.2] at declares
      exact bodyNames_networkInterface declares located
  · rw [List.mem_singleton.mp hd]
    refine whole ?_ ?_
    · intro n hn
      refine List.mem_append_left _ (List.mem_flatMap.mpr ⟨_, ?_, hn⟩)
      exact List.mem_append_right _ (List.mem_singleton_self _)
    · refine bodyNames_mainResource declares located fun p hp => ?_
      refine ⟨?_, declared (ownParameters_declared _ _ _ _ _
        (List.mem_map_of_mem (params_derivedOf_subset _ _ _ _ hp)))⟩
      rw [params_derivedOf] at hp
      obtain ⟨q, hq, rfl⟩ := List.mem_map.mp hp
      exact isIdentifier_of_mem_derivedProperties hq

/-- What a generated document refers to is among the names that do for its recipe, or stands in a
hole of what is written between quotes as it is. -/
theorem referredNames_subset_of_declares :
    referredNames (generateForType registry now config schema type) ⊆
      names ++ unescapedNames registry config schema type := by
  have base := List.Subset.trans (baseParameters_declared registry now config schema type) declared
  have weaken {referred : List String} (h : referred ⊆ names) :
      referred ⊆ names ++ unescapedNames registry config schema type :=
    List.Subset.trans h (List.subset_append_left _ _)
  have metadata : ∀ entry ∈ (generateForType registry now config schema type).metadata,
      namesOf (.str entry.2) ⊆ names := by
    intro entry _
    rw [namesOf_str]
    exact List.nil_subset _
  have parameters : ∀ p ∈ (generateForType registry now config schema type).parameters,
      paramNames p ⊆ names ++ unescapedNames registry config schema type := by
    intro p hp
    rw [parameters_generateForType] at hp
    rcases List.mem_append.mp hp with hp | hp
    · exact weaken (paramNames_baseParameters base p hp)
    · exact List.Subset.trans (paramNames_own _ _ _ _ p hp) (List.subset_append_right _ _)
  have vars : ∀ v ∈ (generateForType registry now config schema type).vars,
      namesOf v.value ⊆ names := by
    intro v hv
    rcases List.mem_append.mp hv with hv | hv
    · exact varNames_baseVariables base v hv
    · exact varNames_recipe declares v hv
  have outputs : ∀ o ∈ (generateForType registry now config schema type).outputs,
      outputNames o ⊆ names := by
    intro o ho
    simp only [generateForType] at ho
    split_ifs at ho
    · rcases List.mem_append.mp ho with ho | ho
      · exact outputNames_baseOutputs declares.word declares.main _ o ho
      · exact outputNames_recipe declares o ho
    · cases ho
  rw [referredNames]
  simp only [List.append_subset]
  exact ⟨⟨⟨⟨weaken (flatMap_subset metadata), flatMap_subset parameters⟩,
    weaken (flatMap_subset vars)⟩,
    flatMap_subset (declarationNames_generated _ _ _ _ _ declared declares)⟩,
    weaken (flatMap_subset outputs)⟩

end Among

/-- What a generated document refers to is declared in it, or stands in a hole of what is written
between quotes as it is. -/
theorem referredNames_generateForType_subset (bring : BringInterface registry) :
    referredNames (generateForType registry now config schema type) ⊆
      declaredNames (generateForType registry now config schema type) ++
        unescapedNames registry config schema type :=
  referredNames_subset_of_declares _ _ _ _ _ (List.Subset.refl _)
    (declares_generateForType _ _ _ _ _ bring)

/-- The holes of what is written between quotes as it is are in the document. -/
theorem unescapedNames_subset :
    unescapedNames registry config schema type ⊆
      referredNames (generateForType registry now config schema type) := by
  intro n hn
  rcases List.mem_append.mp hn with hn | hn
  · -- a type with its version
    obtain ⟨reference, mem, hn⟩ := List.mem_flatMap.mp hn
    have declared : ∃ r, Declaration.resource r ∈
        (generateForType registry now config schema type).declarations ∧
          r.typeReference = reference := by
      rw [declarations_generateForType]
      rcases List.mem_append.mp mem with mem | mem
      · obtain ⟨r, hr, same⟩ := List.mem_map.mp mem
        exact ⟨r, List.mem_append_left _ (List.mem_map_of_mem hr), same⟩
      · exact ⟨_, List.mem_append_right _ (List.mem_singleton_self _),
          (List.mem_singleton.mp mem).symm⟩
    obtain ⟨r, hr, rfl⟩ := declared
    refine List.mem_append_left _ (List.mem_append_right _ ?_)
    exact List.mem_flatMap.mpr ⟨_, hr, List.mem_append_left _ hn⟩
  · -- a key in the choices or the default of a derived parameter
    obtain ⟨⟨name, property⟩, mem, hn⟩ := List.mem_flatMap.mp hn
    have own : parameterOfSchema name property ∈ ownParameters registry config schema type := by
      refine params_derivedOf_subset registry config schema type ?_
      rw [params_derivedOf]
      exact List.mem_map.mpr ⟨_, mem, rfl⟩
    refine List.mem_append_left _ (List.mem_append_left _ (List.mem_append_left _
      (List.mem_append_right _ ?_)))
    refine List.mem_flatMap.mpr ⟨parameterOfSchema name property, ?_, ?_⟩
    · rw [parameters_generateForType]
      exact List.mem_append_right _ own
    · rwa [paramNames_parameterOfSchema quiet_namesIn]

end Generated

/-- Every reference of a generated document is declared exactly if those in the holes of its types
and of the object keys from its schema are; any other one is declared in any case. Every reference
of a converted document is declared. -/
theorem referredNames_declared (now : Instant) (config : Configuration) :
    (∀ (registry : Registry) (schema : ResourceSchema) (type : String), BringInterface registry →
      (∀ n ∈ referredNames (generateForType registry now config schema type),
        n ∉ unescapedNames registry config schema type →
        n ∈ declaredNames (generateForType registry now config schema type)) ∧
      (referredNames (generateForType registry now config schema type) ⊆
          declaredNames (generateForType registry now config schema type) ↔
        unescapedNames registry config schema type ⊆
          declaredNames (generateForType registry now config schema type))) ∧
    ∀ (analysis : Analysis) (d : Document),
      convertAnalysis now config analysis = .ok d → referredNames d ⊆ declaredNames d := by
  constructor
  · intro registry schema type bring
    have whole := referredNames_generateForType_subset registry now config schema type bring
    refine ⟨fun n hn other => (List.mem_append.mp (whole hn)).resolve_right other, ?_, ?_⟩
    · exact fun closed => List.Subset.trans (unescapedNames_subset _ _ _ _ _) closed
    · intro closed n hn
      exact (List.mem_append.mp (whole hn)).elim id fun hole => closed hole
  · intro analysis d converted
    obtain rfl : d = Plan.document ⟨config, analysis.vmName⟩ now := by
      unfold convertAnalysis at converted
      split at converted
      · cases converted
      · exact (Except.ok.inj converted).symm
    exact referredNames_document_subset _ now

/-! ## Two documents -/

/-- A schema whose one setting has a default with a hole in a key. -/
def ghostSchema : ResourceSchema :=
  ⟨.obj [("properties", .obj [("teeth", .obj
    [("type", .str "object"), ("default", .obj [("$\x7bghost\x7d", .num (.int 1))])])])]⟩

/-- The key of the default is written as an interpolated one, and nothing declares what it reads. -/
theorem ghost_referred :
    BringInterface .azure ∧
      "ghost" ∈ referredNames (generateForType .azure ⟨0⟩ {} ghostSchema "Acme/gears") ∧
      "ghost" ∉ declaredNames (generateForType .azure ⟨0⟩ {} ghostSchema "Acme/gears") := by
  have hole : "ghost" ∈ unescapedNames .azure {} ghostSchema "Acme/gears" := by decide +kernel
  exact ⟨by decide +kernel, unescapedNames_subset _ _ _ _ _ hole, by decide +kernel⟩

/-- A virtual machine and a machine in a network that exists: nothing is left undeclared. -/
theorem referredNames_declared_machines :
    let machine := generateForType .azure ⟨0⟩ {} ghostSchema Registry.virtualMachineType
    let config := Configuration.withExistingNetwork {} "hub" "edge"
    let analysis := Analysis.ofTemplate ⟨.obj []⟩
    referredNames machine ⊆ declaredNames machine ∧
      ∃ d, convertAnalysis ⟨0⟩ config analysis = .ok d ∧ referredNames d ⊆ declaredNames d := by
  intro machine config analysis
  have bring : BringInterface .azure := by decide +kernel
  have none : unescapedNames .azure {} ghostSchema Registry.virtualMachineType = [] := by
    decide +kernel
  have converted : convertAnalysis ⟨0⟩ config analysis =
      .ok (Plan.document ⟨config, analysis.vmName⟩ ⟨0⟩) := rfl
  constructor
  · refine ((referredNames_declared ⟨0⟩ {}).1 .azure ghostSchema _ bring).2.mpr ?_
    rw [none]
    exact List.nil_subset _
  · exact ⟨_, converted, (referredNames_declared ⟨0⟩ config).2 _ _ converted⟩

end BicepForge.References
