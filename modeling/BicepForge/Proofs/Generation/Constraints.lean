import BicepForge.Proofs.Bicep.Denotation
import BicepForge.Proofs.Generation.Derived

/-!
# Defaults within their own constraints

A parameter may say which values it takes and how long they are, and what it takes by default. The
parameters that every document begins with, and those of the recipes, keep to what they say
themselves whatever a user has configured. Two of a virtual machine do not: the size and the name of
the administrator are taken over as they are configured, while their constraints stay the same.
-/

namespace BicepForge

namespace Bicep

/-- How long a value is: a text by its characters, an array by its items. -/
def Value.length? : Value → Option Nat
  | .str s | .interp s => some s.length
  | .array items => some items.length
  | .expr _ | .bool _ | .int _ | .null | .object _ | .call _ _ | .forEach _ _ _
  | .conditional _ _ _ => none

/-- Whether a decorator lets a parameter have a value. Bounds on a length want something that has
one, and bounds on a value want an integer. -/
def Decorator.Admits (v : Value) : Decorator → Prop
  | .allowed values => v ∈ values
  | .minLength bound => ∃ n, v.length? = some n ∧ bound ≤ n
  | .maxLength bound => ∃ n, v.length? = some n ∧ n ≤ bound
  | .minValue bound => ∃ i, v = .int i ∧ bound ≤ i
  | .maxValue bound => ∃ i, v = .int i ∧ i ≤ bound
  | .description _ | .secure | .note _ => True

namespace Param

/-- Whether a parameter may have its own default, as far as that is known ahead of a deployment. -/
def IsConsistent (p : Param) : Prop :=
  ∀ v, p.default? = some v → v.isLiteral = true → ∀ d ∈ p.decorators, d.Admits v

theorem isConsistent_of_none {p : Param} (h : p.default? = none) : p.IsConsistent := by
  intro v own
  rw [h] at own
  cases own

/-- A default that is a text is known ahead of a deployment. -/
theorem isConsistent_str_iff {p : Param} {text : String} (h : p.default? = some (.str text)) :
    p.IsConsistent ↔ ∀ d ∈ p.decorators, d.Admits (.str text) := by
  constructor
  · exact fun consistent => consistent _ h rfl
  · intro admitted v own _
    obtain rfl := Option.some.inj (h.symm.trans own)
    exact admitted

theorem isConsistent_described (name description : String) (type : Ty) (default? : Option Value) :
    IsConsistent { name, type, decorators := [.description description], default? } := by
  intro v _ _ d mem
  rw [List.mem_singleton.mp mem]
  trivial

end Param

end Bicep

namespace Generation

open Bicep

/-! ## The forms of parameters -/

theorem isConsistent_choice_iff {name description default : String} {choices : List String} :
    (choice name description choices default).IsConsistent ↔ default ∈ choices := by
  have decorators : (choice name description choices default).decorators =
      [.description description, .allowed (choices.map .str)] := rfl
  rw [Param.isConsistent_str_iff rfl, decorators]
  simp [Decorator.Admits]

theorem isConsistent_switch (name description : String) (default : Bool) :
    (switch name description default).IsConsistent :=
  Param.isConsistent_described name description .bool (some (.bool default))

/-- A text between bounds on its length. -/
theorem isConsistent_bounded_iff (name description : String) (least greatest : Nat)
    (text : String) :
    Param.IsConsistent
      { name, type := .string
        decorators := [.description description, .minLength least, .maxLength greatest]
        default? := some (.str text) } ↔
      least ≤ text.length ∧ text.length ≤ greatest := by
  rw [Param.isConsistent_str_iff rfl]
  simp [Decorator.Admits, Value.length?]

/-! ## What is configured freely -/

/-- The sizes that a virtual machine can have. -/
def machineSizes : List String :=
  ["Standard_B1s", "Standard_B1ms", "Standard_B2s", "Standard_B2ms", "Standard_D2s_v3",
   "Standard_D4s_v3", "Standard_D8s_v3"]

/-- Whether a configuration keeps to the constraints of a virtual machine's parameter: only the size
and the name of the administrator are configured freely. -/
structure Suits (config : Configuration) (name : String) : Prop where
  size : name = "vmSize" → config.vmSize ∈ machineSizes
  admin : name = "adminUsername" →
    3 ≤ config.adminUsername.length ∧ config.adminUsername.length ≤ 20

section Tables

variable {config : Configuration}

theorem suits_vmSize_iff : Suits config "vmSize" ↔ config.vmSize ∈ machineSizes :=
  ⟨fun suits => suits.size rfl, fun known => ⟨fun _ => known, fun other => absurd other (by decide)⟩⟩

theorem suits_adminUsername_iff :
    Suits config "adminUsername" ↔
      3 ≤ config.adminUsername.length ∧ config.adminUsername.length ≤ 20 :=
  ⟨fun suits => suits.admin rfl, fun fits => ⟨fun other => absurd other (by decide), fun _ => fits⟩⟩

theorem suits_of_notMem (name : String) (other : name ∉ ["vmSize", "adminUsername"]) :
    Suits config name := by
  simp only [List.mem_cons, List.not_mem_nil, or_false, not_or] at other
  exact ⟨fun size => absurd size other.1, fun admin => absurd admin other.2⟩

/-! ## The parameters that every document begins with -/

theorem defaultEnvironment_mem (config : Configuration) :
    defaultEnvironment config ∈ environments := by
  unfold defaultEnvironment
  split_ifs with known
  · exact known
  · decide

/-- What every document begins with is consistent, and nothing that is configured freely decides over
it. -/
theorem baseParameters_spec (located : Bool) :
    ∀ p ∈ baseParameters located config, p.IsConsistent ∧ Suits config p.name := by
  have name : Param.IsConsistent
      { name := "resourceName", type := .string
        decorators := [.description "The name of the resource", .minLength 1, .maxLength 80] } :=
    Param.isConsistent_of_none rfl
  have environment : (choice "environment" "Environment name (e.g., dev, test, prod)"
      environments (defaultEnvironment config)).IsConsistent :=
    isConsistent_choice_iff.mpr (defaultEnvironment_mem config)
  cases located with
  | false =>
    simp only [baseParameters, Bool.false_eq_true, if_false, List.append_nil, List.cons_append,
      List.nil_append, List.forall_mem_cons]
    exact ⟨⟨name, suits_of_notMem "resourceName" (by decide)⟩,
      ⟨environment, suits_of_notMem "environment" (by decide)⟩, by simp⟩
  | true =>
    simp only [baseParameters, if_true, List.cons_append, List.nil_append, List.forall_mem_cons]
    exact ⟨⟨name, suits_of_notMem "resourceName" (by decide)⟩,
      ⟨Param.isConsistent_described _ _ _ _, suits_of_notMem "location" (by decide)⟩,
      ⟨environment, suits_of_notMem "environment" (by decide)⟩,
      ⟨Param.isConsistent_described _ _ _ _, suits_of_notMem "tags" (by decide)⟩, by simp⟩

/-! ## The parameters of the recipes -/

theorem isConsistent_recipe {kind : ResourceKind} (other : kind ≠ .virtualMachine)
    {parameters : Configuration → List Param} (h : (recipe kind).parameters? = some parameters) :
    ∀ p ∈ parameters config, p.IsConsistent := by
  cases kind with
  | virtualNetwork =>
    obtain rfl := Option.some.inj h
    simp only [List.forall_mem_cons]
    exact ⟨Param.isConsistent_described _ _ _ _, Param.isConsistent_described _ _ _ _,
      isConsistent_switch _ _ _, isConsistent_switch _ _ _, by simp⟩
  | storageAccount =>
    obtain rfl := Option.some.inj h
    simp only [List.forall_mem_cons]
    exact ⟨isConsistent_choice_iff.mpr (by decide), isConsistent_choice_iff.mpr (by decide),
      isConsistent_choice_iff.mpr (by decide), isConsistent_switch _ _ _, isConsistent_switch _ _ _,
      by simp⟩
  | webSite =>
    obtain rfl := Option.some.inj h
    simp only [List.forall_mem_cons]
    exact ⟨Param.isConsistent_of_none rfl, Param.isConsistent_described _ _ _ _,
      Param.isConsistent_described _ _ _ _, isConsistent_switch _ _ _,
      isConsistent_choice_iff.mpr (by decide), by simp⟩
  | virtualMachine => exact absurd rfl other
  | nestedDeployment => cases h
  | generic => cases h

/-- The two parameters whose defaults are configured freely are consistent as far as what is
configured suits them, the others in any case. -/
theorem isConsistent_virtualMachine_iff {parameters : Configuration → List Param}
    (h : virtualMachineRecipe.parameters? = some parameters) :
    ∀ p ∈ parameters config, (p.IsConsistent ↔ Suits config p.name) := by
  obtain rfl := Option.some.inj h
  have os : config.osType.name ∈ ["Windows", "Linux"] := by
    cases config.osType <;> decide
  simp only [List.forall_mem_cons]
  refine ⟨?size, ?admin, ?password, ?os, ?disk, ?subnet, ?network, ?image, by simp⟩
  case size =>
    rw [isConsistent_choice_iff]
    exact suits_vmSize_iff.symm
  case admin =>
    rw [isConsistent_bounded_iff]
    exact suits_adminUsername_iff.symm
  case password =>
    exact iff_of_true (Param.isConsistent_of_none rfl)
      (suits_of_notMem "adminPassword" (by decide))
  case os =>
    exact iff_of_true (isConsistent_choice_iff.mpr os) (suits_of_notMem "osType" (by decide))
  case disk =>
    exact iff_of_true (isConsistent_choice_iff.mpr (by decide))
      (suits_of_notMem "osDiskType" (by decide))
  case subnet =>
    exact iff_of_true (Param.isConsistent_of_none rfl) (suits_of_notMem "subnetId" (by decide))
  case network =>
    exact iff_of_true (isConsistent_switch _ _ _)
      (suits_of_notMem "enableAcceleratedNetworking" (by decide))
  case image =>
    exact iff_of_true (Param.isConsistent_described _ _ _ _)
      (suits_of_notMem "imageReference" (by decide))

end Tables

/-! ## Documents -/

/-- The parameters that no schema has a part in: those that every document begins with, and those of
the recipe. -/
def tableParameters (registry : Registry) (config : Configuration) (type : String) : List Param :=
  let info := registry.lookup type config.targetScope
  baseParameters info.supportsLocationAndTags config ++
    ((recipe info.kind).parameters?.map fun parameters => parameters config).getD []

/-- A document has the parameters of the tables and then those that are derived from the schema. -/
theorem parameters_eq_tableParameters_append (registry : Registry) (now : Instant)
    (config : Configuration) (schema : ResourceSchema) (type : String) :
    (generateForType registry now config schema type).parameters =
      tableParameters registry config type ++
        (derivedProperties registry config schema type).map fun p => parameterOfSchema p.1 p.2 := by
  rw [parameters_generateForType, tableParameters, List.append_assoc]
  congr 1
  unfold ownParameters derivedProperties
  cases (recipe (registry.lookup type config.targetScope).kind).parameters? with
  | some parameters => exact (List.append_nil _).symm
  | none => rfl

/-- The parameters of a document that come from the tables may have their own defaults, for every
configuration, if the document is for no virtual machine. Of a virtual machine, those for its size
and for the name of its administrator may have theirs exactly if what is configured keeps to the
constraints, and all others may. -/
theorem generateForType_consistent (registry : Registry) (now : Instant) (config : Configuration)
    (schema : ResourceSchema) (type : String) :
    (generateForType registry now config schema type).parameters =
        tableParameters registry config type ++
          (derivedProperties registry config schema type).map
            (fun p => parameterOfSchema p.1 p.2) ∧
      ∀ p ∈ tableParameters registry config type, (p.IsConsistent ↔
        ((registry.lookup type config.targetScope).kind = .virtualMachine →
          Suits config p.name)) := by
  refine ⟨parameters_eq_tableParameters_append registry now config schema type, ?_⟩
  intro p mem
  rcases List.mem_append.mp mem with base | own
  · obtain ⟨consistent, suits⟩ := baseParameters_spec _ p base
    exact iff_of_true consistent fun _ => suits
  · generalize (registry.lookup type config.targetScope).kind = kind at own ⊢
    cases table : (recipe kind).parameters? with
    | none =>
      rw [table] at own
      cases own
    | some parameters =>
      rw [table] at own
      by_cases machine : kind = .virtualMachine
      · subst machine
        rw [isConsistent_virtualMachine_iff table p own]
        exact ⟨fun suits _ => suits, fun suits => suits rfl⟩
      · exact iff_of_true (isConsistent_recipe machine table p own)
          fun same => absurd same machine

/-- A size that is configured becomes the default, though it is none of those to choose from. -/
theorem unlisted_size_is_default :
    let config : Configuration := { vmSize := "Standard_E64" }
    let type := "Microsoft.Compute/virtualMachines"
    ∃ p ∈ tableParameters .azure config type,
      p ∈ (generateForType .azure ⟨0⟩ config ⟨.obj []⟩ type).parameters ∧
        p.default? = some (.str "Standard_E64") ∧
        .allowed (machineSizes.map .str) ∈ p.decorators ∧ ¬ p.IsConsistent := by
  intro config type
  have machine : (Registry.azure.lookup type config.targetScope).kind = .virtualMachine := by
    decide +kernel
  have mem : choice "vmSize" "Virtual machine size" machineSizes "Standard_E64" ∈
      tableParameters .azure config type := by
    rw [tableParameters, machine]
    exact List.mem_append_right _ List.mem_cons_self
  refine ⟨_, mem, ?_, rfl, List.mem_append_right _ List.mem_cons_self, ?_⟩
  · rw [parameters_eq_tableParameters_append]
    exact List.mem_append_left _ mem
  · rw [isConsistent_choice_iff]
    decide

end Generation

end BicepForge
