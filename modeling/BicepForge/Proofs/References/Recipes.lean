import BicepForge.Generation.Generator
import BicepForge.Proofs.References.Names

/-!
# What recipes refer to

Every name in the parameters, variables, settings and outputs of a recipe is a name that the
document declares, kind of resource by kind: its own parameters and variables, those that every
document has, and the symbols of the resources.
-/

namespace BicepForge.References

open Bicep Generation

section Recipes

/- Which names a fixed text holds is decided where the text is met. -/
attribute [local irreducible] namesIn quotedNames keyNames

variable {names : List String} {config : Configuration}

/-! ## Parameters -/

theorem paramNames_choice (name description : String) (choices : List String) (default : String) :
    paramNames (choice name description choices default) ⊆ names := by
  refine paramNames_subset ?_ ?_
  · simp only [choice, Param.describe, Param.allow, Param.decorate, Param.withDefault,
      List.nil_append, List.cons_append, List.forall_mem_cons, decoratorNames,
      namesOf_str, namesOfItems_strings]
    exact ⟨List.nil_subset _, List.nil_subset _, by simp⟩
  · rintro _ ⟨⟩
    rw [namesOf_str]
    exact List.nil_subset _

theorem paramNames_switch (name description : String) (default : Bool) :
    paramNames (switch name description default) ⊆ names := by
  refine paramNames_subset ?_ ?_
  · simp only [switch, Param.describe, Param.decorate, Param.withDefault, List.nil_append,
      List.forall_mem_cons, decoratorNames, namesOf_str]
    exact ⟨List.nil_subset _, by simp⟩
  · rintro _ ⟨⟩
    exact List.nil_subset _

theorem paramNames_described {name description : String} {type : Ty} {default : Option Value}
    (h : ∀ v, default = some v → namesOf v ⊆ names) :
    paramNames { name, type, decorators := [.description description], default? := default } ⊆
      names := by
  refine paramNames_subset ?_ h
  simp only [List.forall_mem_cons, decoratorNames, namesOf_str]
  exact ⟨List.nil_subset _, by simp⟩

/-! ## Base declarations -/

theorem paramNames_baseParameters {located : Bool}
    (declared : (baseParameters located config).map (·.name) ⊆ names) :
    ∀ p ∈ baseParameters located config, paramNames p ⊆ names := by
  have name : paramNames { name := "resourceName", type := .string, decorators :=
      [.description "The name of the resource", .minLength 1, .maxLength 80] } ⊆ names := by
    refine paramNames_subset ?_ (by simp)
    simp only [List.forall_mem_cons, decoratorNames, namesOf_str]
    exact ⟨List.nil_subset _, List.nil_subset _, List.nil_subset _, by simp⟩
  cases located with
  | false =>
    simp only [baseParameters, Bool.false_eq_true, if_false, List.append_nil, List.cons_append,
      List.nil_append, List.forall_mem_cons]
    exact ⟨name, paramNames_choice _ _ _ _, by simp⟩
  | true =>
    have known : ["resourceName", "location", "environment", "tags"] ⊆ names := declared
    simp only [List.cons_subset] at known
    obtain ⟨-, -, environment, -⟩ := known
    simp only [baseParameters, if_true, List.cons_append, List.nil_append, List.forall_mem_cons]
    refine ⟨name, paramNames_described ?_, paramNames_choice _ _ _ _, paramNames_described ?_,
      by simp⟩
    · rintro _ ⟨⟩
      unfold defaultLocation
      split
      · rw [namesOf_str]
        exact List.nil_subset _
      · rw [namesOf]
        exact quiet_lit rfl
    · rintro _ ⟨⟩
      simp only [namesOf, namesOfBody, namesOfEntry, Entry.ref, Entry.lit, namesIn_literal,
        List.append_nil, List.append_subset]
      exact ⟨⟨key_lit rfl, ref_lit environment rfl⟩, key_lit rfl, key_lit rfl, quiet_lit rfl⟩

theorem varNames_baseVariables {type : String} {located : Bool}
    (declared : (baseParameters located config).map (·.name) ⊆ names) :
    ∀ v ∈ baseVariables type located, namesOf v.value ⊆ names := by
  have name : "resourceName" ∈ names := declared List.mem_cons_self
  have formatted : namesOf (.expr "toLower(replace(resourceName, ' ', '-'))") ⊆ names := by
    rw [namesOf]
    exact expr_lit name rfl
  cases located with
  | false =>
    simp only [baseVariables, Bool.false_eq_true, if_false, List.append_nil, List.forall_mem_cons]
    exact ⟨formatted, by simp⟩
  | true =>
    have known : ["resourceName", "location", "environment", "tags"] ⊆ names := declared
    simp only [List.cons_subset] at known
    obtain ⟨-, -, -, tags, -⟩ := known
    have call : namesIn ("union".toList ++ ['(']) = [] := by decide +kernel
    simp only [baseVariables, if_true, List.cons_append, List.nil_append, List.forall_mem_cons]
    refine ⟨formatted, ?_, by simp⟩
    simp only [namesOf, namesOfItems, namesOfBody, namesOfEntry, Entry.lit, namesIn_literal, call,
      List.nil_append, List.append_nil, List.append_subset]
    exact ⟨ref_lit tags rfl, key_lit rfl, key_lit rfl⟩

theorem outputNames_path {symbol path name description : String} {type : Ty}
    (hs : isWord symbol = true) (hp : isPath path.toList = true) (mem : symbol ∈ names) :
    outputNames { name, type, value := .expr (symbol ++ path)
                  description? := some description } ⊆ names := by
  refine outputNames_subset quiet_namesIn ?_
  show namesOf (.expr (symbol ++ path)) ⊆ names
  rw [namesOf]
  exact path_subset hs hp mem

theorem outputNames_interp {text name description : String} {type : Ty} (h : Inside names text) :
    outputNames { name, type, value := .interp text, description? := some description } ⊆
      names := by
  refine outputNames_subset quiet_namesIn ?_
  show namesOf (.interp text) ⊆ names
  rw [namesOf]
  exact h.quotedNames_subset

theorem outputNames_baseOutputs {symbol : String} (hs : isWord symbol = true)
    (mem : symbol ∈ names) (located : Bool) :
    ∀ o ∈ baseOutputs symbol located, outputNames o ⊆ names := by
  cases located with
  | false =>
    simp only [baseOutputs, Bool.false_eq_true, if_false, List.append_nil, List.forall_mem_cons]
    exact ⟨outputNames_path hs (path_lit rfl) mem, outputNames_path hs (path_lit rfl) mem, by simp⟩
  | true =>
    simp only [baseOutputs, if_true, List.cons_append, List.nil_append, List.forall_mem_cons]
    exact ⟨outputNames_path hs (path_lit rfl) mem, outputNames_path hs (path_lit rfl) mem,
      outputNames_path hs (path_lit rfl) mem, by simp⟩

/-! ## Virtual networks -/

theorem paramNames_virtualNetwork {parameters : Configuration → List Param}
    (h : virtualNetworkRecipe.parameters? = some parameters) :
    ∀ p ∈ parameters config, paramNames p ⊆ names := by
  obtain rfl := Option.some.inj h
  simp only [List.forall_mem_cons]
  refine ⟨paramNames_described ?_, paramNames_described ?_, paramNames_switch _ _ _,
    paramNames_switch _ _ _, by simp⟩
  · rintro _ ⟨⟩
    rw [Value.strings, namesOf, namesOfItems_strings]
    exact List.nil_subset _
  · rintro _ ⟨⟩
    simp only [namesOf, namesOfItems, namesOfBody, namesOfEntry, Entry.lit, namesIn_literal,
      List.append_nil, List.append_subset]
    exact ⟨key_lit rfl, key_lit rfl, key_lit rfl, key_lit rfl⟩

/-- A reference that may be null is referred to by its condition and its id. -/
theorem namesOf_optionalId {expression : String}
    (hc : namesIn (expression ++ " != null").toList ⊆ names)
    (he : namesIn expression.toList ⊆ names) : namesOf (optionalId expression) ⊆ names := by
  simp only [optionalId, namesOf, namesOfBody, namesOfEntry, Entry.ref, List.append_nil,
    List.append_subset]
  exact ⟨hc, key_lit rfl, he⟩

theorem varNames_virtualNetwork {parameters : Configuration → List Param}
    (h : virtualNetworkRecipe.parameters? = some parameters)
    (declared : (parameters config).map (·.name) ⊆ names) :
    ∀ v ∈ virtualNetworkRecipe.vars, namesOf v.value ⊆ names := by
  obtain rfl := Option.some.inj h
  have known : ["addressSpaces", "subnets", "enableDdosProtection", "enableVmProtection"] ⊆
    names := declared
  simp only [List.cons_subset] at known
  obtain ⟨-, subnets, -⟩ := known
  have bound : "subnet" ∈ namesIn "(subnet, i)".toList ++ names := binding_lit (by decide)
  simp only [virtualNetworkRecipe, List.forall_mem_cons]
  refine ⟨namesOf_forEach_subset (ref_lit subnets rfl) ?_, by simp⟩
  have group : namesOf (optionalId "subnet.networkSecurityGroup") ⊆
      namesIn "(subnet, i)".toList ++ names :=
    namesOf_optionalId (joined_lit bound rfl) (expr_lit bound rfl)
  have table : namesOf (optionalId "subnet.routeTable") ⊆ namesIn "(subnet, i)".toList ++ names :=
    namesOf_optionalId (joined_lit bound rfl) (expr_lit bound rfl)
  simp only [namesOf, namesOfBody, namesOfEntry, Entry.ref, Entry.nest, List.append_nil,
    List.append_subset]
  and_intros <;> with_reducible first | exact key_lit rfl | exact expr_lit bound rfl | assumption

theorem bodyNames_virtualNetwork {symbol : String} {parameters : Configuration → List Param}
    {settings : String → Configuration → Body}
    (h : virtualNetworkRecipe.parameters? = some parameters)
    (hs : virtualNetworkRecipe.settings? = some settings)
    (declared : (parameters config).map (·.name) ⊆ names)
    (vars : virtualNetworkRecipe.vars.map (·.name) ⊆ names) :
    namesOfBody (settings symbol config) ⊆ names := by
  obtain rfl := Option.some.inj h
  obtain rfl := Option.some.inj hs
  have known : ["addressSpaces", "subnets", "enableDdosProtection", "enableVmProtection"] ⊆
    names := declared
  have formatted : ["subnetsFormatted"] ⊆ names := vars
  simp only [List.cons_subset] at known formatted
  obtain ⟨spaces, -, ddos, vm, -⟩ := known
  obtain ⟨subnets, -⟩ := formatted
  simp only [namesOf, namesOfBody, namesOfEntry, Entry.ref, Entry.nest, List.append_nil,
    List.append_subset]
  and_intros <;> with_reducible first | exact key_lit rfl | exact ref_lit (by assumption) rfl

theorem outputNames_virtualNetwork {symbol : String} (hs : isWord symbol = true)
    (mem : symbol ∈ names) : ∀ o ∈ virtualNetworkRecipe.outputs symbol, outputNames o ⊆ names := by
  simp only [virtualNetworkRecipe, List.forall_mem_cons]
  refine ⟨outputNames_path hs (path_lit rfl) mem, outputNames_subset quiet_namesIn ?_, by simp⟩
  have bound : "subnet" ∈ namesIn "(subnet, i)".toList ++ names := binding_lit (by decide)
  refine namesOf_forEach_subset (path_subset hs (path_lit rfl) mem) ?_
  simp only [namesOf, namesOfBody, namesOfEntry, Entry.ref, List.append_nil, List.append_subset]
  and_intros <;> with_reducible first | exact key_lit rfl | exact expr_lit bound rfl

/-! ## Storage accounts -/

theorem paramNames_storageAccount {parameters : Configuration → List Param}
    (h : storageAccountRecipe.parameters? = some parameters) :
    ∀ p ∈ parameters config, paramNames p ⊆ names := by
  obtain rfl := Option.some.inj h
  simp only [List.forall_mem_cons]
  exact ⟨paramNames_choice _ _ _ _, paramNames_choice _ _ _ _, paramNames_choice _ _ _ _,
    paramNames_switch _ _ _, paramNames_switch _ _ _, by simp⟩

theorem varNames_storageAccount (formatted : "resourceNameFormatted" ∈ names) :
    ∀ v ∈ storageAccountRecipe.vars, namesOf v.value ⊆ names := by
  simp only [storageAccountRecipe, List.forall_mem_cons]
  refine ⟨?_, ?_, by simp⟩
  · rw [namesOf]
    exact expr_lit formatted rfl
  · simp only [namesOf, namesOfBody, namesOfEntry, Entry.lit, namesIn_literal, List.append_nil,
      List.append_subset]
    exact ⟨key_lit rfl, key_lit rfl⟩

theorem bodyNames_storageAccount {symbol : String} {parameters : Configuration → List Param}
    {settings : String → Configuration → Body}
    (h : storageAccountRecipe.parameters? = some parameters)
    (hs : storageAccountRecipe.settings? = some settings)
    (declared : (parameters config).map (·.name) ⊆ names)
    (vars : storageAccountRecipe.vars.map (·.name) ⊆ names) :
    namesOfBody (settings symbol config) ⊆ names := by
  obtain rfl := Option.some.inj h
  obtain rfl := Option.some.inj hs
  have known : ["skuName", "kind", "accessTier", "allowBlobPublicAccess",
    "supportsHttpsTrafficOnly"] ⊆ names := declared
  have named : ["storageAccountName", "networkAcls"] ⊆ names := vars
  simp only [List.cons_subset] at known named
  obtain ⟨sku, kind, tier, access, traffic, -⟩ := known
  obtain ⟨-, acls, -⟩ := named
  simp only [encryptedService, namesOf, namesOfBody, namesOfEntry, Entry.ref, Entry.lit, Entry.flag,
    Entry.nest, namesIn_literal, List.append_nil, List.append_subset]
  and_intros <;> with_reducible first | exact key_lit rfl | exact ref_lit (by assumption) rfl

theorem outputNames_storageAccount {symbol : String} (hs : isWord symbol = true)
    (mem : symbol ∈ names) : ∀ o ∈ storageAccountRecipe.outputs symbol, outputNames o ⊆ names := by
  simp only [storageAccountRecipe, List.forall_mem_cons]
  refine ⟨outputNames_path hs (path_lit rfl) mem, outputNames_path hs (path_lit rfl) mem,
    outputNames_interp ?_, by simp⟩
  exact .append (.append (.append (.append (.lit ⟨rfl, rfl⟩) (.hole hs (hole_lit rfl) mem))
    (.lit ⟨rfl, rfl⟩)) (.hole hs (hole_lit rfl) mem)) (.lit ⟨rfl, rfl⟩)

/-! ## Web sites -/

theorem paramNames_webSite {parameters : Configuration → List Param}
    (h : webSiteRecipe.parameters? = some parameters) :
    ∀ p ∈ parameters config, paramNames p ⊆ names := by
  obtain rfl := Option.some.inj h
  simp only [List.forall_mem_cons]
  refine ⟨paramNames_described (by simp), paramNames_described ?_, paramNames_described ?_,
    paramNames_switch _ _ _, paramNames_choice _ _ _ _, by simp⟩
  · rintro _ ⟨⟩
    exact List.nil_subset _
  · rintro _ ⟨⟩
    exact List.nil_subset _

theorem varNames_webSite {parameters : Configuration → List Param}
    (h : webSiteRecipe.parameters? = some parameters)
    (declared : (parameters config).map (·.name) ⊆ names) :
    ∀ v ∈ webSiteRecipe.vars, namesOf v.value ⊆ names := by
  obtain rfl := Option.some.inj h
  have known : ["appServicePlanId", "appSettings", "connectionStrings", "httpsOnly",
    "runtimeStack"] ⊆ names := declared
  simp only [List.cons_subset] at known
  obtain ⟨-, settings, connections, -⟩ := known
  have setting : "setting" ∈ namesIn "setting".toList ++ names := binding_lit (by decide)
  have conn : "conn" ∈ namesIn "conn".toList ++ names := binding_lit (by decide)
  simp only [webSiteRecipe, List.forall_mem_cons]
  refine ⟨namesOf_forEach_subset (ref_lit settings rfl) ?_,
    namesOf_forEach_subset (ref_lit connections rfl) ?_, by simp⟩
  · simp only [namesOf, namesOfBody, namesOfEntry, Entry.ref, List.append_nil, List.append_subset]
    and_intros <;> with_reducible first | exact key_lit rfl | exact expr_lit setting rfl
  · simp only [namesOf, namesOfBody, namesOfEntry, Entry.ref, List.append_nil, List.append_subset]
    and_intros <;> with_reducible first | exact key_lit rfl | exact expr_lit conn rfl

theorem bodyNames_webSite {symbol : String} {parameters : Configuration → List Param}
    {settings : String → Configuration → Body}
    (h : webSiteRecipe.parameters? = some parameters)
    (hs : webSiteRecipe.settings? = some settings)
    (declared : (parameters config).map (·.name) ⊆ names)
    (vars : webSiteRecipe.vars.map (·.name) ⊆ names) :
    namesOfBody (settings symbol config) ⊆ names := by
  obtain rfl := Option.some.inj h
  obtain rfl := Option.some.inj hs
  have known : ["appServicePlanId", "appSettings", "connectionStrings", "httpsOnly",
    "runtimeStack"] ⊆ names := declared
  have formatted : ["appSettingsFormatted", "connectionStringsFormatted"] ⊆ names := vars
  simp only [List.cons_subset] at known formatted
  obtain ⟨plan, -, -, https, stack, -⟩ := known
  obtain ⟨settings, connections, -⟩ := formatted
  simp only [namesOf, namesOfItems, namesOfBody, namesOfEntry, Entry.ref, Entry.lit, Entry.nest,
    namesIn_literal, List.append_nil, List.append_subset]
  and_intros <;> with_reducible first | exact key_lit rfl | exact ref_lit (by assumption) rfl

theorem outputNames_webSite {symbol : String} (hs : isWord symbol = true) (mem : symbol ∈ names) :
    ∀ o ∈ webSiteRecipe.outputs symbol, outputNames o ⊆ names := by
  simp only [webSiteRecipe, List.forall_mem_cons]
  exact ⟨outputNames_path hs (path_lit rfl) mem, outputNames_path hs (path_lit rfl) mem,
    outputNames_interp (.append (.lit ⟨rfl, rfl⟩) (.hole hs (hole_lit rfl) mem)), by simp⟩

/-! ## Virtual machines -/

theorem bodyNames_imageReference (os : OsType) : namesOfBody (imageReference os) ⊆ names := by
  cases os <;>
  · simp only [imageReference, namesOf, namesOfBody, namesOfEntry, Entry.lit, namesIn_literal,
      List.append_nil, List.append_subset]
    and_intros <;> exact key_lit rfl

theorem paramNames_virtualMachine {parameters : Configuration → List Param}
    (h : virtualMachineRecipe.parameters? = some parameters) :
    ∀ p ∈ parameters config, paramNames p ⊆ names := by
  obtain rfl := Option.some.inj h
  simp only [List.forall_mem_cons]
  refine ⟨paramNames_choice _ _ _ _, paramNames_subset ?_ ?_, paramNames_subset ?_ (by simp),
    paramNames_choice _ _ _ _, paramNames_choice _ _ _ _, paramNames_described (by simp),
    paramNames_switch _ _ _, paramNames_described ?_, by simp⟩
  · simp only [List.forall_mem_cons, decoratorNames, namesOf_str]
    exact ⟨List.nil_subset _, List.nil_subset _, List.nil_subset _, by simp⟩
  · rintro _ ⟨⟩
    rw [namesOf_str]
    exact List.nil_subset _
  · simp only [List.forall_mem_cons, decoratorNames, namesOf_str]
    exact ⟨List.nil_subset _, List.nil_subset _, List.nil_subset _, by simp⟩
  · rintro _ ⟨⟩
    exact bodyNames_imageReference config.osType

/-- The settings of one operating system refer to the parameter that names it. -/
theorem namesOf_settingsFor {os : OsType} {body : Body} (declared : "osType" ∈ names)
    (h : namesOfBody body ⊆ names) : namesOf (settingsFor os body) ⊆ names := by
  have condition : namesIn ("osType == '" ++ os.name ++ "'").toList = ["osType"] := by
    cases os <;> decide +kernel
  rw [settingsFor, namesOf, condition, namesOf, namesOf, List.append_nil]
  exact List.append_subset.mpr ⟨List.cons_subset.mpr ⟨declared, List.nil_subset _⟩, h⟩

theorem namesOf_windowsSettings (declared : "osType" ∈ names) :
    namesOf (settingsFor .windows
      [.flag "enableAutomaticUpdates" true, .flag "provisionVMAgent" true,
       .nest "patchSettings" [.lit "patchMode" "AutomaticByOS"]]) ⊆ names := by
  refine namesOf_settingsFor declared ?_
  simp only [namesOf, namesOfBody, namesOfEntry, Entry.flag, Entry.lit, Entry.nest,
    namesIn_literal, List.append_nil, List.append_subset]
  and_intros <;> exact key_lit rfl

theorem namesOf_linuxSettings (declared : "osType" ∈ names) :
    namesOf (settingsFor .linux
      [.flag "disablePasswordAuthentication" false, .flag "provisionVMAgent" true]) ⊆ names := by
  refine namesOf_settingsFor declared ?_
  simp only [namesOf, namesOfBody, namesOfEntry, Entry.flag, List.append_nil, List.append_subset]
  and_intros <;> exact key_lit rfl

theorem bodyNames_diagnostics (included : Bool) :
    namesOfBody (Body.onlyIf included
      [.nest "diagnosticsProfile" [.nest "bootDiagnostics" [.flag "enabled" true]]]) ⊆ names := by
  unfold Body.onlyIf
  split_ifs
  · simp only [namesOf, namesOfBody, namesOfEntry, Entry.flag, Entry.nest, List.append_nil,
      List.append_subset]
    and_intros <;> exact key_lit rfl
  · exact List.nil_subset _

theorem bodyNames_virtualMachine {symbol : String} {parameters : Configuration → List Param}
    {settings : String → Configuration → Body}
    (h : virtualMachineRecipe.parameters? = some parameters)
    (hs : virtualMachineRecipe.settings? = some settings)
    (declared : (parameters config).map (·.name) ⊆ names)
    (formatted : "resourceNameFormatted" ∈ names)
    (word : isWord (networkInterfaceSymbol symbol) = true)
    (interface : networkInterfaceSymbol symbol ∈ names) :
    namesOfBody (settings symbol config) ⊆ names := by
  obtain rfl := Option.some.inj h
  obtain rfl := Option.some.inj hs
  have known : ["vmSize", "adminUsername", "adminPassword", "osType", "osDiskType", "subnetId",
    "enableAcceleratedNetworking", "imageReference"] ⊆ names := declared
  simp only [List.cons_subset] at known
  obtain ⟨size, user, password, os, disk, -, -, image, -⟩ := known
  have diskName : quotedNames (hole "resourceNameFormatted" ++ "-osdisk") ⊆ names :=
    Inside.quotedNames_subset (.append (.holeName (by decide) formatted) (.lit ⟨rfl, rfl⟩))
  simp only [virtualMachineSettings, namesOfBody_append, namesOf, namesOfItems, namesOfBody,
    namesOfEntry, Entry.ref, Entry.lit, Entry.flag, Entry.nest, namesIn_literal, List.append_nil,
    List.append_subset]
  and_intros
  any_goals with_reducible first
    | exact key_lit rfl
    | exact ref_lit (by assumption) rfl
    | exact expr_lit formatted rfl
    | exact path_subset word (path_lit rfl) interface
    | exact diskName
  · exact namesOf_windowsSettings os
  · exact namesOf_linuxSettings os
  · exact bodyNames_diagnostics config.includeBootDiagnostics

theorem outputNames_virtualMachine {symbol : String} (hs : isWord symbol = true)
    (mem : symbol ∈ names) (word : isWord (networkInterfaceSymbol symbol) = true)
    (interface : networkInterfaceSymbol symbol ∈ names) (os : "osType" ∈ names) :
    ∀ o ∈ virtualMachineRecipe.outputs symbol, outputNames o ⊆ names := by
  simp only [virtualMachineRecipe, List.forall_mem_cons]
  refine ⟨outputNames_path word (path_lit rfl) interface,
    outputNames_path word (path_lit rfl) interface,
    outputNames_path hs (path_lit rfl) mem, outputNames_subset quiet_namesIn ?_,
    outputNames_path hs (path_lit rfl) mem,
    by simp⟩
  show namesOf (.expr "osType") ⊆ names
  rw [namesOf]
  exact ref_lit os rfl

/-! ## All kinds -/

theorem paramNames_recipe {kind : ResourceKind} {parameters : Configuration → List Param}
    (h : (recipe kind).parameters? = some parameters) :
    ∀ p ∈ parameters config, paramNames p ⊆ names := by
  cases kind with
  | virtualNetwork => exact paramNames_virtualNetwork h
  | storageAccount => exact paramNames_storageAccount h
  | webSite => exact paramNames_webSite h
  | virtualMachine => exact paramNames_virtualMachine h
  | nestedDeployment => cases h
  | generic => cases h

/-- What a document declares for a recipe: a formatted name, the parameters and the variables of
the recipe, and the symbols of its resources. -/
structure Declares (names : List String) (config : Configuration) (kind : ResourceKind)
    (symbol : String) : Prop where
  word : isWord symbol = true
  main : symbol ∈ names
  formatted : "resourceNameFormatted" ∈ names
  parameters : ∀ parameters, (recipe kind).parameters? = some parameters →
    (parameters config).map (·.name) ⊆ names
  vars : (recipe kind).vars.map (·.name) ⊆ names
  interface : kind = .virtualMachine → networkInterfaceSymbol symbol ∈ names

theorem isWord_append {s t : String} (hs : isWord s = true) (ht : isWord t = true) :
    isWord (s ++ t) = true := by
  rw [isWord, String.toList_append, List.all_append, Bool.and_eq_true]
  exact ⟨hs, ht⟩

theorem isWord_networkInterfaceSymbol {symbol : String} (h : isWord symbol = true) :
    isWord (networkInterfaceSymbol symbol) = true :=
  isWord_append h (by decide)

section Declares

variable {kind : ResourceKind} {symbol : String}

theorem varNames_recipe (h : Declares names config kind symbol) :
    ∀ v ∈ (recipe kind).vars, namesOf v.value ⊆ names := by
  cases kind with
  | virtualNetwork => exact varNames_virtualNetwork rfl (h.parameters _ rfl)
  | storageAccount => exact varNames_storageAccount h.formatted
  | webSite => exact @varNames_webSite names config _ rfl (h.parameters _ rfl)
  | virtualMachine => simp [recipe, virtualMachineRecipe]
  | nestedDeployment => simp [recipe]
  | generic => simp [recipe]

theorem bodyNames_recipe (h : Declares names config kind symbol)
    {settings : String → Configuration → Body} (own : (recipe kind).settings? = some settings) :
    namesOfBody (settings symbol config) ⊆ names := by
  cases kind with
  | virtualNetwork => exact bodyNames_virtualNetwork rfl own (h.parameters _ rfl) h.vars
  | storageAccount => exact bodyNames_storageAccount rfl own (h.parameters _ rfl) h.vars
  | webSite => exact bodyNames_webSite rfl own (h.parameters _ rfl) h.vars
  | virtualMachine =>
    exact bodyNames_virtualMachine rfl own (h.parameters _ rfl) h.formatted
      (isWord_networkInterfaceSymbol h.word) (h.interface rfl)
  | nestedDeployment =>
    obtain rfl := Option.some.inj own
    -- the one key that is no name
    have schema : keyNames "$schema" = [] := by decide +kernel
    simp only [nestedDeploymentSettings, templateSchemaUri, namesOf, namesOfItems, namesOfBody,
      namesOfEntry, Entry.nest, Entry.lit, namesIn_literal, schema, List.append_nil,
      List.append_subset]
    and_intros <;> with_reducible first | exact key_lit rfl | exact List.nil_subset _
  | generic => cases own

theorem outputNames_recipe (h : Declares names config kind symbol) :
    ∀ o ∈ (recipe kind).outputs symbol, outputNames o ⊆ names := by
  cases kind with
  | virtualNetwork => exact outputNames_virtualNetwork h.word h.main
  | storageAccount => exact outputNames_storageAccount h.word h.main
  | webSite => exact outputNames_webSite h.word h.main
  | virtualMachine =>
    have known : ["vmSize", "adminUsername", "adminPassword", "osType", "osDiskType", "subnetId",
      "enableAcceleratedNetworking", "imageReference"] ⊆ names := h.parameters _ rfl
    simp only [List.cons_subset] at known
    exact outputNames_virtualMachine h.word h.main (isWord_networkInterfaceSymbol h.word)
      (h.interface rfl) known.2.2.2.1
  | nestedDeployment => simp [recipe]
  | generic => simp [recipe]

end Declares

/-! ## Resources -/

/-- Name, location and tags; the last two only where the document has them. -/
theorem bodyNames_identity {name : Value} {located : Bool} (hn : namesOf name ⊆ names)
    (hl : located = true → "location" ∈ names ∧ "commonTags" ∈ names) :
    namesOfBody (identity name located) ⊆ names := by
  cases located with
  | false =>
    simp only [identity, Body.onlyIf, Bool.false_eq_true, if_false, namesOfBody, namesOfEntry,
      List.append_nil, List.append_subset]
    exact ⟨key_lit rfl, hn⟩
  | true =>
    obtain ⟨location, tags⟩ := hl rfl
    simp only [identity, Body.onlyIf, if_true, Entry.ref, namesOf, namesOfBody, namesOfEntry,
      List.append_nil, List.append_subset]
    exact ⟨⟨key_lit rfl, hn⟩, ⟨key_lit rfl, ref_lit location rfl⟩, key_lit rfl, ref_lit tags rfl⟩

theorem bodyNames_networkInterface {symbol version : String} {located : Bool}
    (h : Declares names config .virtualMachine symbol)
    (hl : located = true → "location" ∈ names ∧ "commonTags" ∈ names) :
    namesOfBody (networkInterface symbol version located).body ⊆ names := by
  have known : ["vmSize", "adminUsername", "adminPassword", "osType", "osDiskType", "subnetId",
    "enableAcceleratedNetworking", "imageReference"] ⊆ names := h.parameters _ rfl
  simp only [List.cons_subset] at known
  obtain ⟨-, -, -, -, -, subnet, accelerated, -⟩ := known
  have name : namesOf (.interp (hole "resourceNameFormatted" ++ "-nic")) ⊆ names := by
    rw [namesOf]
    exact Inside.quotedNames_subset (.append (.holeName (by decide) h.formatted) (.lit ⟨rfl, rfl⟩))
  simp only [networkInterface, namesOfBody_append, List.append_subset]
  refine ⟨bodyNames_identity name hl, ?_⟩
  simp only [namesOf, namesOfItems, namesOfBody, namesOfEntry, Entry.ref, Entry.lit, Entry.nest,
    namesIn_literal, List.append_nil, List.append_subset]
  and_intros <;> with_reducible first | exact key_lit rfl | exact ref_lit (by assumption) rfl

/-- Parameters that are bound to properties of their own names. -/
theorem bodyNames_bindings {params : List Param}
    (h : ∀ p ∈ params, Value.isIdentifier p.name = true ∧ p.name ∈ names) :
    namesOfBody (bindings params) ⊆ names := by
  induction params with
  | nil => exact List.nil_subset _
  | cons p params ih =>
    obtain ⟨name, mem⟩ := h p (by simp)
    have key : keyNames p.name = [] := by
      unfold keyNames
      rw [if_pos name]
    show namesOfBody (.ref p.name p.name :: bindings params) ⊆ names
    rw [namesOfBody, Entry.ref, namesOfEntry, key, List.nil_append, namesOf, List.append_subset]
    refine ⟨?_, ih fun q hq => h q (List.mem_cons_of_mem _ hq)⟩
    exact List.Subset.trans (namesIn_word (isWord_of_isIdentifier name))
      (List.cons_subset.mpr ⟨mem, List.nil_subset _⟩)

theorem bodyNames_genericSettings {type : String} {derived : DerivedParameters}
    (h : ∀ p ∈ derived.params, Value.isIdentifier p.name = true ∧ p.name ∈ names) :
    namesOfBody (genericSettings type derived) ⊆ names := by
  have bound := bodyNames_bindings h
  have open_ : namesOfBody (placeholder type) = [] := rfl
  unfold genericSettings
  split_ifs
  · simp only [Entry.nest, namesOf, namesOfBody, namesOfEntry, List.append_nil,
      List.append_subset]
    exact ⟨key_lit rfl, bound⟩
  · simp only [namesOfBody_append, Entry.nest, namesOf, namesOfBody, namesOfEntry, open_,
      List.append_nil, List.append_subset]
    exact ⟨bound, key_lit rfl⟩

theorem bodyNames_mainResource {info : ResourceTypeInfo} {symbol version : String}
    {derived : DerivedParameters} (h : Declares names config info.kind symbol)
    (hl : info.supportsLocationAndTags = true → "location" ∈ names ∧ "commonTags" ∈ names)
    (params : ∀ p ∈ derived.params, Value.isIdentifier p.name = true ∧ p.name ∈ names) :
    namesOfBody (mainResource config info symbol version derived).body ⊆ names := by
  have name : namesOf (.expr (nameVariable info.kind)) ⊆ names := by
    rw [namesOf]
    have vars := h.vars
    cases kind : info.kind with
    | storageAccount =>
      have named : ["storageAccountName", "networkAcls"] ⊆ names := by
        rw [kind] at vars
        exact vars
      exact ref_lit (List.cons_subset.mp named).1 rfl
    | _ => exact ref_lit h.formatted rfl
  simp only [mainResource, namesOfBody_append, List.append_subset]
  refine ⟨bodyNames_identity name hl, ?_⟩
  cases own : (recipe info.kind).settings? with
  | some settings => exact bodyNames_recipe h own
  | none => exact bodyNames_genericSettings params

end Recipes

end BicepForge.References
