import BicepForge.Proofs.Check.Plans
import BicepForge.Proofs.References.Recipes

/-!
# What converted documents refer to

The declarations of a plan and their uses are switched by conditions in separate places. Under
every combination of the conditions each name that a part of the document refers to is declared.
-/

namespace BicepForge.References

open Bicep Generation Conversion
open Check (forall_mem_onlyIf_iff)

/-- The names are those that a plan declares, and possibly more. -/
structure PlanDeclares (p : Plan) (names : List String) : Prop where
  parameters : ∀ x ∈ p.parameters, x.name ∈ names
  vars : ∀ x ∈ p.vars, x.name ∈ names
  resources : ∀ x ∈ p.resources, x.symbol ∈ names

theorem bodyNames_onlyIf {condition : Bool} {body : Body} {names : List String}
    (h : condition = true → namesOfBody body ⊆ names) :
    namesOfBody (Plan.onlyIf condition body) ⊆ names := by
  cases condition with
  | false => exact List.nil_subset _
  | true => exact h rfl

section Plans

/- Which names a fixed text holds is decided where the text is met. -/
attribute [local irreducible] namesIn quotedNames keyNames

variable {p : Plan} {names : List String}

/-! ## What a plan declares -/

namespace PlanDeclares

theorem machine (h : PlanDeclares p names) :
    ["vmName", "location", "adminUsername", "adminPasswordOrKey", "vmSize", "osType"] ⊆ names := by
  have parameters := h.parameters
  simp only [Plan.parameters, List.forall_mem_append, List.forall_mem_cons] at parameters
  obtain ⟨⟨⟨⟨name, location, -⟩, -⟩, admin, password, size, os, -⟩, -⟩ := parameters
  simp only [List.cons_subset]
  exact ⟨name, location, admin, password, size, os, List.nil_subset _⟩

theorem derivedNames (h : PlanDeclares p names) :
    ["vmNameClean", "networkInterfaceName", "osDiskName"] ⊆ names := by
  have vars := h.vars
  simp only [Plan.vars, List.forall_mem_append, List.forall_mem_cons] at vars
  obtain ⟨⟨⟨⟨⟨⟨clean, -⟩, -⟩, -⟩, interface, disk, -⟩, -⟩, -⟩ := vars
  simp only [List.cons_subset]
  exact ⟨clean, interface, disk, List.nil_subset _⟩

theorem symbols (h : PlanDeclares p names) : ["networkInterface", "virtualMachine"] ⊆ names := by
  have resources := h.resources
  simp only [Plan.resources, List.forall_mem_append, List.forall_mem_cons] at resources
  obtain ⟨-, interface, machine, -⟩ := resources
  simp only [List.cons_subset]
  exact ⟨interface, machine, List.nil_subset _⟩

/-- What is declared for a network that is there already. -/
theorem existing (h : PlanDeclares p names) (mode : p.existing = true) :
    ["existingVnetName", "existingSubnetName", "existingVnet", "existingSubnet"] ⊆ names := by
  have parameters := h.parameters
  have resources := h.resources
  simp only [Plan.parameters, Plan.resources, List.forall_mem_append, List.forall_mem_cons,
    forall_mem_onlyIf_iff, mode, true_implies] at parameters resources
  obtain ⟨⟨⟨-, ⟨vnetName, subnetName, -⟩, -⟩, -⟩, -⟩ := parameters
  obtain ⟨⟨⟨⟨⟨vnet, subnet, -⟩, -⟩, -⟩, -⟩, -⟩ := resources
  simp only [List.cons_subset]
  exact ⟨vnetName, subnetName, vnet, subnet, List.nil_subset _⟩

/-- What is declared for a resource group other than one's own. -/
theorem group (h : PlanDeclares p names) (mode : p.existing = true)
    (other : p.vnetResourceGroup?.isSome = true) : "vnetResourceGroupName" ∈ names := by
  have parameters := h.parameters
  simp only [Plan.parameters, List.forall_mem_append, forall_mem_onlyIf_iff, mode,
    true_implies] at parameters
  obtain ⟨group, some⟩ := Option.isSome_iff_exists.mp other
  exact parameters.1.1.2.2 (Plan.textParam "vnetResourceGroupName"
    "Resource Group containing the VNet" group) (by rw [some]; exact List.mem_singleton_self _)

/-- What is declared for a network of one's own. -/
theorem own (h : PlanDeclares p names) (mode : p.existing = false) :
    ["environment", "virtualNetworkName", "subnetName", "vnetAddressSpace", "subnetAddressSpace",
      "virtualNetwork"] ⊆ names := by
  have parameters := h.parameters
  have vars := h.vars
  have resources := h.resources
  simp only [Plan.parameters, Plan.vars, Plan.resources, List.forall_mem_append,
    List.forall_mem_cons, forall_mem_onlyIf_iff, mode, Bool.not_false, true_implies]
    at parameters vars resources
  obtain ⟨-, environment, -⟩ := parameters
  obtain ⟨⟨⟨⟨-, network, subnet, -⟩, -⟩, -⟩, space, subnetSpace, -⟩ := vars
  obtain ⟨⟨⟨-, virtualNetwork, -⟩, -⟩, -⟩ := resources
  simp only [List.cons_subset]
  exact ⟨environment, network, subnet, space, subnetSpace, virtualNetwork, List.nil_subset _⟩

theorem securityGroup (h : PlanDeclares p names) (included : p.config.includeNsg = true) :
    ["networkSecurityGroupName", "networkSecurityGroup"] ⊆ names := by
  have vars := h.vars
  have resources := h.resources
  simp only [Plan.vars, Plan.resources, List.forall_mem_append, List.forall_mem_cons,
    forall_mem_onlyIf_iff, included, true_implies] at vars resources
  obtain ⟨⟨⟨⟨⟨-, name, -⟩, -⟩, -⟩, -⟩, -⟩ := vars
  obtain ⟨⟨⟨⟨-, symbol, -⟩, -⟩, -⟩, -⟩ := resources
  simp only [List.cons_subset]
  exact ⟨name, symbol, List.nil_subset _⟩

theorem publicAddress (h : PlanDeclares p names) (included : p.config.includePublicIp = true) :
    ["publicIPAddressName", "publicIPAddress"] ⊆ names := by
  have vars := h.vars
  have resources := h.resources
  simp only [Plan.vars, Plan.resources, List.forall_mem_append, List.forall_mem_cons,
    forall_mem_onlyIf_iff, included, true_implies] at vars resources
  obtain ⟨⟨-, name, -⟩, -⟩ := vars
  obtain ⟨⟨-, symbol, -⟩, -⟩ := resources
  simp only [List.cons_subset]
  exact ⟨name, symbol, List.nil_subset _⟩

end PlanDeclares

/-! ## What its parts refer to -/

theorem paramNames_textParam (name description default : String) :
    paramNames (Plan.textParam name description default) ⊆ names := by
  refine paramNames_described ?_
  rintro _ ⟨⟩
  rw [namesOf_str]
  exact List.nil_subset _

theorem paramNames_plan : ∀ x ∈ p.parameters, paramNames x ⊆ names := by
  simp only [Plan.parameters, List.forall_mem_append, List.forall_mem_cons, forall_mem_onlyIf_iff]
  refine ⟨⟨⟨⟨paramNames_textParam _ _ _, paramNames_textParam _ _ _, by simp⟩,
    fun _ => ⟨⟨paramNames_textParam _ _ _, paramNames_textParam _ _ _, by simp⟩, ?_⟩⟩,
    paramNames_textParam _ _ _, paramNames_subset ?_ (by simp [Param.describe, Param.secret,
      Param.decorate]), paramNames_textParam _ _ _, paramNames_choice _ _ _ _, by simp⟩,
    fun _ => ⟨paramNames_textParam _ _ _, by simp⟩⟩
  · intro x hx
    obtain ⟨group, -, rfl⟩ := Option.map_eq_some_iff.mp (Option.mem_toList.mp hx)
    exact paramNames_textParam _ _ _
  · simp only [Param.describe, Param.secret, Param.decorate, List.nil_append, List.cons_append,
      List.forall_mem_cons, decoratorNames, namesOf_str]
    exact ⟨List.nil_subset _, List.nil_subset _, by simp⟩

theorem varNames_nameVariable {name ending : String} (clean : "vmNameClean" ∈ names)
    (he : Inside names ending) : namesOf (Plan.nameVariable name ending).value ⊆ names := by
  show namesOf (.interp (hole "vmNameClean" ++ ending)) ⊆ names
  rw [namesOf]
  exact Inside.quotedNames_subset (.append (.holeName (by decide) clean) he)

theorem varNames_plan (h : PlanDeclares p names) : ∀ v ∈ p.vars, namesOf v.value ⊆ names := by
  have name : "vmName" ∈ names := (List.cons_subset.mp h.machine).1
  have clean : "vmNameClean" ∈ names := (List.cons_subset.mp h.derivedNames).1
  have lower : namesIn ("toLower".toList ++ ['(']) = [] := by decide +kernel
  have replace : namesIn ("replace".toList ++ ['(']) = [] := by decide +kernel
  have text (s : String) : namesOf (.str s) ⊆ names := by
    rw [namesOf_str]
    exact List.nil_subset _
  have machine : namesOf (.call "toLower" [.call "replace" [.expr "vmName", .str " ", .str "-"]]) ⊆
      names := by
    simp only [namesOf, namesOfItems, lower, replace, namesIn_literal, List.nil_append,
      List.append_nil]
    exact ref_lit name rfl
  simp only [Plan.vars, List.forall_mem_append, List.forall_mem_cons, forall_mem_onlyIf_iff]
  exact ⟨⟨⟨⟨⟨⟨machine, by simp⟩, fun _ => ⟨varNames_nameVariable clean (.lit ⟨rfl, rfl⟩), by simp⟩⟩,
    fun _ => ⟨varNames_nameVariable clean (.lit ⟨rfl, rfl⟩), text _, by simp⟩⟩,
    varNames_nameVariable clean (.lit ⟨rfl, rfl⟩), varNames_nameVariable clean (.lit ⟨rfl, rfl⟩),
    by simp⟩,
    fun _ => ⟨varNames_nameVariable clean (.lit ⟨rfl, rfl⟩), by simp⟩⟩,
    fun _ => ⟨text _, text _, by simp⟩⟩

theorem bodyNames_located (h : PlanDeclares p names) {name : String}
    (hn : namesIn name.toList ⊆ names) : namesOfBody (p.located name) ⊆ names := by
  have known := h.machine
  simp only [List.cons_subset] at known
  obtain ⟨-, location, -⟩ := known
  rw [Plan.located, namesOfBody_append, List.append_subset]
  refine ⟨?_, bodyNames_onlyIf fun mode => ?_⟩
  · simp only [namesOf, namesOfBody, namesOfEntry, Entry.ref, List.append_nil, List.append_subset]
    exact ⟨⟨key_lit rfl, hn⟩, key_lit rfl, ref_lit location rfl⟩
  · have environment : "environment" ∈ names :=
      (List.cons_subset.mp (h.own (by simpa using mode))).1
    simp only [namesOf, namesOfBody, namesOfEntry, Entry.ref, Entry.nest, List.append_nil,
      List.append_subset]
    exact ⟨key_lit rfl, key_lit rfl, ref_lit environment rfl⟩

/-- A reference to another resource by its id. -/
theorem bodyNames_idOf {symbol : String} (hs : isWord symbol = true) (mem : symbol ∈ names) :
    namesOfBody (idOf symbol) ⊆ names := by
  simp only [idOf, namesOf, namesOfBody, namesOfEntry, Entry.ref, List.append_nil,
    List.append_subset]
  exact ⟨key_lit rfl, path_subset hs (path_lit rfl) mem⟩

/-- A property with such a reference, where a condition holds. -/
theorem bodyNames_onlyIf_idOf {condition : Bool} {key symbol : String} (hk : keyNames key ⊆ names)
    (hs : isWord symbol = true) (mem : condition = true → symbol ∈ names) :
    namesOfBody (Plan.onlyIf condition [.nest key (idOf symbol)]) ⊆ names := by
  refine bodyNames_onlyIf fun included => ?_
  simp only [namesOf, namesOfBody, namesOfEntry, Entry.nest, List.append_nil, List.append_subset]
  exact ⟨hk, bodyNames_idOf hs (mem included)⟩

theorem bodyNames_existingVnet (h : PlanDeclares p names) (mode : p.existing = true) :
    namesOfBody p.existingVnet.body ⊆ names := by
  have name : "existingVnetName" ∈ names := (List.cons_subset.mp (h.existing mode)).1
  have call : namesIn ("resourceGroup".toList ++ ['(']) = [] := by decide +kernel
  simp only [Plan.existingVnet, namesOfBody_append, List.append_subset]
  refine ⟨?_, bodyNames_onlyIf fun other => ?_⟩
  · simp only [namesOf, namesOfBody, namesOfEntry, Entry.ref, List.append_nil, List.append_subset]
    exact ⟨key_lit rfl, ref_lit name rfl⟩
  · have group := h.group mode other
    simp only [namesOf, namesOfItems, namesOfBody, namesOfEntry, call, List.nil_append,
      List.append_nil, List.append_subset]
    exact ⟨key_lit rfl, ref_lit group rfl⟩

theorem bodyNames_existingSubnet (h : PlanDeclares p names) (mode : p.existing = true) :
    namesOfBody Plan.existingSubnet.body ⊆ names := by
  have known := h.existing mode
  simp only [List.cons_subset] at known
  obtain ⟨-, name, vnet, -⟩ := known
  simp only [Plan.existingSubnet, namesOf, namesOfBody, namesOfEntry, Entry.ref, List.append_nil,
    List.append_subset]
  exact ⟨⟨key_lit rfl, ref_lit vnet rfl⟩, key_lit rfl, ref_lit name rfl⟩

theorem bodyNames_networkSecurityGroup (h : PlanDeclares p names)
    (included : p.config.includeNsg = true) :
    namesOfBody p.networkSecurityGroup.body ⊆ names := by
  have name : "networkSecurityGroupName" ∈ names :=
    (List.cons_subset.mp (h.securityGroup included)).1
  simp only [Plan.networkSecurityGroup, namesOfBody_append, List.append_subset]
  refine ⟨bodyNames_located h (ref_lit name rfl), ?_⟩
  simp only [namesOf, namesOfItems, namesOfBody, namesOfEntry, Entry.lit, Entry.nest,
    namesIn_literal, List.append_nil, List.append_subset]
  and_intros <;> with_reducible exact key_lit rfl

theorem bodyNames_planNetwork (h : PlanDeclares p names) (mode : p.existing = false) :
    namesOfBody p.virtualNetwork.body ⊆ names := by
  have known := h.own mode
  simp only [List.cons_subset] at known
  obtain ⟨-, name, subnet, space, subnetSpace, -⟩ := known
  have group : namesOfBody (Plan.onlyIf p.config.includeNsg
      [.nest "networkSecurityGroup" (idOf "networkSecurityGroup")]) ⊆ names := by
    refine bodyNames_onlyIf_idOf (key_lit rfl) (by decide) fun included => ?_
    have known := h.securityGroup included
    simp only [List.cons_subset] at known
    exact known.2.1
  simp only [Plan.virtualNetwork, namesOfBody_append, List.append_subset]
  refine ⟨bodyNames_located h (ref_lit name rfl), ?_⟩
  simp only [namesOfBody_append, namesOf, namesOfItems, namesOfBody, namesOfEntry, Entry.ref,
    Entry.nest, List.append_nil, List.append_subset]
  and_intros
  any_goals with_reducible first | exact key_lit rfl | exact ref_lit (by assumption) rfl
  exact group

theorem bodyNames_publicIpAddress (h : PlanDeclares p names)
    (included : p.config.includePublicIp = true) : namesOfBody p.publicIpAddress.body ⊆ names := by
  have name : "publicIPAddressName" ∈ names :=
    (List.cons_subset.mp (h.publicAddress included)).1
  have clean : "vmNameClean" ∈ names := (List.cons_subset.mp h.derivedNames).1
  simp only [Plan.publicIpAddress, namesOfBody_append, List.append_subset]
  refine ⟨bodyNames_located h (ref_lit name rfl), ?_⟩
  simp only [namesOf, namesOfBody, namesOfEntry, Entry.ref, Entry.lit, Entry.nest,
    namesIn_literal, List.append_nil, List.append_subset]
  and_intros <;> with_reducible first | exact key_lit rfl | exact ref_lit clean rfl

theorem bodyNames_planInterface (h : PlanDeclares p names) :
    namesOfBody p.networkInterface.body ⊆ names := by
  have known := h.derivedNames
  simp only [List.cons_subset] at known
  obtain ⟨-, name, -⟩ := known
  -- the subnet comes from the network that the plan has
  have subnet : namesIn (if p.existing then "existingSubnet.id"
      else "virtualNetwork.properties.subnets[0].id").toList ⊆ names := by
    split_ifs with mode
    · have known := h.existing mode
      simp only [List.cons_subset] at known
      exact expr_lit known.2.2.2.1 rfl
    · have known := h.own (by simpa using mode)
      simp only [List.cons_subset] at known
      exact expr_lit known.2.2.2.2.2.1 rfl
  have address : namesOfBody (Plan.onlyIf p.config.includePublicIp
      [.nest "publicIPAddress" (idOf "publicIPAddress")]) ⊆ names := by
    refine bodyNames_onlyIf_idOf (key_lit rfl) (by decide) fun included => ?_
    have known := h.publicAddress included
    simp only [List.cons_subset] at known
    exact known.2.1
  have group : namesOfBody (Plan.onlyIf (p.existing && p.config.includeNsg)
      [.nest "networkSecurityGroup" (idOf "networkSecurityGroup")]) ⊆ names := by
    refine bodyNames_onlyIf_idOf (key_lit rfl) (by decide) fun included => ?_
    rw [Bool.and_eq_true] at included
    have known := h.securityGroup included.2
    simp only [List.cons_subset] at known
    exact known.2.1
  simp only [Plan.networkInterface, namesOfBody_append, List.append_subset]
  refine ⟨bodyNames_located h (ref_lit name rfl), ?_⟩
  simp only [namesOfBody_append, namesOf, namesOfItems, namesOfBody, namesOfEntry, Entry.ref,
    Entry.lit, Entry.nest, namesIn_literal, List.append_nil, List.append_subset]
  and_intros
  any_goals with_reducible first | exact key_lit rfl | exact List.nil_subset _ | exact subnet
  · exact address
  · exact group

theorem bodyNames_planMachine (h : PlanDeclares p names) :
    namesOfBody p.virtualMachine.body ⊆ names := by
  have known := h.machine
  have derived := h.derivedNames
  have symbols := h.symbols
  simp only [List.cons_subset] at known derived symbols
  obtain ⟨name, -, admin, password, size, -⟩ := known
  obtain ⟨-, -, disk, -⟩ := derived
  have os : namesOfEntry (if p.linux then
      .nest "linuxConfiguration" [.flag "disablePasswordAuthentication" false]
      else .nest "windowsConfiguration" [.flag "enableAutomaticUpdates" true]) ⊆ names := by
    split_ifs <;>
    · simp only [namesOf, namesOfBody, namesOfEntry, Entry.flag, Entry.nest, List.append_nil,
        List.append_subset]
      exact ⟨key_lit rfl, key_lit rfl⟩
  have diagnostics : namesOfBody (Plan.onlyIf p.config.includeBootDiagnostics
      [.nest "diagnosticsProfile" [.nest "bootDiagnostics" [.flag "enabled" true]]]) ⊆ names := by
    refine bodyNames_onlyIf fun _ => ?_
    simp only [namesOf, namesOfBody, namesOfEntry, Entry.flag, Entry.nest, List.append_nil,
      List.append_subset]
    exact ⟨key_lit rfl, key_lit rfl, key_lit rfl⟩
  have interface : namesOfBody (idOf "networkInterface") ⊆ names :=
    bodyNames_idOf (by decide) symbols.1
  have image : namesOfBody (imageReference p.config.osType) ⊆ names := bodyNames_imageReference _
  simp only [Plan.virtualMachine, namesOfBody_append, List.append_subset]
  refine ⟨bodyNames_located h (ref_lit name rfl), ?_⟩
  simp only [namesOfBody_append, namesOf, namesOfItems, namesOfBody, namesOfEntry, Entry.ref,
    Entry.lit, Entry.nest, namesIn_literal, List.append_nil, List.append_subset]
  and_intros
  any_goals with_reducible first
    | exact key_lit rfl
    | exact ref_lit (by assumption) rfl
    | exact image
    | exact interface
  · exact os
  · exact diagnostics

theorem outputNames_textOutput {name expression : String} (h : namesIn expression.toList ⊆ names) :
    outputNames (Plan.textOutput name expression) ⊆ names := by
  refine outputNames_subset quiet_namesIn ?_
  show namesOf (.expr expression) ⊆ names
  rwa [namesOf]

/-- How to log in names the host by the address that the plan has. -/
theorem namesOf_connectionCommand (h : PlanDeclares p names) :
    namesOf p.connectionCommand ⊆ names := by
  have known := h.machine
  have symbols := h.symbols
  simp only [List.cons_subset] at known symbols
  obtain ⟨-, -, admin, -⟩ := known
  have host : Inside names
      (hole (if p.config.includePublicIp then publicHost else privateAddress)) := by
    split_ifs with included
    · have known := h.publicAddress included
      simp only [List.cons_subset] at known
      show Inside names (hole ("publicIPAddress" ++ ".properties.dnsSettings.fqdn"))
      exact .hole (by decide) (hole_lit rfl) known.2.1
    · show Inside names (hole ("networkInterface" ++
        ".properties.ipConfigurations[0].properties.privateIPAddress"))
      exact .hole (by decide) (hole_lit rfl) symbols.1
  have command {text : String} (ht : Inside names text) : Inside names (if p.linux then
      "ssh " ++ hole "adminUsername" ++ "@" ++ text else "mstsc /v:" ++ text) := by
    split_ifs
    · exact .append (.append (.append (.lit ⟨rfl, rfl⟩) (.holeName (by decide) admin))
        (.lit ⟨rfl, rfl⟩)) ht
    · exact .append (.lit ⟨rfl, rfl⟩) ht
  exact (command host).quotedNames_subset

theorem outputNames_plan (h : PlanDeclares p names) : ∀ o ∈ p.outputs, outputNames o ⊆ names := by
  have symbols := h.symbols
  simp only [List.cons_subset] at symbols
  obtain ⟨interface, machine, -⟩ := symbols
  simp only [Plan.outputs, List.forall_mem_append, List.forall_mem_cons, forall_mem_onlyIf_iff]
  refine ⟨⟨⟨⟨outputNames_textOutput (expr_lit machine rfl),
    outputNames_textOutput (expr_lit machine rfl), by simp⟩, fun mode => ?_⟩, fun included => ?_⟩,
    outputNames_textOutput (expr_lit interface (by decide)),
    outputNames_subset quiet_namesIn (namesOf_connectionCommand h), by simp⟩
  · have known := h.existing mode
    simp only [List.cons_subset] at known
    obtain ⟨-, -, vnet, subnet, -⟩ := known
    exact ⟨outputNames_textOutput (expr_lit vnet rfl), outputNames_textOutput (expr_lit subnet rfl),
      by simp⟩
  · have known := h.publicAddress included
    simp only [List.cons_subset] at known
    exact ⟨outputNames_textOutput (expr_lit known.2.1 rfl), by simp⟩

/-- A type with its version opens no hole. -/
theorem typeNames_eq_nil {r : Resource} (ht : isBare r.type = true)
    (hv : isBare r.apiVersion = true) : namesIn (Value.inQuotes r.typeReference.toList) = [] :=
  namesIn_inQuotes (isBare_append (isBare_append ht (bare_lit rfl)) hv)

theorem declarationNames_plan (h : PlanDeclares p names) :
    ∀ r ∈ p.resources, declarationNames (.resource r) ⊆ names := by
  have whole {r : Resource} (ht : isBare r.type = true) (hv : isBare r.apiVersion = true)
      (body : namesOfBody r.body ⊆ names) : declarationNames (.resource r) ⊆ names := by
    rw [declarationNames, typeNames_eq_nil ht hv, List.nil_append]
    exact body
  simp only [Plan.resources, List.forall_mem_append, List.forall_mem_cons, forall_mem_onlyIf_iff]
  refine ⟨⟨⟨⟨fun mode => ⟨?_, ?_, by simp⟩, fun included => ⟨?_, by simp⟩⟩,
    fun own => ⟨?_, by simp⟩⟩, fun included => ⟨?_, by simp⟩⟩, ?_, ?_, by simp⟩
  · exact whole (bare_lit rfl) (bare_lit rfl) (bodyNames_existingVnet h mode)
  · exact whole (bare_lit rfl) (bare_lit rfl) (bodyNames_existingSubnet h mode)
  · exact whole (bare_lit rfl) (bare_lit rfl) (bodyNames_networkSecurityGroup h included)
  · exact whole (bare_lit rfl) (bare_lit rfl) (bodyNames_planNetwork h (by simpa using own))
  · exact whole (bare_lit rfl) (bare_lit rfl) (bodyNames_publicIpAddress h included)
  · exact whole (bare_lit rfl) (bare_lit rfl) (bodyNames_planInterface h)
  · exact whole (bare_lit rfl) (bare_lit rfl) (bodyNames_planMachine h)

end Plans

/-- A converted document refers to nothing but what it declares. -/
theorem referredNames_document_subset (p : Plan) (now : Instant) :
    referredNames (p.document now) ⊆ declaredNames (p.document now) := by
  have declared : PlanDeclares p (declaredNames (p.document now)) := by
    constructor
    · intro x hx
      exact List.mem_append_left _ (List.mem_append_left _ (List.mem_map_of_mem hx))
    · intro x hx
      exact List.mem_append_left _ (List.mem_append_right _ (List.mem_map_of_mem hx))
    · intro x hx
      refine List.mem_append_right _ (List.mem_map.mpr ⟨.resource x, ?_, rfl⟩)
      exact List.mem_map_of_mem hx
  have metadata : ∀ entry ∈ (p.document now).metadata,
      namesOf (.str entry.2) ⊆ declaredNames (p.document now) := by
    intro entry _
    rw [namesOf_str]
    exact List.nil_subset _
  have declarations : ∀ d ∈ (p.document now).declarations,
      declarationNames d ⊆ declaredNames (p.document now) := by
    intro d hd
    obtain ⟨r, hr, rfl⟩ := List.mem_map.mp hd
    exact declarationNames_plan declared r hr
  simp only [referredNames, List.append_subset]
  exact ⟨⟨⟨⟨flatMap_subset metadata, flatMap_subset paramNames_plan⟩,
    flatMap_subset (varNames_plan declared)⟩, flatMap_subset declarations⟩,
    flatMap_subset (outputNames_plan declared)⟩

end BicepForge.References
