import BicepForge.Conversion.Session
import BicepForge.Proofs.Check.Recipes

/-!
# Plans write tame declarations

A plan puts its declarations together under conditions. Each of them is tame under every plan,
whatever the conditions are, if the strings that come from the configuration are clean.
-/

namespace BicepForge.Check

open Bicep Generation Conversion

/-- The strings that reach a converted document. -/
def convertedTexts (config : Configuration) (vmName : String) : List String :=
  let plan : Plan := ⟨config, vmName⟩
  [vmName, config.conversionLocation, config.adminUsername, config.vmSize] ++
    if plan.existing then
      [config.existingVnetName?.getD "", config.existingSubnetName?.getD ""] ++
        plan.vnetResourceGroup?.toList
    else [config.environment, config.vnetAddressSpace, config.subnetAddressSpace]

/-- What holds of the items when their condition does, holds of what is kept of them. -/
theorem forall_mem_onlyIf_iff {α : Type} {condition : Bool} {items : List α} {P : α → Prop} :
    (∀ x ∈ Plan.onlyIf condition items, P x) ↔ (condition = true → ∀ x ∈ items, P x) := by
  cases condition <;> simp [Plan.onlyIf]

theorem tameBody_onlyIf {condition : Bool} {body : Body} (h : tameBody body = true) :
    tameBody (Plan.onlyIf condition body) = true := by
  cases condition with
  | true => exact h
  | false => rfl

section Parts

/- What a text is known to be is all that the parts are asked for. -/
attribute [local irreducible] isClean isTidy isTidyInterp Value.isIdentifier

theorem tameParam_textParam {name description default : String}
    (hn : Value.isIdentifier name = true) (hd : isClean description = true)
    (clean : isClean default = true) : TameParam (Plan.textParam name description default) :=
  tameParam_described hn hd clean

theorem tameParam_parameters {config : Configuration} {vmName : String}
    (clean : ∀ s ∈ convertedTexts config vmName, isClean s = true) :
    ∀ p ∈ Plan.parameters ⟨config, vmName⟩, TameParam p := by
  have always : ∀ s ∈ [vmName, config.conversionLocation, config.adminUsername, config.vmSize],
      isClean s = true := fun s hs => clean s (List.mem_append_left _ hs)
  simp only [List.forall_mem_cons] at always
  obtain ⟨machine, location, admin, size, -⟩ := always
  simp only [Plan.parameters, List.forall_mem_append, List.forall_mem_cons, forall_mem_onlyIf_iff]
  refine ⟨⟨⟨⟨tameParam_textParam (name_lit rfl) (clean_lit rfl) machine,
    tameParam_textParam (name_lit rfl) ?_ location, by simp⟩, fun existing => ?_⟩,
    ⟨tameParam_textParam (name_lit rfl) (clean_lit rfl) admin, TameParam.of (name_lit rfl) ?_ rfl,
      tameParam_textParam (name_lit rfl) (clean_lit rfl) size, TameParam.of (name_lit rfl) ?_ ?_,
      by simp⟩⟩,
    fun own => ⟨?_, by simp⟩⟩
  · split_ifs
    · exact clean_lit rfl
    · exact clean_lit rfl
  · -- the names of the existing network
    have named : ∀ s ∈ [config.existingVnetName?.getD "", config.existingSubnetName?.getD ""] ++
        (Plan.vnetResourceGroup? ⟨config, vmName⟩).toList, isClean s = true := by
      intro s hs
      refine clean s (List.mem_append_right _ ?_)
      rwa [if_pos existing]
    simp only [List.forall_mem_append, List.forall_mem_cons] at named
    obtain ⟨⟨vnet, subnet, -⟩, group⟩ := named
    refine ⟨⟨tameParam_textParam (name_lit rfl) (clean_lit rfl) vnet,
      tameParam_textParam (name_lit rfl) (clean_lit rfl) subnet, by simp⟩, ?_⟩
    intro p hp
    obtain ⟨s, hs, rfl⟩ := Option.map_eq_some_iff.mp (Option.mem_toList.mp hp)
    exact tameParam_textParam (name_lit rfl) (clean_lit rfl) (group s (Option.mem_toList.mpr hs))
  · show (isClean _ && true) = true
    rw [Bool.and_true]
    exact clean_lit rfl
  · have choices : tame (.array (["Linux", "Windows"].map .str)) = true := by
      refine tame_texts ?_
      simp only [List.forall_mem_cons]
      exact ⟨clean_lit rfl, clean_lit rfl, by simp⟩
    show (isClean _ && (tame (.array (["Linux", "Windows"].map .str)) && true)) = true
    rw [choices, Bool.and_true, Bool.and_true]
    exact clean_lit rfl
  · show isClean config.osType.name = true
    cases config.osType <;> exact clean_lit rfl
  · -- the tag of a new network
    have tag : isClean config.environment = true := by
      refine clean _ (List.mem_append_right _ ?_)
      rw [if_neg (by simpa using own)]
      exact List.mem_cons_self
    exact tameParam_textParam (name_lit rfl) (clean_lit rfl) tag

theorem tameVariable_nameVariable {name ending : String} (hn : Value.isIdentifier name = true)
    (he : isTidyInterp ending = true) : TameVariable (Plan.nameVariable name ending) :=
  TameVariable.of hn (isTidyInterp_append (isTidyInterp_hole (interp_lit rfl)) he)

theorem tameVariable_vars {config : Configuration} {vmName : String}
    (clean : ∀ s ∈ convertedTexts config vmName, isClean s = true) :
    ∀ v ∈ Plan.vars ⟨config, vmName⟩, TameVariable v := by
  have machine : TameVariable
      ⟨"vmNameClean", .call "toLower" [.call "replace" [.expr "vmName", .str " ", .str "-"]]⟩ := by
    refine TameVariable.of (name_lit rfl) ?_
    simp only [tame, tameItems, Bool.and_eq_true]
    and_intros <;> first | exact clean_lit rfl | exact tidy_lit rfl | trivial
  simp only [Plan.vars, List.forall_mem_append, List.forall_mem_cons, forall_mem_onlyIf_iff]
  refine ⟨⟨⟨⟨⟨⟨machine, by simp⟩,
    fun _ => ⟨tameVariable_nameVariable (name_lit rfl) (interp_lit rfl), by simp⟩⟩,
    fun _ => ⟨tameVariable_nameVariable (name_lit rfl) (interp_lit rfl),
      TameVariable.of (name_lit rfl) (clean_lit rfl), by simp⟩⟩,
    ⟨tameVariable_nameVariable (name_lit rfl) (interp_lit rfl),
      tameVariable_nameVariable (name_lit rfl) (interp_lit rfl), by simp⟩⟩,
    fun _ => ⟨tameVariable_nameVariable (name_lit rfl) (interp_lit rfl), by simp⟩⟩,
    fun own => ?_⟩
  · -- the address spaces of a new network
    have spaces : ∀ s ∈ [config.environment, config.vnetAddressSpace, config.subnetAddressSpace],
        isClean s = true := by
      intro s hs
      refine clean s (List.mem_append_right _ ?_)
      rwa [if_neg (by simpa using own)]
    simp only [List.forall_mem_cons] at spaces
    exact ⟨TameVariable.of (name_lit rfl) spaces.2.1, TameVariable.of (name_lit rfl) spaces.2.2.1,
      by simp⟩

theorem tameBody_located (p : Plan) {name : String} (hn : isTidy name = true) :
    tameBody (p.located name) = true := by
  have tag : tameBody (Plan.onlyIf (!p.existing)
      [.nest "tags" [.ref "environment" "environment"]]) = true := by
    refine tameBody_onlyIf ?_
    simp only [tame, tameBody, tameEntry, Entry.ref, Entry.nest, Bool.and_eq_true]
    and_intros <;> first | exact clean_lit rfl | exact tidy_lit rfl | trivial
  simp only [Plan.located, tameBody_append, tame, tameBody, tameEntry, Entry.ref, hn,
    Bool.and_eq_true]
  and_intros <;> first | exact clean_lit rfl | exact tidy_lit rfl | exact tag | trivial

/-- A reference to another resource by its id. -/
theorem tameBody_idOf {symbol : String} (hs : isTidy symbol = true) :
    tameBody (idOf symbol) = true := by
  simp only [idOf, tame, tameBody, tameEntry, Entry.ref, Bool.and_eq_true]
  and_intros <;> first | exact clean_lit rfl | exact isTidy_append hs (tidy_lit rfl) | trivial

/-- A property that holds the id of another resource, where a condition holds. -/
theorem tameBody_onlyIf_idOf {condition : Bool} {key symbol : String} (hk : isClean key = true)
    (hs : isTidy symbol = true) :
    tameBody (Plan.onlyIf condition [.nest key (idOf symbol)]) = true := by
  refine tameBody_onlyIf ?_
  simp only [tame, tameBody, tameEntry, Entry.nest, Bool.and_true, Bool.and_eq_true]
  exact ⟨hk, tameBody_idOf hs⟩

/-- A resource of the plan, under a fixed comment. -/
theorem TameResource.of {symbol type apiVersion comment : String} {existing : Bool} {body : Body}
    (hs : Value.isIdentifier symbol = true) (ht : isClean type = true)
    (hv : isClean apiVersion = true) (hc : isLine comment = true) (hb : tameBody body = true) :
    TameResource { symbol, type, apiVersion, existing, comment? := some comment, body } :=
  ⟨hs, ht, hv, hc, hb⟩

theorem tameResource_existingVnet (p : Plan) : TameResource p.existingVnet := by
  refine TameResource.of (name_lit rfl) (clean_lit rfl) (clean_lit rfl) ?_ ?_
  · split_ifs <;> decide
  · have scope : tameBody (Plan.onlyIf p.vnetResourceGroup?.isSome
        [.property "scope" (.call "resourceGroup" [.expr "vnetResourceGroupName"])]) = true := by
      refine tameBody_onlyIf ?_
      simp only [tame, tameItems, tameBody, tameEntry, Bool.and_eq_true]
      and_intros <;> first | exact clean_lit rfl | exact tidy_lit rfl | trivial
    simp only [tameBody_append, scope, tame, tameBody, tameEntry, Entry.ref, Bool.and_eq_true]
    and_intros <;> first | exact clean_lit rfl | exact tidy_lit rfl | exact scope | trivial

theorem tameResource_existingSubnet : TameResource Plan.existingSubnet where
  symbol := name_lit rfl
  type := clean_lit rfl
  apiVersion := clean_lit rfl
  comment := rfl
  body := by
    simp only [Plan.existingSubnet, tame, tameBody, tameEntry, Entry.ref, Bool.and_eq_true]
    and_intros <;> first | exact clean_lit rfl | exact tidy_lit rfl | trivial

theorem tameResource_networkSecurityGroup (p : Plan) : TameResource p.networkSecurityGroup := by
  refine TameResource.of (name_lit rfl) (clean_lit rfl) (clean_lit rfl) (by decide) ?_
  have name : isClean (if p.linux then "SSH" else "RDP") = true := by
    split_ifs <;> exact clean_lit rfl
  have port : isClean (if p.linux then "22" else "3389") = true := by
    split_ifs <;> exact clean_lit rfl
  simp only [tameBody_append, tame, tameItems, tameBody, tameEntry, Entry.lit, Entry.nest, name,
    port, List.all_cons, List.all_nil, opensQuietly, Bool.and_eq_true, Bool.and_true, Bool.or_true]
  and_intros <;> first | exact clean_lit rfl | exact tameBody_located p (tidy_lit rfl)

theorem tameResource_virtualNetwork (p : Plan) : TameResource p.virtualNetwork := by
  refine TameResource.of (name_lit rfl) (clean_lit rfl) (clean_lit rfl) (by decide) ?_
  have group : tameBody (Plan.onlyIf p.config.includeNsg
      [.nest "networkSecurityGroup" (idOf "networkSecurityGroup")]) = true :=
    tameBody_onlyIf_idOf (clean_lit rfl) (tidy_lit rfl)
  simp only [tameBody_append, tame, tameItems, tameBody, tameEntry, Entry.ref, Entry.nest,
    List.all_cons, List.all_nil, opensQuietly, Bool.and_eq_true, Bool.and_true, Bool.or_true]
  and_intros <;>
    first
    | exact clean_lit rfl
    | exact tidy_lit rfl
    | exact group
    | exact tameBody_located p (tidy_lit rfl)
    | trivial

theorem tameResource_publicIpAddress (p : Plan) : TameResource p.publicIpAddress := by
  refine TameResource.of (name_lit rfl) (clean_lit rfl) (clean_lit rfl) (by decide) ?_
  simp only [tameBody_append, tame, tameBody, tameEntry, Entry.ref, Entry.lit, Entry.nest,
    Bool.and_eq_true, Bool.and_true]
  and_intros <;>
    first | exact clean_lit rfl | exact tidy_lit rfl | exact tameBody_located p (tidy_lit rfl)

theorem tameResource_planInterface (p : Plan) : TameResource p.networkInterface := by
  refine TameResource.of (name_lit rfl) (clean_lit rfl) (clean_lit rfl) (by decide) ?_
  have subnet : isTidy (if p.existing then "existingSubnet.id"
      else "virtualNetwork.properties.subnets[0].id") = true := by
    split_ifs <;> exact tidy_lit rfl
  have address : tameBody (Plan.onlyIf p.config.includePublicIp
      [.nest "publicIPAddress" (idOf "publicIPAddress")]) = true :=
    tameBody_onlyIf_idOf (clean_lit rfl) (tidy_lit rfl)
  have group : tameBody (Plan.onlyIf (p.existing && p.config.includeNsg)
      [.nest "networkSecurityGroup" (idOf "networkSecurityGroup")]) = true :=
    tameBody_onlyIf_idOf (clean_lit rfl) (tidy_lit rfl)
  simp only [tameBody_append, subnet, tame, tameItems, tameBody, tameEntry, Entry.ref, Entry.lit,
    Entry.nest, List.all_cons, List.all_nil, opensQuietly, Bool.and_eq_true, Bool.and_true,
    Bool.or_true]
  and_intros <;>
    first
    | exact clean_lit rfl
    | exact address
    | exact group
    | exact tameBody_located p (tidy_lit rfl)

theorem tameResource_planMachine (p : Plan) : TameResource p.virtualMachine := by
  refine TameResource.of (name_lit rfl) (clean_lit rfl) (clean_lit rfl) (by decide) ?_
  have os : tameEntry (if p.linux then
      .nest "linuxConfiguration" [.flag "disablePasswordAuthentication" false]
      else .nest "windowsConfiguration" [.flag "enableAutomaticUpdates" true]) = true := by
    split_ifs <;>
    · simp only [tame, tameBody, tameEntry, Entry.flag, Entry.nest, Bool.and_true,
        Bool.and_eq_true]
      exact ⟨clean_lit rfl, clean_lit rfl⟩
  have image : tameBody (imageReference p.config.osType) = true := by
    cases p.config.osType <;>
    · simp only [imageReference, tame, tameBody, tameEntry, Entry.lit, Bool.and_eq_true]
      and_intros <;> first | exact clean_lit rfl | trivial
  have diagnostics : tameBody (Plan.onlyIf p.config.includeBootDiagnostics
      [.nest "diagnosticsProfile" [.nest "bootDiagnostics" [.flag "enabled" true]]]) = true := by
    refine tameBody_onlyIf ?_
    simp only [tame, tameBody, tameEntry, Entry.flag, Entry.nest, Bool.and_eq_true]
    and_intros <;> first | exact clean_lit rfl | trivial
  have interface : tameBody (idOf "networkInterface") = true := tameBody_idOf (tidy_lit rfl)
  simp only [tameBody_append, image, interface, tame, tameItems, tameBody, tameEntry, Entry.ref,
    Entry.lit, Entry.nest, List.all_cons, List.all_nil, opensQuietly, Bool.and_eq_true,
    Bool.and_true, Bool.or_true]
  and_intros <;>
    first
    | exact clean_lit rfl
    | exact tidy_lit rfl
    | exact os
    | exact diagnostics
    | exact tameBody_located p (tidy_lit rfl)

theorem tameResource_resources (p : Plan) : ∀ r ∈ p.resources, TameResource r := by
  simp only [Plan.resources, List.forall_mem_append, List.forall_mem_cons, forall_mem_onlyIf_iff]
  exact ⟨⟨⟨⟨fun _ => ⟨tameResource_existingVnet p, tameResource_existingSubnet, by simp⟩,
    fun _ => ⟨tameResource_networkSecurityGroup p, by simp⟩⟩,
    fun _ => ⟨tameResource_virtualNetwork p, by simp⟩⟩,
    fun _ => ⟨tameResource_publicIpAddress p, by simp⟩⟩,
    tameResource_planInterface p, tameResource_planMachine p, by simp⟩

theorem isTidyInterp_host (p : Plan) :
    isTidyInterp (hole (if p.config.includePublicIp then publicHost else privateAddress)) =
      true := by
  refine isTidyInterp_hole ?_
  split_ifs <;> exact interp_lit rfl

theorem tameOutput_textOutput {name expression : String} (hn : Value.isIdentifier name = true)
    (he : isTidy expression = true) : TameOutput (Plan.textOutput name expression) :=
  TameOutput.of hn he rfl

theorem tameOutput_outputs (p : Plan) : ∀ o ∈ p.outputs, TameOutput o := by
  have command {host : String} (h : isTidyInterp host = true) : isTidyInterp (if p.linux then
      "ssh " ++ hole "adminUsername" ++ "@" ++ host else "mstsc /v:" ++ host) = true := by
    split_ifs
    · exact isTidyInterp_append (isTidyInterp_append (isTidyInterp_append (interp_lit rfl)
        (isTidyInterp_hole (interp_lit rfl))) (interp_lit rfl)) h
    · exact isTidyInterp_append (interp_lit rfl) h
  have connection : tame p.connectionCommand = true := command (isTidyInterp_host p)
  simp only [Plan.outputs, List.forall_mem_append, List.forall_mem_cons, forall_mem_onlyIf_iff]
  exact ⟨⟨⟨⟨tameOutput_textOutput (name_lit rfl) (tidy_lit rfl),
    tameOutput_textOutput (name_lit rfl) (tidy_lit rfl), by simp⟩,
    fun _ => ⟨tameOutput_textOutput (name_lit rfl) (tidy_lit rfl),
      tameOutput_textOutput (name_lit rfl) (tidy_lit rfl), by simp⟩⟩,
    fun _ => ⟨tameOutput_textOutput (name_lit rfl) (tidy_lit rfl), by simp⟩⟩,
    tameOutput_textOutput (name_lit rfl) (tidy_lit rfl),
    TameOutput.of (name_lit rfl) connection rfl, by simp⟩

end Parts

end BicepForge.Check
