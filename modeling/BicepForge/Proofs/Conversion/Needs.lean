import BicepForge.Conversion.Analysis
import BicepForge.Proofs.Text.Joined
import Mathlib.Algebra.GroupWithZero.Nat
import Mathlib.Data.List.Induction
import Mathlib.Data.List.Sort

/-!
# What a template needs

The analysis of a template, said of the template itself. The resources are the ones it lists, and a
type is named once, where it first comes. Every virtual machine adds what it refers to from outside
and the network that any machine needs, and each entry says whether the template declares a resource
of that very type. Main statement: exactly one analysis fits this description of a document, and it
is the one that is made, whatever the document looks like.
-/

namespace BicepForge.Conversion

/-! ## Documents of any shape -/

/-- The items of a list; anything else has none. -/
def itemsOf : Option Json → List Json
  | some (.arr items) => items
  | _ => []

/-- The keys of an object; anything else has none. -/
def keysOf : Option Json → List String
  | some (.obj entries) => Entries.keys entries
  | _ => []

/-- A resource of exactly this type. -/
def HasType (type : String) (resource : Json) : Prop :=
  resource.get? "type" = some (.str type)

instance (type : String) : DecidablePred (HasType type) :=
  fun resource => inferInstanceAs (Decidable (resource.get? "type" = some (.str type)))

/-- A string in which a parameter is asked for. -/
def AsksForParameter (v? : Option Json) : Prop :=
  ∃ before behind : String, v? = some (.str (before ++ "parameters(" ++ behind))

theorem bind_asString?_eq_some_iff {v? : Option Json} {s : String} :
    v?.bind Json.asString? = some s ↔ v? = some (.str s) := by
  rcases v? with _ | _ | _ | _ | _ | _ | _ <;> simp [Json.asString?]

theorem getD_bind_asArray? (v? : Option Json) : (v?.bind Json.asArray?).getD [] = itemsOf v? := by
  rcases v? with _ | _ | _ | _ | _ | _ | _ <;> rfl

theorem keys_bind_asObject? (v? : Option Json) :
    Entries.keys ((v?.bind Json.asObject?).getD []) = keysOf v? := by
  rcases v? with _ | _ | _ | _ | _ | _ | _ <;> rfl

theorem typeOf?_eq_some_iff {resource : Json} {type : String} :
    typeOf? resource = some type ↔ HasType type resource :=
  bind_asString?_eq_some_iff

theorem isParameterReference_iff (v? : Option Json) :
    isParameterReference v? = true ↔ AsksForParameter v? := by
  rw [isParameterReference, Option.any_eq_true]
  constructor
  · rintro ⟨s, text, found⟩
    obtain ⟨before, behind, rfl⟩ := (Text.occursIn_iff _ s).mp found
    exact ⟨before, behind, bind_asString?_eq_some_iff.mp text⟩
  · rintro ⟨before, behind, rfl⟩
    exact ⟨_, rfl, (Text.occursIn_iff _ _).mpr ⟨before, behind, rfl⟩⟩

instance : DecidablePred AsksForParameter :=
  fun v? => decidable_of_iff _ (isParameterReference_iff v?)

/-! ## Types -/

/-- A further resource has no type, or one that is named already, or its type is named at the end. -/
theorem distinctTypes_append (resources : List Json) (r : Json) :
    (distinctTypes (resources ++ [r]) = distinctTypes resources ∧
      ∀ type, HasType type r → type ∈ distinctTypes resources) ∨
    ∃ type, HasType type r ∧ type ∉ distinctTypes resources ∧
      distinctTypes (resources ++ [r]) = distinctTypes resources ++ [type] := by
  simp only [← typeOf?_eq_some_iff]
  cases own : typeOf? r with
  | none => simp [distinctTypes, own]
  | some type =>
    by_cases known : type ∈ distinctTypes resources
    · refine .inl ⟨?_, fun t same => Option.some.inj same ▸ known⟩
      simpa [distinctTypes, own] using known
    · refine .inr ⟨type, rfl, known, ?_⟩
      simpa [distinctTypes, own] using known

theorem mem_distinctTypes_iff (resources : List Json) (type : String) :
    type ∈ distinctTypes resources ↔ ∃ r ∈ resources, HasType type r := by
  induction resources using List.reverseRecOn with
  | nil => simp [distinctTypes]
  | append_singleton resources r ih =>
    have split : (∃ s ∈ resources ++ [r], HasType type s) ↔
        type ∈ distinctTypes resources ∨ HasType type r := by
      rw [ih]
      simp [or_and_right, exists_or]
    rw [split]
    rcases distinctTypes_append resources r with ⟨same, known⟩ | ⟨t, own, -, longer⟩
    · rw [same]
      exact ⟨.inl, fun h => h.elim id (known type)⟩
    · rw [longer, List.mem_append, List.mem_singleton]
      refine or_congr_right ⟨fun same => same ▸ own, fun also => ?_⟩
      exact Json.str.inj (Option.some.inj (also.symm.trans own))

/-- The place of the first resource of a type, behind all resources if there is none. -/
def firstPlace (resources : List Json) (type : String) : Nat :=
  resources.findIdx fun r => HasType type r

theorem firstPlace_append_of_mem {resources : List Json} {type : String}
    (h : type ∈ distinctTypes resources) (more : List Json) :
    firstPlace (resources ++ more) type = firstPlace resources type ∧
      firstPlace resources type < resources.length := by
  obtain ⟨r, mem, own⟩ := (mem_distinctTypes_iff resources type).mp h
  have inside : resources.findIdx (fun r => HasType type r) < resources.length :=
    List.findIdx_lt_length_of_exists ⟨r, mem, decide_eq_true own⟩
  refine ⟨?_, inside⟩
  rw [firstPlace, List.findIdx_append, if_pos inside, firstPlace]

theorem firstPlace_append_of_notMem {resources : List Json} {type : String}
    (h : type ∉ distinctTypes resources) (more : List Json) :
    resources.length ≤ firstPlace (resources ++ more) type := by
  have nowhere : resources.findIdx (fun r => HasType type r) = resources.length := by
    rw [List.findIdx_eq_length]
    intro r mem
    exact decide_eq_false fun own => h ((mem_distinctTypes_iff resources type).mpr ⟨r, mem, own⟩)
  rw [firstPlace, List.findIdx_append, nowhere, if_neg (Nat.lt_irrefl _)]
  exact Nat.le_add_left _ _

/-- Types are named in the order in which they first come. -/
theorem pairwise_distinctTypes (resources : List Json) :
    (distinctTypes resources).Pairwise fun s t => firstPlace resources s < firstPlace resources t := by
  induction resources using List.reverseRecOn with
  | nil => exact List.Pairwise.nil
  | append_singleton resources r ih =>
    have kept : (distinctTypes resources).Pairwise fun s t =>
        firstPlace (resources ++ [r]) s < firstPlace (resources ++ [r]) t := by
      refine ih.imp_of_mem fun hs ht before => ?_
      rwa [(firstPlace_append_of_mem hs [r]).1, (firstPlace_append_of_mem ht [r]).1]
    rcases distinctTypes_append resources r with ⟨same, -⟩ | ⟨type, -, new, longer⟩
    · rwa [same]
    · rw [longer]
      refine List.pairwise_append.mpr ⟨kept, List.pairwise_singleton _ _, ?_⟩
      intro s hs t ht
      obtain rfl := List.mem_singleton.mp ht
      obtain ⟨same, inside⟩ := firstPlace_append_of_mem hs [r]
      rw [same]
      exact Nat.lt_of_lt_of_le inside (firstPlace_append_of_notMem new [r])

section Order

variable {xs ys : List String} {place : String → Nat}

theorem nodup_of_pairwise (h : xs.Pairwise fun s t => place s < place t) : xs.Nodup :=
  h.imp fun before => ne_of_apply_ne place (Nat.ne_of_lt before)

/-- The same names in the order of their places are the same list. -/
theorem eq_of_pairwise_of_mem_iff (hx : xs.Pairwise fun s t => place s < place t)
    (hy : ys.Pairwise fun s t => place s < place t) (same : ∀ t, t ∈ xs ↔ t ∈ ys) : xs = ys := by
  have perm : xs.Perm ys :=
    (List.perm_ext_iff_of_nodup (nodup_of_pairwise hx) (nodup_of_pairwise hy)).mpr same
  refine perm.eq_of_pairwise (fun s t _ _ before after => ?_) hx hy
  exact absurd (Nat.lt_trans before after) (Nat.lt_irrefl _)

end Order

/-! ## Needs of machines -/

def interfaces (vm : Json) : List Json :=
  itemsOf (vm.path? ["properties", "networkProfile", "networkInterfaces"])

/-- How many interfaces of a machine come from outside. -/
def outsideInterfaces (vm : Json) : Nat :=
  (interfaces vm).countP fun interface => AsksForParameter (interface.get? "id")

/-- How many disks of a machine come from outside, of the one that it starts from. -/
def outsideDisks (vm : Json) : Nat :=
  if AsksForParameter
      (vm.path? ["properties", "storageProfile", "osDisk", "managedDisk", "id"]) then 1 else 0

/-- What one machine has to be provided with, and why: what it refers to from outside, and the
network that any machine needs. -/
def needs (vm : Json) : List (String × String) :=
  List.replicate (outsideInterfaces vm)
    ("Microsoft.Network/networkInterfaces", "External reference - will create new NIC with subnet") ++
  List.replicate (outsideDisks vm)
    ("Microsoft.Compute/disks", "External reference - will create new managed disk") ++
  [("Microsoft.Network/virtualNetworks", "Required for VM deployment"),
   ("Microsoft.Network/networkSecurityGroups", "Security best practice"),
   ("Microsoft.Network/publicIPAddresses", "Optional - for external access")]

/-- How often a machine refers to something outside. -/
def outsideReferences (vm : Json) : Nat :=
  outsideInterfaces vm + outsideDisks vm

theorem length_needs (vm : Json) : (needs vm).length = 3 + outsideReferences vm := by
  simp [needs, outsideReferences]
  omega

theorem length_flatMap_needs (machines : List Json) :
    (machines.flatMap needs).length =
      3 * machines.length + (machines.map outsideReferences).sum := by
  induction machines with
  | nil => rfl
  | cons vm machines ih =>
    rw [List.flatMap_cons, List.length_append, length_needs, ih, List.length_cons, List.map_cons,
      List.sum_cons]
    omega

theorem flatMap_needs_eq_nil_iff (machines : List Json) :
    machines.flatMap needs = [] ↔ machines = [] := by
  rw [← List.length_eq_zero_iff, length_flatMap_needs, ← List.length_eq_zero_iff (l := machines)]
  constructor
  · omega
  · intro none
    rw [none, List.length_eq_zero_iff.mp none]
    rfl

theorem length_externalInterfaces (vm : Json) :
    (externalInterfaces vm).length = outsideInterfaces vm := by
  rw [externalInterfaces, getD_bind_asArray?, ← List.countP_eq_length_filter, outsideInterfaces,
    interfaces]
  refine List.countP_congr fun interface _ => ?_
  rw [isParameterReference_iff, decide_eq_true_iff]

theorem vmDependencies_eq (present : List String) (vm : Json) :
    vmDependencies present vm = (needs vm).map fun need => dependency present need.1 need.2 := by
  have disks : (if hasExternalDisk vm then
      [dependency present "Microsoft.Compute/disks"
        "External reference - will create new managed disk"] else []) =
      List.replicate (outsideDisks vm) (dependency present "Microsoft.Compute/disks"
        "External reference - will create new managed disk") := by
    rw [outsideDisks, hasExternalDisk]
    simp only [isParameterReference_iff]
    split_ifs <;> rfl
  rw [vmDependencies, disks, List.map_const', length_externalInterfaces, needs, List.map_append,
    List.map_append, List.map_replicate, List.map_replicate]
  rfl

/-! ## Analyses -/

namespace Analysis

def machines (a : Analysis) : List Json :=
  a.resources.filter fun r => HasType "Microsoft.Compute/virtualMachines" r

/-- What an analysis says of a document, which may be any JSON value. -/
structure Describes (a : Analysis) (document : Json) : Prop where
  /-- The resources are those listed, in their order. -/
  resources : a.resources = itemsOf (document.get? "resources")
  parameterNames : a.parameterNames = keysOf (document.get? "parameters")
  variableNames : a.variableNames = keysOf (document.get? "variables")
  /-- A type is named exactly if a resource has it. -/
  types : ∀ type, type ∈ a.resourceTypes ↔ ∃ r ∈ a.resources, HasType type r
  /-- No type is named twice. -/
  once : a.resourceTypes.Nodup
  /-- Types are named in the order in which they first come. -/
  order : a.resourceTypes.Pairwise fun s t => firstPlace a.resources s < firstPlace a.resources t
  /-- The missing dependencies are the needs of the machines, one machine after the other. -/
  needs : a.missingDependencies.map (fun d => (d.type, d.reason)) = a.machines.flatMap needs
  /-- Each tells whether the template has a resource of its very type. -/
  present : ∀ d ∈ a.missingDependencies,
    (d.presentInTemplate = true ↔ ∃ r ∈ a.resources, HasType d.type r)
  /-- There are three for each machine and one for each reference to something outside. -/
  count : a.missingDependencies.length =
    3 * a.machines.length + (a.machines.map outsideReferences).sum
  /-- Nothing is missing exactly where there is no machine. -/
  complete : a.missingDependencies = [] ↔
    ∀ r ∈ a.resources, ¬HasType "Microsoft.Compute/virtualMachines" r
  /-- Of all names only that of the first machine counts. -/
  vmName : a.vmName = parameterName (a.machines.head?.bind (Json.get? "name"))

section OfTemplate

variable (document : Json)

theorem resources_ofTemplate :
    (ofTemplate ⟨document⟩).resources = itemsOf (document.get? "resources") :=
  getD_bind_asArray? _

theorem machines_ofTemplate :
    (ofTemplate ⟨document⟩).machines = virtualMachines (ofTemplate ⟨document⟩).resources := by
  rw [machines, virtualMachines]
  refine List.filter_congr fun r _ => ?_
  rw [decide_eq_decide, typeOf?_eq_some_iff]
  rfl

theorem missingDependencies_ofTemplate :
    (ofTemplate ⟨document⟩).missingDependencies =
      ((ofTemplate ⟨document⟩).machines.flatMap Conversion.needs).map fun need =>
        dependency (ofTemplate ⟨document⟩).resourceTypes need.1 need.2 := by
  rw [machines_ofTemplate, List.map_flatMap]
  exact List.flatMap_congr fun vm _ => vmDependencies_eq _ vm

theorem vmName_ofTemplate :
    (ofTemplate ⟨document⟩).vmName =
      parameterName ((ofTemplate ⟨document⟩).machines.head?.bind (Json.get? "name")) := by
  rw [machines_ofTemplate]
  simp only [ofTemplate]
  generalize virtualMachines _ = machines
  cases machines <;> rfl

theorem needs_ofTemplate :
    (ofTemplate ⟨document⟩).missingDependencies.map (fun d => (d.type, d.reason)) =
      (ofTemplate ⟨document⟩).machines.flatMap Conversion.needs := by
  rw [missingDependencies_ofTemplate, List.map_map]
  exact List.map_id' _

theorem present_ofTemplate (d : MissingDependency)
    (h : d ∈ (ofTemplate ⟨document⟩).missingDependencies) :
    d.presentInTemplate = true ↔ ∃ r ∈ (ofTemplate ⟨document⟩).resources, HasType d.type r := by
  rw [missingDependencies_ofTemplate, List.mem_map] at h
  obtain ⟨need, -, rfl⟩ := h
  rw [dependency, List.contains_iff_mem]
  exact mem_distinctTypes_iff _ _

theorem describes_ofTemplate : (ofTemplate ⟨document⟩).Describes document where
  resources := resources_ofTemplate document
  parameterNames := keys_bind_asObject? _
  variableNames := keys_bind_asObject? _
  types := mem_distinctTypes_iff _
  once := nodup_of_pairwise (pairwise_distinctTypes _)
  order := pairwise_distinctTypes _
  needs := needs_ofTemplate document
  present := present_ofTemplate document
  count := by
    rw [← List.length_map, needs_ofTemplate, length_flatMap_needs]
  complete := by
    rw [← List.map_eq_nil_iff, needs_ofTemplate, flatMap_needs_eq_nil_iff, machines,
      List.filter_eq_nil_iff]
    simp only [decide_eq_true_eq]
  vmName := vmName_ofTemplate document

end OfTemplate

/-- Entries of the same kinds that say the same of the template are the same entries. -/
theorem eq_of_present (holds : String → Prop) {ds es : List MissingDependency}
    (kinds : ds.map (fun d => (d.type, d.reason)) = es.map fun d => (d.type, d.reason))
    (hd : ∀ d ∈ ds, (d.presentInTemplate = true ↔ holds d.type))
    (he : ∀ d ∈ es, (d.presentInTemplate = true ↔ holds d.type)) : ds = es := by
  induction ds generalizing es with
  | nil => exact (List.map_eq_nil_iff.mp kinds.symm).symm
  | cons d ds ih =>
    cases es with
    | nil => cases kinds
    | cons e es =>
      obtain ⟨firstD, othersD⟩ := List.forall_mem_cons.mp hd
      obtain ⟨firstE, othersE⟩ := List.forall_mem_cons.mp he
      obtain ⟨kind, others⟩ := List.cons.inj kinds
      obtain ⟨type, reason⟩ := Prod.mk.inj kind
      have flag : d.presentInTemplate = e.presentInTemplate := by
        rw [Bool.eq_iff_iff, firstD, firstE, type]
      rw [ih others othersD othersE]
      cases d
      cases e
      simp_all

/-- A document has one description. -/
theorem Describes.unique {document : Json} {a b : Analysis} (ha : a.Describes document)
    (hb : b.Describes document) : a = b := by
  have resources : a.resources = b.resources := ha.resources.trans hb.resources.symm
  have machines : a.machines = b.machines := congrArg (List.filter _) resources
  have types : a.resourceTypes = b.resourceTypes := by
    refine eq_of_pairwise_of_mem_iff ha.order (resources ▸ hb.order) fun type => ?_
    rw [ha.types, hb.types, resources]
  have missing : a.missingDependencies = b.missingDependencies := by
    refine eq_of_present (fun type => ∃ r ∈ a.resources, HasType type r) ?_ ha.present ?_
    · rw [ha.needs, hb.needs, machines]
    · rw [resources]
      exact hb.present
  have name : a.vmName = b.vmName := by rw [ha.vmName, hb.vmName, machines]
  have parameters := ha.parameterNames.trans hb.parameterNames.symm
  have vars := ha.variableNames.trans hb.variableNames.symm
  cases a
  cases b
  simp_all

/-- The analysis of a document is the one that describes it. -/
theorem ofTemplate_eq_iff_describes (document : Json) (a : Analysis) :
    ofTemplate ⟨document⟩ = a ↔ a.Describes document := by
  constructor
  · rintro rfl
    exact describes_ofTemplate document
  · exact (describes_ofTemplate document).unique

end Analysis

end BicepForge.Conversion
