import BicepForge.Configuration.Yaml
import Mathlib.Data.List.Forall2
import Mathlib.Data.List.Perm.Basic

/-!
# Options on their own

Every option is written under a key of its own, from which it is read back without a look at the
others. An object that holds some of the entries of a configuration gives these options, in whatever
order they come and whatever else stands beside them, and the defaults of all others. In a
configuration file the same holds of a mapping whose scalars say what the entries say.
-/

namespace BicepForge

/-! ## Names -/

@[simp] theorem NetworkMode.ofText_name (m : NetworkMode) : ofText m.name = m := by
  cases m <;> decide +kernel

@[simp] theorem OsType.ofName?_name (o : OsType) : ofName? o.name = some o := by
  cases o <;> decide

theorem OsType.parse_name (o : OsType) : parse o.name = .ok o := by
  cases o <;> decide +kernel

/-! ## Values that say the same -/

/-- A value of a document is read as what a JSON value says: as nothing, a truth value or a text, of
which each stands for itself wherever an option takes it. -/
def OptionReader.Takes {α : Type} (r : OptionReader α) (v : α) : Json → Prop
  | .null => r.optional? v = some none
  | .bool b => r.flag? v = some b
  | .str s => r.text? v = some s ∧ r.optional? v = some (some s) ∧ r.choice? v = some s
  | .num _ | .arr _ | .obj _ => False

/-- Whether a scalar without a tag is a way to write a JSON value. -/
def Yaml.Node.states : Yaml.Node → Json → Bool
  | .scalar none style text, .null => style = .plain && isNull text
  | .scalar none style text, .bool b => style = .plain && bool? text = some b
  | .scalar none style text, .str s => text = s && !isAbsent style text
  | _, _ => false

theorem OptionReader.takes_yaml {n : Yaml.Node} {v : Json} (h : n.states v = true) :
    OptionReader.yaml.Takes n v := by
  unfold Yaml.Node.states at h
  split at h
  · -- nothing
    rw [Bool.and_eq_true, decide_eq_true_eq] at h
    obtain ⟨rfl, word⟩ := h
    simp [OptionReader.Takes, OptionReader.yaml, Yaml.Node.optional?, Yaml.isAbsent, word]
  · -- a truth value
    rw [Bool.and_eq_true, decide_eq_true_eq, decide_eq_true_eq] at h
    obtain ⟨rfl, word⟩ := h
    simp [OptionReader.Takes, OptionReader.yaml, Yaml.Node.flag?, word]
  · -- a text
    rw [Bool.and_eq_true, decide_eq_true_eq, Bool.not_eq_true'] at h
    obtain ⟨rfl, present⟩ := h
    simp [OptionReader.Takes, OptionReader.yaml, Yaml.Node.text?, Yaml.Node.optional?,
      Yaml.Node.choice?, present]
  · cases h

namespace Configuration

/-! ## Options from one configuration or another -/

section Blend

/-- One of two values of an option: the first one if its key is chosen. -/
def pick {α : Type} (chosen : List String) (key : String) (x y : α) : α :=
  if key ∈ chosen then x else y

/-- The options under the chosen keys from one configuration, and all others from another. -/
def blend (chosen : List String) (c d : Configuration) : Configuration where
  location? := pick chosen "location" c.location? d.location?
  targetScope := pick chosen "targetScope" c.targetScope d.targetScope
  environment := pick chosen "environment" c.environment d.environment
  resourcePrefix := pick chosen "resourcePrefix" c.resourcePrefix d.resourcePrefix
  networkMode := pick chosen "networkMode" c.networkMode d.networkMode
  vnetAddressSpace := pick chosen "vnetAddressSpace" c.vnetAddressSpace d.vnetAddressSpace
  subnetAddressSpace := pick chosen "subnetAddressSpace" c.subnetAddressSpace d.subnetAddressSpace
  existingVnetName? := pick chosen "existingVnetName" c.existingVnetName? d.existingVnetName?
  existingSubnetName? := pick chosen "existingSubnetName" c.existingSubnetName? d.existingSubnetName?
  existingVnetResourceGroup? :=
    pick chosen "existingVnetResourceGroup" c.existingVnetResourceGroup? d.existingVnetResourceGroup?
  vmSize := pick chosen "vmSize" c.vmSize d.vmSize
  osType := pick chosen "osType" c.osType d.osType
  adminUsername := pick chosen "adminUsername" c.adminUsername d.adminUsername
  includeParameters := pick chosen "includeParameters" c.includeParameters d.includeParameters
  includeDependencies := pick chosen "includeDependencies" c.includeDependencies d.includeDependencies
  includeOutputs := pick chosen "includeOutputs" c.includeOutputs d.includeOutputs
  generateModules := pick chosen "generateModules" c.generateModules d.generateModules
  includeNsg := pick chosen "includeNSG" c.includeNsg d.includeNsg
  includeBootDiagnostics :=
    pick chosen "includeBootDiagnostics" c.includeBootDiagnostics d.includeBootDiagnostics
  includePublicIp := pick chosen "includePublicIP" c.includePublicIp d.includePublicIp

theorem pick_cons {α : Type} (first : String) (chosen : List String) (key : String) (x y : α) :
    pick (first :: chosen) key x y = pick chosen key x (pick [first] key x y) := by
  by_cases here : key = first <;> by_cases there : key ∈ chosen <;> simp [pick, here, there]

theorem pick_congr {α : Type} {chosen chosen' : List String} {key : String}
    (h : key ∈ chosen ↔ key ∈ chosen') (x y : α) : pick chosen key x y = pick chosen' key x y := by
  simp only [pick, h]

variable {chosen chosen' : List String} (c d : Configuration)

theorem blend_nil : blend [] c d = d := rfl

theorem blend_cons (first : String) :
    blend (first :: chosen) c d = blend chosen c (blend [first] c d) := by
  simp only [blend, pick_cons first chosen]

/-- Only the keys of options count. -/
theorem blend_congr (h : ∀ key ∈ keys, key ∈ chosen ↔ key ∈ chosen') :
    blend chosen c d = blend chosen' c d := by
  unfold blend
  congr 1 <;> exact pick_congr (h _ (by decide)) _ _

theorem blend_of_notMem {key : String} (foreign : key ∉ keys) : blend [key] c d = d := by
  have nothing : ∀ other ∈ keys, other ∈ [key] ↔ other ∈ ([] : List String) := by
    intro other known
    have ne : other ≠ key := by
      rintro rfl
      exact foreign known
    simp [ne]
  exact (blend_congr c d nothing).trans (blend_nil c d)

theorem blend_keys : blend keys c d = c := rfl

end Blend

/-! ## Reading one option after the other -/

section Reading

variable {α : Type} {r : OptionReader α} {c : Configuration}

theorem set?_of_notMem {key : String} (foreign : key ∉ keys) (v : α) (d : Configuration) :
    set? r key v d = some d := by
  unfold set?
  split <;> first | rfl | exact absurd (by decide) foreign

theorem text?_of_takes {v : α} {s : String} (h : r.Takes v (.str s)) : r.text? v = some s :=
  h.1

theorem choice?_of_takes {v : α} {s : String} (h : r.Takes v (.str s)) : r.choice? v = some s :=
  h.2.2

theorem flag?_of_takes {v : α} {b : Bool} (h : r.Takes v (.bool b)) : r.flag? v = some b :=
  h

/-- A value that may be absent is read as it was written. -/
theorem optional?_of_takes {v : α} {s? : Option String} (h : r.Takes v (optionalJson s?)) :
    r.optional? v = some s? := by
  cases s? with
  | none => exact h
  | some s => exact h.2.1

/-- The value of an entry is read into the option under its key, and no other one is touched. -/
theorem set?_of_takes {key : String} {v : α} {j : Json} (mem : (key, j) ∈ c.entries)
    (taken : r.Takes v j) (d : Configuration) : set? r key v d = some (blend [key] c d) := by
  simp only [entries, List.mem_cons, List.not_mem_nil, or_false, Prod.mk.injEq] at mem
  rcases mem with ⟨rfl, rfl⟩ | ⟨rfl, rfl⟩ | ⟨rfl, rfl⟩ | ⟨rfl, rfl⟩ | ⟨rfl, rfl⟩ | ⟨rfl, rfl⟩ |
    ⟨rfl, rfl⟩ | ⟨rfl, rfl⟩ | ⟨rfl, rfl⟩ | ⟨rfl, rfl⟩ | ⟨rfl, rfl⟩ | ⟨rfl, rfl⟩ | ⟨rfl, rfl⟩ |
    ⟨rfl, rfl⟩ | ⟨rfl, rfl⟩ | ⟨rfl, rfl⟩ | ⟨rfl, rfl⟩ | ⟨rfl, rfl⟩ | ⟨rfl, rfl⟩ | ⟨rfl, rfl⟩
  -- a text that may be absent, a truth value, a text, or the name of a choice
  all_goals
    first
    | change Option.map _ (r.optional? v) = _
      rw [optional?_of_takes taken]; rfl
    | change Option.map _ (r.flag? v) = _
      rw [flag?_of_takes taken]; rfl
    | change Option.map _ (r.text? v) = _
      rw [text?_of_takes taken]
      first | rfl | rw [Option.map_some, NetworkMode.ofText_name]; rfl
    | change Option.map _ ((r.choice? v).bind _) = _
      rw [choice?_of_takes taken, Option.bind_some]
      first | rw [OsType.ofName?_name]; rfl | rw [TargetScope.ofName?_name]; rfl

/-- Entries that hold options of a configuration are read as these options, one after the other; what
stands under other keys is passed over. -/
theorem foldlM_set? {es : List (String × α)}
    (h : ∀ e ∈ es, e.1 ∈ keys → ∃ j, (e.1, j) ∈ c.entries ∧ r.Takes e.2 j) (d : Configuration) :
    es.foldlM (fun d (key, v) => set? r key v d) d = some (blend (es.map (·.1)) c d) := by
  induction es generalizing d with
  | nil => exact congrArg some (blend_nil c d).symm
  | cons e es ih =>
    obtain ⟨key, v⟩ := e
    obtain ⟨first, others⟩ := List.forall_mem_cons.mp h
    have step : set? r key v d = some (blend [key] c d) := by
      by_cases known : key ∈ keys
      · obtain ⟨j, mem, taken⟩ := first known
        exact set?_of_takes mem taken d
      · rw [set?_of_notMem known, blend_of_notMem c d known]
    rw [List.foldlM_cons, List.map_cons, blend_cons]
    dsimp only
    rw [step]
    exact ih others (blend [key] c d)

/-! ## Objects and mappings -/

theorem takes_json_str (s : String) : OptionReader.json.Takes (.str s) (.str s) :=
  ⟨rfl, rfl, rfl⟩

theorem takes_json_bool (b : Bool) : OptionReader.json.Takes (.bool b) (.bool b) :=
  rfl

theorem takes_json_optionalJson (s? : Option String) :
    OptionReader.json.Takes (optionalJson s?) (optionalJson s?) := by
  cases s? with
  | none => rfl
  | some s => exact takes_json_str s

/-- What is written as JSON is taken for itself. -/
theorem takes_json : ∀ e ∈ c.entries, OptionReader.json.Takes e.2 e.2 := by
  simp [entries, takes_json_str, takes_json_bool, takes_json_optionalJson]

/-- An entry of a mapping writes one of an object: the name of its key, and what is under the key of
an option. -/
def Writes (n : Yaml.Node × Yaml.Node) (e : String × Json) : Prop :=
  n.1.text? = some e.1 ∧ (e.1 ∈ keys → n.2.states e.2 = true)

/-- The entries of a mapping under the names of their keys. -/
theorem exists_named {nodes : List (Yaml.Node × Yaml.Node)} {es : Entries Json}
    (h : List.Forall₂ Writes nodes es) :
    ∃ named : Entries Yaml.Node,
      (nodes.mapM fun (key, v) => (Yaml.Node.text? key).map fun name => (name, v)) = some named ∧
      Entries.keys named = Entries.keys es ∧
      ∀ n ∈ named, n.1 ∈ keys → ∃ v, (n.1, v) ∈ es ∧ n.2.states v = true := by
  induction h with
  | nil => exact ⟨[], rfl, rfl, List.forall_mem_nil _⟩
  | @cons n e nodes es first _ ih =>
    obtain ⟨named, rest, names, stated⟩ := ih
    refine ⟨(e.1, n.2) :: named, ?_, congrArg (e.1 :: ·) names, List.forall_mem_cons.mpr ⟨?_, ?_⟩⟩
    · obtain ⟨key, v⟩ := n
      have name : key.text? = some e.1 := first.1
      rw [List.mapM_cons]
      dsimp only
      rw [name, rest]
      rfl
    · exact fun known => ⟨e.2, List.mem_cons_self, first.2 known⟩
    · intro n mem known
      obtain ⟨v, there, value⟩ := stated n mem known
      exact ⟨v, List.mem_cons_of_mem _ there, value⟩

section Restricted

variable {chosen : List String} {unknown es : Entries Json}
  (foreign : ∀ e ∈ unknown, e.1 ∉ keys)
  (same : es.Perm (c.entries.filter (fun e => decide (e.1 ∈ chosen)) ++ unknown))

include foreign same

/-- What stands under the keys of options is what the configuration says. -/
theorem mem_entries_of_perm {e : String × Json} (mem : e ∈ es) (known : e.1 ∈ keys) :
    e ∈ c.entries ∧ e.1 ∈ chosen := by
  rcases List.mem_append.mp (same.mem_iff.mp mem) with mem | mem
  · rwa [List.mem_filter, decide_eq_true_eq] at mem
  · exact absurd known (foreign e mem)

theorem mem_keys_of_perm {key : String} (known : key ∈ keys) :
    key ∈ Entries.keys es ↔ key ∈ chosen := by
  constructor
  · intro mem
    obtain ⟨e, there, rfl⟩ := List.mem_map.mp mem
    exact (mem_entries_of_perm foreign same there known).2
  · intro mem
    have there : key ∈ Entries.keys c.entries := known
    obtain ⟨e, held, rfl⟩ := List.mem_map.mp there
    refine List.mem_map_of_mem (same.mem_iff.mpr (List.mem_append_left _ ?_))
    exact List.mem_filter.mpr ⟨held, decide_eq_true mem⟩

/-- No option is given twice. -/
theorem nodup_keys_of_perm : ((Entries.keys es).filter keys.contains).Nodup := by
  have order := (same.map (·.1)).filter keys.contains
  have passed : (unknown.map (·.1)).filter keys.contains = [] := by
    simpa [List.filter_eq_nil_iff] using foreign
  rw [List.map_append, List.filter_append, passed, List.append_nil] at order
  have once : (Entries.keys c.entries).Nodup := (by decide : keys.Nodup)
  exact order.nodup_iff.mpr
    (once.sublist (List.filter_sublist.trans (List.filter_sublist.map _)))

theorem ofJson?_of_perm : ofJson? (.obj es) = some (blend chosen c {}) := by
  have read : ofEntries? .json es = some (blend (Entries.keys es) c {}) := by
    refine foldlM_set? (fun e mem known => ?_) {}
    have held := (mem_entries_of_perm foreign same mem known).1
    exact ⟨e.2, held, takes_json e held⟩
  rw [ofJson?, read, blend_congr c {} fun key => mem_keys_of_perm foreign same]

theorem ofNode?_of_perm {nodes : List (Yaml.Node × Yaml.Node)}
    (written : List.Forall₂ Writes nodes es) :
    ofNode? (some (.mapping nodes)) = some (blend chosen c {}) := by
  obtain ⟨named, names, sameKeys, stated⟩ := exists_named written
  have read : ofEntries? .yaml named = some (blend (Entries.keys named) c {}) := by
    refine foldlM_set? (fun n mem known => ?_) {}
    obtain ⟨v, there, value⟩ := stated n mem known
    exact ⟨v, (mem_entries_of_perm foreign same there known).1, OptionReader.takes_yaml value⟩
  have once := nodup_keys_of_perm foreign same
  rw [← sameKeys] at once
  simp only [ofNode?, names, Option.bind_some]
  rw [if_pos once, read, sameKeys, blend_congr c {} fun key => mem_keys_of_perm foreign same]

end Restricted

end Reading

/-- Every option is kept under a key of its own. An object of any entries of a configuration and
others besides gives the options under the keys of these entries and the defaults of all others, and
so does a mapping in a configuration file whose scalars state these entries. The whole object gives
the configuration back, and names that are written are read as what they name. -/
theorem ofJson?_restricted (c : Configuration) :
    (∀ (chosen : List String) (unknown es : Entries Json), (∀ e ∈ unknown, e.1 ∉ keys) →
      es.Perm (c.entries.filter (fun e => decide (e.1 ∈ chosen)) ++ unknown) →
      ofJson? (.obj es) = some (blend chosen c {}) ∧
      ∀ nodes, List.Forall₂ Writes nodes es →
        ofNode? (some (.mapping nodes)) = some (blend chosen c {})) ∧
    ofJson? c.toJson = some c ∧
    NetworkMode.ofText c.networkMode.name = c.networkMode ∧
    OsType.ofName? c.osType.name = some c.osType ∧ OsType.parse c.osType.name = .ok c.osType ∧
    TargetScope.ofName? c.targetScope.name = some c.targetScope := by
  refine ⟨fun chosen unknown es foreign same => ⟨ofJson?_of_perm foreign same,
    fun nodes written => ofNode?_of_perm foreign same written⟩, ?_, NetworkMode.ofText_name _,
    OsType.ofName?_name _, OsType.parse_name _, TargetScope.ofName?_name _⟩
  -- the whole object holds the entries under all keys
  have whole : c.entries.Perm (c.entries.filter (fun e => decide (e.1 ∈ keys)) ++ []) := by
    have all : c.entries.filter (fun e => decide (e.1 ∈ keys)) = c.entries :=
      List.filter_eq_self.mpr fun e mem => decide_eq_true (List.mem_map_of_mem (f := (·.1)) mem)
    rw [all, List.append_nil]
  exact (ofJson?_of_perm (List.forall_mem_nil _) whole).trans (congrArg some (blend_keys c {}))

theorem ofJson?_restricted_hub :
    ofJson? (.obj [("includeNSG", .bool false), ("teeth", .int 3), ("networkMode", .str "existing")]) =
        some { networkMode := .useExisting, includeNsg := false } ∧
      ofNode? (some (.mapping
        [(.scalar none .plain "includeNSG", .scalar none .plain "False"),
         (.scalar none .plain "teeth", .sequence []),
         (.scalar none .doubleQuoted "networkMode", .scalar none .plain "existing")])) =
        some { networkMode := .useExisting, includeNsg := false } := by
  let c : Configuration :=
    { location? := some "westus2", networkMode := .useExisting, includeNsg := false }
  obtain ⟨object, mapping⟩ := (ofJson?_restricted c).1 ["networkMode", "includeNSG"]
    [("teeth", .int 3)]
    [("includeNSG", .bool false), ("teeth", .int 3), ("networkMode", .str "existing")]
    (by decide) (by decide)
  exact ⟨object, mapping _ (.cons ⟨rfl, by decide⟩ (.cons ⟨rfl, by decide⟩ (.cons ⟨rfl, by decide⟩ .nil)))⟩

end Configuration

end BicepForge
