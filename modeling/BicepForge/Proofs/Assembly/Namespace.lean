import BicepForge.Assembly.SchemaDirectory
import BicepForge.Proofs.Assembly.Rearrangement
import BicepForge.Proofs.Assembly.Wiring
import BicepForge.Proofs.Document.ApiVersions
import BicepForge.Proofs.Generation.Namespace
import BicepForge.Proofs.Text.Joined
import Mathlib.Data.List.Pairwise

/-!
# The namespace of an assembly

The main document declares shared names, the parameters of its members' own and a symbol for every
member. Symbols come from ids by dropping characters, and a parameter of a member's own joins its id
to a property, so different ids may lead to the same name. When they do is said exactly; ids like
those of the catalog never do.
-/

namespace BicepForge.Assembly

open Bicep Generation References Check

/-- The names that the main document declares on behalf of all members. -/
def Batch.sharedNames (b : Batch) : List String :=
  ["location", "environment", "resourcePrefix"] ++
    if !b.config.generateModules && b.members.any b.isLocated then ["commonTags"] else []

/-- The ids of the members lead to different names. -/
structure Batch.Apart (b : Batch) : Prop where
  /-- No two ids have the same letters and digits. -/
  symbols : (b.members.map Member.symbol).Nodup
  letters : ∀ m ∈ b.members, startsWithLetter (symbolFor b.config m.id) = true
  /-- In place, no symbol is the name of a parameter or variable that all members share. -/
  shared : b.config.generateModules = false → ∀ m ∈ b.members, m.symbol ∉ b.sharedNames
  /-- In place, no two members lead to the same parameter. -/
  own : b.config.generateModules = false → ∀ m ∈ b.members, ∀ m' ∈ b.members,
    ∀ p ∈ b.ownParameters m, ∀ p' ∈ b.ownParameters m',
      m.id ++ "_" ++ p.property = m'.id ++ "_" ++ p'.property → m.id = m'.id

/-! ## Symbols -/

section Symbols

theorem isAlphanum_symbolFor (config : Configuration) (id : String) :
    ∀ c ∈ (symbolFor config id).toList, c.isAlphanum = true := by
  unfold symbolFor
  split
  · rw [String.toList_append, List.forall_mem_append]
    exact ⟨isAlphanum_symbolOf id, by decide⟩
  · exact isAlphanum_symbolOf id

theorem symbolFor_inj (config : Configuration) {id id' : String} :
    symbolFor config id = symbolFor config id' ↔ symbolOf id = symbolOf id' := by
  unfold symbolFor
  split
  · exact String.append_left_inj "Module"
  · exact Iff.rfl

end Symbols

/-! ## Names -/

section Names

variable {b : Batch}

def Batch.ownNames (b : Batch) (m : Member) : List String :=
  (b.ownParameters m).map (·.param.name)

def Batch.symbols (b : Batch) : List String :=
  b.members.map fun m => symbolFor b.config m.id

theorem sharedNames_subset :
    b.sharedNames ⊆ ["location", "environment", "resourcePrefix", "commonTags"] := by
  intro n h
  show n ∈ ["location", "environment", "resourcePrefix"] ++ ["commonTags"]
  rcases List.mem_append.mp h with fixed | tags
  · exact List.mem_append_left _ fixed
  · exact List.mem_append_right _ (List.mem_ite_nil_right.mp tags).2

theorem sharedNames_spec {n : String} (h : n ∈ b.sharedNames) :
    Value.isIdentifier n = true ∧ '_' ∉ n.toList ∧ ¬ "Module".toList <:+ n.toList := by
  have all : ∀ n ∈ ["location", "environment", "resourcePrefix", "commonTags"],
      Value.isIdentifier n = true ∧ '_' ∉ n.toList ∧ ¬ "Module".toList <:+ n.toList := by
    decide +kernel
  exact all n (sharedNames_subset h)

theorem nodup_sharedNames : b.sharedNames.Nodup := by
  unfold Batch.sharedNames
  split
  · decide
  · decide

theorem ownNames_spec {m : Member} {n : String} (h : n ∈ b.ownNames m) :
    Value.isIdentifier n = true ∧ '_' ∈ n.toList := by
  obtain ⟨p, hp, rfl⟩ := List.mem_map.mp h
  obtain ⟨name, identifier⟩ := name_ownParameter hp
  refine ⟨identifier, ?_⟩
  rw [name, String.toList_append, String.toList_append]
  exact List.mem_append_left _ (List.mem_append_right _ (by decide))

/-- A member has one parameter at most for each property. -/
theorem nodup_property_ownParameters {m : Member} (keys : m.schema.document.hasDistinctKeys = true) :
    ((b.ownParameters m).map (·.property)).Nodup := by
  unfold Batch.ownParameters
  split
  · have distinct : ((m.schema.properties?.getD []).map (·.1)).Nodup := by
      cases found : m.schema.properties? with
      | some entries => exact (ResourceSchema.distinct_properties? keys found).keys
      | none => exact List.nodup_nil
    refine List.pairwise_map.mpr (List.pairwise_filterMap.mpr ?_)
    refine (List.pairwise_map.mp distinct).imp ?_
    rintro ⟨property, schema⟩ ⟨property', schema'⟩ other p hp p' hp'
    obtain ⟨-, -, -, rfl⟩ := Batch.ownParameter?_eq_some_iff.mp hp
    obtain ⟨-, -, -, rfl⟩ := Batch.ownParameter?_eq_some_iff.mp hp'
    exact other
  · exact List.nodup_nil

theorem nodup_ownNames {m : Member} (keys : m.schema.document.hasDistinctKeys = true) :
    (b.ownNames m).Nodup := by
  have named : b.ownNames m = (b.ownParameters m).map fun p => m.id ++ "_" ++ p.property :=
    List.map_congr_left fun p hp => (name_ownParameter hp).1
  rw [named]
  have joined : Function.Injective fun property => m.id ++ "_" ++ property :=
    fun _ _ same => (String.append_right_inj _).mp same
  have names := (nodup_property_ownParameters (b := b) keys).map joined
  rwa [List.map_map] at names

/-- The parameters of all members differ exactly if no two members lead to the same one. -/
theorem nodup_flatMap_ownNames (ids : (b.members.map Member.id).Nodup)
    (keys : ∀ m ∈ b.members, m.schema.document.hasDistinctKeys = true) :
    (b.members.flatMap b.ownNames).Nodup ↔
      ∀ m ∈ b.members, ∀ m' ∈ b.members, ∀ p ∈ b.ownParameters m, ∀ p' ∈ b.ownParameters m',
        m.id ++ "_" ++ p.property = m'.id ++ "_" ++ p'.property → m.id = m'.id := by
  rw [List.nodup_flatMap, and_iff_right fun m hm => nodup_ownNames (keys m hm)]
  constructor
  · intro disjoint m hm m' hm' p hp p' hp' same
    by_contra other
    have symmetric : Std.Symm (Function.onFun List.Disjoint b.ownNames) :=
      ⟨fun _ _ apart _ hn hn' => apart hn' hn⟩
    have apart := disjoint.forall hm hm' fun equal => other (equal ▸ rfl)
    rw [← (name_ownParameter hp).1, ← (name_ownParameter hp').1] at same
    refine apart (List.mem_map_of_mem hp) ?_
    rw [same]
    exact List.mem_map_of_mem hp'
  · intro own
    refine (List.Nodup.of_map _ ids).pairwise_of_forall_ne fun m hm m' hm' other => ?_
    intro n hn hn'
    obtain ⟨p, hp, rfl⟩ := List.mem_map.mp hn
    obtain ⟨p', hp', same⟩ := List.mem_map.mp hn'
    rw [(name_ownParameter hp).1, (name_ownParameter hp').1] at same
    exact other (List.inj_on_of_nodup_map ids hm hm' (own m hm m' hm' p hp p' hp' same.symm))

theorem nodup_symbols_iff : b.symbols.Nodup ↔ (b.members.map Member.symbol).Nodup := by
  unfold Batch.symbols List.Nodup
  rw [List.pairwise_map, List.pairwise_map]
  exact List.Pairwise.iff fun m m' => not_congr (symbolFor_inj b.config)

end Names

/-! ## Documents -/

/-- The names of the parameters of the members' own that the main document declares. -/
def Batch.declaredOwnNames (b : Batch) : List String :=
  if b.config.generateModules then [] else b.members.flatMap b.ownNames

section Documents

variable (b : Batch) (now : Instant) (titles warnings : List String)

theorem perm_declaredNames :
    (declaredNames (b.mainDocument now titles warnings)).Perm
      (b.sharedNames ++ b.declaredOwnNames ++ b.symbols) := by
  have symbols : (b.mainDocument now titles warnings).declarations.map (·.symbol) = b.symbols := by
    cases mode : b.config.generateModules with
    | true =>
      rw [declarations_modules b now titles warnings mode, List.map_map]
      exact List.map_congr_left fun m _ => (if_pos mode).symm
    | false =>
      rw [declarations_inline b now titles warnings mode, List.map_map]
      exact List.map_congr_left fun m _ => (if_neg (by simp [mode])).symm
  have own : (b.mainDocument now titles warnings).parameters.map (·.name) =
      ["location", "environment", "resourcePrefix"] ++ b.declaredOwnNames := by
    rw [Batch.mainDocument, List.map_append, Batch.declaredOwnNames]
    congr 1
    split
    · rfl
    · rw [List.map_flatMap]
      refine List.flatMap_congr fun m _ => ?_
      rw [List.map_map]
      rfl
  have vars : (b.mainDocument now titles warnings).vars.map (·.name) =
      if !b.config.generateModules && b.members.any b.isLocated then ["commonTags"] else [] := by
    simp only [Batch.mainDocument]
    split <;> rfl
  rw [declaredNames, own, vars, symbols]
  refine List.Perm.append_right _ ?_
  rw [Batch.sharedNames, List.append_assoc, List.append_assoc]
  exact List.Perm.append_left _ List.perm_append_comm

theorem declaredOwnNames_spec {n : String} (h : n ∈ b.declaredOwnNames) :
    Value.isIdentifier n = true ∧ '_' ∈ n.toList := by
  unfold Batch.declaredOwnNames at h
  split at h
  · cases h
  · obtain ⟨m, -, own⟩ := List.mem_flatMap.mp h
    exact ownNames_spec own

/-- In modules, no symbol is a shared name. -/
theorem symbols_apart_sharedNames
    (shared : b.config.generateModules = false → ∀ m ∈ b.members, m.symbol ∉ b.sharedNames)
    {n : String} (hn : n ∈ b.sharedNames) : n ∉ b.symbols := by
  intro symbol
  obtain ⟨m, hm, rfl⟩ := List.mem_map.mp symbol
  cases mode : b.config.generateModules with
  | true =>
    rw [symbolFor, if_pos mode] at hn
    refine (sharedNames_spec hn).2.2 ?_
    rw [String.toList_append]
    exact List.suffix_append _ _
  | false =>
    rw [symbolFor, if_neg (by simp [mode])] at hn
    exact shared mode m hm hn

/-- A parameter of a member's own holds a bar, and no symbol does. -/
theorem symbols_apart_declaredOwnNames {n : String} (hn : n ∈ b.declaredOwnNames) :
    n ∉ b.symbols := by
  intro symbol
  obtain ⟨m, -, rfl⟩ := List.mem_map.mp symbol
  have bar := isAlphanum_symbolFor b.config m.id _ (declaredOwnNames_spec b hn).2
  exact absurd bar (by decide)

/-- Of all names that the main document declares only a symbol can fail to be an identifier. -/
theorem areIdentifiers_declaredNames_iff :
    (∀ n ∈ declaredNames (b.mainDocument now titles warnings), Value.isIdentifier n = true) ↔
      ∀ m ∈ b.members, startsWithLetter (symbolFor b.config m.id) = true := by
  have declared (n : String) := (perm_declaredNames b now titles warnings).mem_iff (a := n)
  have shared : ∀ n ∈ b.sharedNames, Value.isIdentifier n = true :=
    fun _ hn => (sharedNames_spec hn).1
  have own : ∀ n ∈ b.declaredOwnNames, Value.isIdentifier n = true :=
    fun _ hn => (declaredOwnNames_spec b hn).1
  simp only [declared, List.forall_mem_append, and_iff_right shared, and_iff_right own,
    Batch.symbols, List.forall_mem_map]
  refine forall₂_congr fun m _ => ?_
  exact isIdentifier_iff_startsWithLetter (isAlphanum_symbolFor b.config m.id)

section Distinct

variable (ids : (b.members.map Member.id).Nodup)
  (keys : ∀ m ∈ b.members, m.schema.document.hasDistinctKeys = true)
include ids keys

theorem nodup_declaredOwnNames_iff :
    b.declaredOwnNames.Nodup ↔
      (b.config.generateModules = false → ∀ m ∈ b.members, ∀ m' ∈ b.members,
        ∀ p ∈ b.ownParameters m, ∀ p' ∈ b.ownParameters m',
          m.id ++ "_" ++ p.property = m'.id ++ "_" ++ p'.property → m.id = m'.id) := by
  unfold Batch.declaredOwnNames
  split
  · rename_i mode
    exact iff_of_true List.nodup_nil fun inPlace => absurd (mode.symm.trans inPlace) (by decide)
  · rename_i mode
    rw [nodup_flatMap_ownNames ids keys]
    exact ⟨fun own _ => own, fun own => own (Bool.eq_false_iff.mpr mode)⟩

/-- The names that the main document declares differ exactly if the symbols do, no symbol is a
shared name, and no two members lead to the same parameter. -/
theorem nodup_declaredNames_iff :
    (declaredNames (b.mainDocument now titles warnings)).Nodup ↔
      (b.members.map Member.symbol).Nodup ∧
      (b.config.generateModules = false → ∀ m ∈ b.members, m.symbol ∉ b.sharedNames) ∧
      (b.config.generateModules = false → ∀ m ∈ b.members, ∀ m' ∈ b.members,
        ∀ p ∈ b.ownParameters m, ∀ p' ∈ b.ownParameters m',
          m.id ++ "_" ++ p.property = m'.id ++ "_" ++ p'.property → m.id = m'.id) := by
  rw [(perm_declaredNames b now titles warnings).nodup_iff]
  constructor
  · intro distinct
    obtain ⟨front, symbols, apart⟩ := List.nodup_append.mp distinct
    obtain ⟨-, own, -⟩ := List.nodup_append.mp front
    refine ⟨nodup_symbols_iff.mp symbols, ?_, (nodup_declaredOwnNames_iff b ids keys).mp own⟩
    intro mode m hm mem
    have inPlace : symbolFor b.config m.id = m.symbol := if_neg (by simp [mode])
    exact apart _ (List.mem_append_left _ mem) _ (List.mem_map_of_mem hm) inPlace.symm
  · rintro ⟨symbols, shared, own⟩
    have front : (b.sharedNames ++ b.declaredOwnNames).Nodup := by
      refine List.nodup_append.mpr
        ⟨nodup_sharedNames, (nodup_declaredOwnNames_iff b ids keys).mpr own, ?_⟩
      rintro n shared n' own rfl
      exact (sharedNames_spec shared).2.1 (declaredOwnNames_spec b own).2
    refine List.nodup_append.mpr ⟨front, nodup_symbols_iff.mpr symbols, ?_⟩
    rintro n hn n' symbol rfl
    rcases List.mem_append.mp hn with hn | hn
    · exact symbols_apart_sharedNames b shared hn symbol
    · exact symbols_apart_declaredOwnNames b hn symbol

/-- The main document has one namespace exactly if the ids lead to different names. -/
theorem oneNamespace_mainDocument_iff :
    OneNamespace (b.mainDocument now titles warnings) ↔ b.Apart := by
  constructor
  · rintro ⟨identifiers, distinct⟩
    obtain ⟨symbols, shared, own⟩ :=
      (nodup_declaredNames_iff b now titles warnings ids keys).mp distinct
    have letters := (areIdentifiers_declaredNames_iff b now titles warnings).mp identifiers
    exact ⟨symbols, letters, shared, own⟩
  · rintro ⟨symbols, letters, shared, own⟩
    constructor
    · exact (areIdentifiers_declaredNames_iff b now titles warnings).mpr letters
    · exact (nodup_declaredNames_iff b now titles warnings ids keys).mpr ⟨symbols, shared, own⟩

end Distinct

theorem names_outputsOf (m : Member) :
    (b.outputsOf m).map (·.name) = [m.symbol ++ "Id", m.symbol ++ "Name"] := by
  unfold Batch.outputsOf
  cases b.config.generateModules <;> rfl

/-- The outputs have different names exactly if the symbols differ, or if there are none. -/
theorem nodup_outputs_iff :
    ((b.mainDocument now titles warnings).outputs.map (·.name)).Nodup ↔
      (b.config.includeOutputs = true → (b.members.map Member.symbol).Nodup) := by
  have ends (s t : String) : s ++ "Id" ≠ t ++ "Name" := by
    intro same
    have id : "Id".toList.getLast? = some 'd' := by decide
    have name : "Name".toList.getLast? = some 'e' := by decide
    have last := congrArg (fun s : String => s.toList.getLast?) same
    simp only [String.toList_append, List.getLast?_append, id, name, Option.some_or] at last
    exact absurd last (by decide)
  have apart (m m' : Member) :
      Function.onFun List.Disjoint (fun m => (b.outputsOf m).map (·.name)) m m' ↔
        m.symbol ≠ m'.symbol := by
    simp only [Function.onFun, names_outputsOf]
    constructor
    · intro disjoint same
      rw [same] at disjoint
      exact disjoint List.mem_cons_self List.mem_cons_self
    · intro other n hn hn'
      simp only [List.mem_cons, List.not_mem_nil, or_false] at hn hn'
      rcases hn with rfl | rfl
      · rcases hn' with same | same
        · exact other ((String.append_left_inj _).mp same)
        · exact ends _ _ same
      · rcases hn' with same | same
        · exact ends _ _ same.symm
        · exact other ((String.append_left_inj _).mp same)
  cases outputs : b.config.includeOutputs with
  | false =>
    have none : (b.mainDocument now titles warnings).outputs = [] := if_neg (by simp [outputs])
    rw [none]
    exact iff_of_true List.nodup_nil fun absurd => by cases absurd
  | true =>
    have names : (b.mainDocument now titles warnings).outputs.map (·.name) =
        b.members.flatMap fun m => (b.outputsOf m).map (·.name) := by
      rw [Batch.mainDocument, if_pos outputs, List.map_flatMap]
    have pair : ∀ m ∈ b.members, ((b.outputsOf m).map (·.name)).Nodup := by
      intro m _
      rw [names_outputsOf, List.nodup_cons, List.mem_singleton]
      exact ⟨ends _ _, List.nodup_cons.mpr ⟨List.not_mem_nil, List.nodup_nil⟩⟩
    rw [names, List.nodup_flatMap, and_iff_right pair, List.Pairwise.iff apart,
      imp_iff_right rfl, List.Nodup, List.pairwise_map]

end Documents

/-! ## Members -/

/-- What a file holds as a schema has distinct keys. -/
theorem SchemaDirectory.hasDistinctKeys_ofFile {name : String} {text : Except FileError String}
    {schema : ResourceSchema} (h : ofFile name text = .ok schema) :
    schema.document.hasDistinctKeys = true := by
  unfold ofFile at h
  split at h
  · cases h
  · rename_i s
    split at h
    · cases h
    · rename_i document read
      obtain rfl := Except.ok.inj h
      unfold Input.parseJson at read
      cases parsed : Json.parse s with
      | error e =>
        rw [parsed] at read
        cases read
      | ok v =>
        rw [parsed] at read
        obtain rfl := Except.ok.inj read
        exact Json.hasDistinctKeys_of_parse parsed

theorem hasDistinctKeys_correction? {check : TypeCheck} {schema : ResourceSchema}
    (keys : schema.document.hasDistinctKeys = true) :
    (((correction? check schema).map (·.schema)).getD schema).document.hasDistinctKeys = true := by
  cases corrected : correction? check schema with
  | none => exact keys
  | some c =>
    unfold correction? at corrected
    split_ifs at corrected
    obtain ⟨latest, -, made⟩ := Option.bind_eq_some_iff.mp corrected
    obtain ⟨other, replaced, rfl⟩ := Option.map_eq_some_iff.mp made
    exact ResourceSchema.hasDistinctKeys_withApiVersions? keys replaced

/-- The schema of a member has distinct keys, also where its API versions were put right. -/
theorem hasDistinctKeys_member {schemas : String → Option ResourceSchema}
    (keys : ∀ name schema, schemas name = some schema → schema.document.hasDistinctKeys = true)
    (c : Context) (selection : List CatalogEntry) :
    ∀ m ∈ (examineAll schemas c selection).1.filterMap (·.member?),
      m.schema.document.hasDistinctKeys = true := by
  intro m hm
  rw [outcomes_eq_map selection (.refl c), List.filterMap_map] at hm
  obtain ⟨entry, -, made⟩ := List.mem_filterMap.mp hm
  simp only [Function.comp_apply, examine] at made
  cases loaded : schemas entry.schema with
  | none =>
    rw [loaded] at made
    cases made
  | some schema =>
    rw [loaded] at made
    obtain rfl := Option.some.inj made
    exact hasDistinctKeys_correction? (keys _ _ loaded)

/-! ## Plain ids -/

/-- Letters and digits, a letter first, that are not the name of something else. -/
def isPlainId (id : String) : Bool :=
  id.toList.all Char.isAlphanum && startsWithLetter id &&
    !(["location", "environment", "resourcePrefix", "commonTags"].contains id)

theorem isPlainId_catalog : ∀ id ∈ Catalog.ids, isPlainId id = true := by
  decide +kernel

theorem symbolOf_of_isAlphanum {id : String} (h : ∀ c ∈ id.toList, c.isAlphanum = true) :
    symbolOf id = id := by
  rw [symbolOf, alphanumerics, List.filter_eq_self.mpr h, String.ofList_toList]

theorem startsWithLetter_append {s t : String} (h : startsWithLetter s = true) :
    startsWithLetter (s ++ t) = true := by
  unfold startsWithLetter at h ⊢
  cases hs : s.toList with
  | nil =>
    rw [hs] at h
    cases h
  | cons c cs =>
    rw [hs] at h
    rw [String.toList_append, hs]
    exact h

/-- Plain ids are their own symbols and hold no bar, so different ones lead to different names. -/
theorem Batch.apart_of_isPlainId {b : Batch} (ids : (b.members.map Member.id).Nodup)
    (plain : ∀ m ∈ b.members, isPlainId m.id = true) : b.Apart := by
  have letters {m : Member} (hm : m ∈ b.members) : ∀ c ∈ m.id.toList, c.isAlphanum = true := by
    have parts := plain m hm
    simp only [isPlainId, Bool.and_eq_true] at parts
    exact List.all_eq_true.mp parts.1.1
  have symbol {m : Member} (hm : m ∈ b.members) : m.symbol = m.id :=
    symbolOf_of_isAlphanum (letters hm)
  exact
    { symbols := by
        rw [List.map_congr_left fun m hm => symbol hm]
        exact ids
      letters := by
        intro m hm
        have parts := plain m hm
        simp only [isPlainId, Bool.and_eq_true] at parts
        rw [symbolFor, symbolOf_of_isAlphanum (letters hm)]
        split
        · exact startsWithLetter_append parts.1.2
        · exact parts.1.2
      shared := by
        intro _ m hm mem
        have parts := plain m hm
        simp only [isPlainId, Bool.and_eq_true, Bool.not_eq_true', List.contains_eq_mem,
          decide_eq_false_iff_not] at parts
        rw [symbol hm] at mem
        exact parts.2 (sharedNames_subset mem)
      own := by
        intro _ m hm m' hm' p _ p' _ same
        have mark : "_".toList = '_' :: [] := by decide
        have noBar {m : Member} (hm : m ∈ b.members) : '_' ∉ m.id.toList :=
          fun bar => absurd (letters hm _ bar) (by decide)
        exact (Text.joined_inj mark (noBar hm) (noBar hm') same).1 }

/-! ## Assemblies -/

/-- An assembly of resources with distinct ids has one namespace exactly if the ids lead to
different names, as plain ones do, and its outputs have different names exactly if the symbols
differ. Schemas are taken to have distinct keys, as all that come from files have. -/
theorem assemble_namespace (c : Context) (config : Configuration)
    {schemas : String → Option ResourceSchema}
    (keys : ∀ name schema, schemas name = some schema → schema.document.hasDistinctKeys = true)
    (settings : Entries Json) {selection : List CatalogEntry} (nonempty : selection ≠ [])
    (distinct : (selection.map (·.id)).Nodup) :
    ∃ a, (assemble c config schemas settings selection).1 = .ok a ∧
      let b : Batch := ⟨c.registry, config, settings, a.members⟩
      (OneNamespace a.document ↔ b.Apart) ∧
      ((a.document.outputs.map (·.name)).Nodup ↔
        (config.includeOutputs = true → (a.members.map Member.symbol).Nodup)) ∧
      ((∀ entry ∈ selection, isPlainId entry.id = true) → b.Apart) := by
  rw [assemble, if_neg (by simpa using nonempty)]
  refine ⟨_, rfl, ?_⟩
  have registry := (@sameKnowledge_examineAll schemas c selection).registry
  have ids := @nodup_ids schemas selection distinct c
  have distinctKeys := hasDistinctKeys_member keys c selection
  simp only [ofOutcomes, registry]
  refine ⟨oneNamespace_mainDocument_iff _ _ _ _ ids distinctKeys, nodup_outputs_iff _ _ _ _, ?_⟩
  intro plain
  refine Batch.apart_of_isPlainId ids fun m hm => ?_
  have entry : m.entry ∈ selection.filter fun entry => (schemas entry.schema).isSome := by
    rw [← @entries_examineAll schemas c selection]
    exact List.mem_map_of_mem hm
  exact plain m.entry (List.mem_filter.mp entry).1

/-- A schema of two properties: the type, and one more. -/
def gearSchema (property : String) : ResourceSchema :=
  ⟨.obj [("properties", .obj
    [("type", .obj [("const", .str "Acme/gears")]), (property, .obj [])])]⟩

/-- The whole catalog makes one namespace. -/
theorem assemble_namespace_catalog :
    let c : Context := { registry := .azure, now := ⟨0⟩ }
    let schemas := fun _ : String => some (gearSchema "teeth")
    (∀ name schema, schemas name = some schema → schema.document.hasDistinctKeys = true) ∧
      Catalog.entries ≠ [] ∧ (Catalog.entries.map (·.id)).Nodup ∧
      ∃ a, (assemble c {} schemas [] Catalog.entries).1 = .ok a ∧ OneNamespace a.document ∧
        (a.document.outputs.map (·.name)).Nodup := by
  intro c schemas
  have keys : ∀ name schema, schemas name = some schema →
      schema.document.hasDistinctKeys = true := by
    intro name schema loaded
    obtain rfl := Option.some.inj loaded
    decide +kernel
  have nonempty : Catalog.entries ≠ [] := List.cons_ne_nil _ _
  have distinct : (Catalog.entries.map (·.id)).Nodup := by decide
  obtain ⟨a, made, one, outputs, plain⟩ :=
    assemble_namespace c {} keys [] nonempty distinct
  have apart := plain (List.forall_mem_map.mp isPlainId_catalog)
  exact ⟨keys, nonempty, distinct, a, made, one.mpr apart, outputs.mpr fun _ => apart.symbols⟩

/-- Two ids and two properties that join to one parameter, and two ids with the same letters. -/
theorem joined_declared_twice :
    let c : Context := { registry := .azure, now := ⟨0⟩ }
    let joined : List CatalogEntry := [⟨"a", "A", "b_c"⟩, ⟨"a_b", "B", "c"⟩]
    let sites : List CatalogEntry := [⟨"web-plan", "A", "b"⟩, ⟨"webplan", "B", "c"⟩]
    let schemas := fun name => some (gearSchema name)
    (joined.map (·.id)).Nodup ∧ (sites.map (·.id)).Nodup ∧
      (∃ a, (assemble c {} schemas [] joined).1 = .ok a ∧ ¬ OneNamespace a.document) ∧
      ∃ a, (assemble c {} schemas [] sites).1 = .ok a ∧ ¬ OneNamespace a.document ∧
        ¬ (a.document.outputs.map (·.name)).Nodup := by
  intro c joined sites schemas
  refine ⟨by decide, by decide, ⟨_, rfl, ?_⟩, _, rfl, ?_, ?_⟩
  · intro one
    have once := List.nodup_iff_count_le_one.mp one.distinct "a_b_c"
    exact absurd once (by decide +kernel)
  · intro one
    have once := List.nodup_iff_count_le_one.mp one.distinct "webplan"
    exact absurd once (by decide +kernel)
  · decide +kernel

end BicepForge.Assembly
