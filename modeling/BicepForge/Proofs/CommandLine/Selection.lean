import BicepForge.Proofs.Assembly.Namespace
import BicepForge.Proofs.Assembly.Package
import BicepForge.Proofs.CommandLine.ExitCodes

/-!
# Selections

A user names resources by their ids in the catalog. Main statement: a list of ids makes a selection
exactly if the catalog has all of them, and is refused for the first one that it does not have; a
selection holds each resource once, in the order in which they are named first. Whatever the
schemas, settings and configuration are, the assembly of a selection gives different names to all
that its main document declares, to its outputs and to the files of its package.
-/

namespace BicepForge

/-! ## Lists without repetitions -/

section EraseDups

variable {α : Type} [BEq α] [LawfulBEq α]

/-- An element that is added at the end counts if it is new. -/
theorem eraseDups_concat (xs : List α) (x : α) :
    (xs ++ [x]).eraseDups = xs.eraseDups ++ if x ∈ xs then [] else [x] := by
  rw [List.eraseDups_append, List.cons_removeAll, List.nil_removeAll, List.contains_eq_mem]
  by_cases mem : x ∈ xs
  · simp [mem]
  · simp [mem, List.eraseDups_cons]

theorem nodup_eraseDups (xs : List α) : xs.eraseDups.Nodup := by
  induction xs using List.reverseRecOn with
  | nil => exact List.nodup_nil
  | append_singleton xs x ih =>
    rw [eraseDups_concat]
    split
    · rwa [List.append_nil]
    · rename_i new
      refine ih.append (List.nodup_singleton x) ?_
      rw [List.disjoint_singleton, List.mem_eraseDups]
      exact new

end EraseDups

/-! ## The catalog -/

namespace Catalog

theorem get?_id : ∀ entry ∈ entries, get? entry.id = some entry := by
  decide

theorem get?_eq_some_iff {id : String} {entry : CatalogEntry} :
    get? id = some entry ↔ entry ∈ entries ∧ entry.id = id := by
  constructor
  · intro found
    rw [get?] at found
    have same := List.find?_some found
    exact ⟨List.mem_of_find?_eq_some found, eq_of_beq same⟩
  · rintro ⟨mem, rfl⟩
    exact get?_id entry mem

theorem exists_get?_of_mem {id : String} (h : id ∈ ids) : ∃ entry, get? id = some entry := by
  obtain ⟨entry, mem, same⟩ := List.mem_map.mp h
  exact ⟨entry, get?_eq_some_iff.mpr ⟨mem, same⟩⟩

theorem get?_of_notMem {id : String} (h : id ∉ ids) : get? id = none := by
  rw [Option.eq_none_iff_forall_ne_some]
  intro entry found
  obtain ⟨mem, rfl⟩ := get?_eq_some_iff.mp found
  exact h (List.mem_map_of_mem mem)

/-- The resources of ids that the catalog has are those with these ids. -/
theorem map_id_filterMap_get? {given : List String} (h : given ⊆ ids) :
    (given.filterMap get?).map (·.id) = given := by
  induction given with
  | nil => rfl
  | cons id rest ih =>
    obtain ⟨first, others⟩ := List.cons_subset.mp h
    obtain ⟨entry, found⟩ := exists_get?_of_mem first
    rw [List.filterMap_cons_some found, List.map_cons, ih others, (get?_eq_some_iff.mp found).2]

theorem filterMap_get?_map_id {selection : List CatalogEntry} (h : selection ⊆ entries) :
    (selection.map (·.id)).filterMap get? = selection := by
  induction selection with
  | nil => rfl
  | cons entry rest ih =>
    obtain ⟨first, others⟩ := List.cons_subset.mp h
    rw [List.map_cons, List.filterMap_cons_some (get?_eq_some_iff.mpr ⟨first, rfl⟩), ih others]

end Catalog

/-! ## What is selected -/

namespace CommandLine

/-- One more id adds its resource if it is new, and makes the selection fail if there is none. -/
theorem select_concat (ids : List String) (id : String) :
    select (ids ++ [id]) = (select ids).bind fun selection =>
      match Catalog.get? id with
      | none => .error (.unknownResource id)
      | some entry => .ok (if entry ∈ selection then selection else selection ++ [entry]) := by
  rw [select, List.foldlM_append]
  simp only [List.foldlM_cons, List.foldlM_nil, bind_pure]
  rfl

/-- The first of some ids that the catalog does not have. -/
def firstUnknown? (ids : List String) : Option String :=
  ids.find? fun id => decide (id ∉ Catalog.ids)

theorem firstUnknown?_eq_none_iff {ids : List String} :
    firstUnknown? ids = none ↔ ids ⊆ Catalog.ids := by
  simp [firstUnknown?, List.subset_def]

theorem firstUnknown?_eq_some_iff {ids : List String} {id : String} :
    firstUnknown? ids = some id ↔
      ∃ front rest, ids = front ++ id :: rest ∧ front ⊆ Catalog.ids ∧ id ∉ Catalog.ids := by
  rw [firstUnknown?, List.find?_eq_some_iff_append, decide_eq_true_eq]
  constructor
  · rintro ⟨unknown, front, rest, split, known⟩
    exact ⟨front, rest, split, fun id mem => by simpa using known id mem, unknown⟩
  · rintro ⟨front, rest, split, known, unknown⟩
    exact ⟨unknown, front, rest, split, fun id mem => by simpa using known mem⟩

/-- Selecting in one equation. -/
theorem select_eq (ids : List String) :
    select ids = match firstUnknown? ids with
      | some id => .error (.unknownResource id)
      | none => .ok (ids.eraseDups.filterMap Catalog.get?) := by
  induction ids using List.reverseRecOn with
  | nil => rfl
  | append_singleton ids id ih =>
    have first : firstUnknown? (ids ++ [id]) =
        (firstUnknown? ids).or (firstUnknown? [id]) := List.find?_append
    rw [select_concat, ih, first]
    cases known : firstUnknown? ids with
    | some unknown => rfl
    | none =>
      rw [Option.none_or]
      by_cases mem : id ∈ Catalog.ids
      · have none : firstUnknown? [id] = none :=
          firstUnknown?_eq_none_iff.mpr (List.cons_subset.mpr ⟨mem, List.nil_subset _⟩)
        obtain ⟨entry, found⟩ := Catalog.exists_get?_of_mem mem
        have selected : entry ∈ ids.eraseDups.filterMap Catalog.get? ↔ id ∈ ids := by
          rw [List.mem_filterMap]
          constructor
          · rintro ⟨other, given, found'⟩
            have same := (Catalog.get?_eq_some_iff.mp found').2
            rw [← same, (Catalog.get?_eq_some_iff.mp found).2] at given
            exact List.mem_eraseDups.mp given
          · exact fun given => ⟨id, List.mem_eraseDups.mpr given, found⟩
        rw [none, found, eraseDups_concat, List.filterMap_append]
        simp only [Except.bind, selected]
        split
        · simp
        · simp [found]
      · have unknown : firstUnknown? [id] = some id :=
          List.find?_cons_of_pos (decide_eq_true mem)
        rw [unknown, Catalog.get?_of_notMem mem]
        rfl

/-- A selection is refused for the first id that the catalog does not have. -/
theorem select_eq_error_iff {ids : List String} {f : Failure} :
    select ids = .error f ↔ ∃ front id rest, ids = front ++ id :: rest ∧
      front ⊆ Catalog.ids ∧ id ∉ Catalog.ids ∧ f = .unknownResource id := by
  rw [select_eq]
  cases unknown : firstUnknown? ids with
  | none =>
    have known := firstUnknown?_eq_none_iff.mp unknown
    refine iff_of_false (fun refused => by cases refused) ?_
    rintro ⟨front, id, rest, rfl, -, other, -⟩
    exact other (known (List.mem_append_right _ List.mem_cons_self))
  | some id =>
    constructor
    · intro refused
      obtain ⟨front, rest, split, known, other⟩ := firstUnknown?_eq_some_iff.mp unknown
      exact ⟨front, id, rest, split, known, other, (Except.error.inj refused).symm⟩
    · rintro ⟨front, id', rest, split, known, other, rfl⟩
      have first := firstUnknown?_eq_some_iff.mpr ⟨front, rest, split, known, other⟩
      rw [Option.some.inj (unknown.symm.trans first)]

/-- Otherwise it holds the resources of the given ids, each once. -/
theorem select_eq_ok_iff {ids : List String} {selection : List CatalogEntry} :
    select ids = .ok selection ↔
      ids ⊆ Catalog.ids ∧ selection ⊆ Catalog.entries ∧
        selection.map (·.id) = ids.eraseDups := by
  rw [select_eq]
  cases unknown : firstUnknown? ids with
  | some id =>
    refine iff_of_false (fun selected => by cases selected) ?_
    rintro ⟨known, -⟩
    rw [firstUnknown?_eq_none_iff.mpr known] at unknown
    cases unknown
  | none =>
    have known := firstUnknown?_eq_none_iff.mp unknown
    have once : ids.eraseDups ⊆ Catalog.ids := fun id mem => known (List.mem_eraseDups.mp mem)
    constructor
    · intro selected
      obtain rfl := Except.ok.inj selected
      refine ⟨known, fun entry mem => ?_, Catalog.map_id_filterMap_get? once⟩
      obtain ⟨id, -, found⟩ := List.mem_filterMap.mp mem
      exact (Catalog.get?_eq_some_iff.mp found).1
    · rintro ⟨-, listed, same⟩
      rw [← same, Catalog.filterMap_get?_map_id listed]

end CommandLine

/-! ## Names of what is built -/

namespace Assembly

open Generation

/-- What an assembly builds has different names: all that the main document declares, the outputs,
and the files of the package. -/
structure HasDistinctNames (a : Assembly) : Prop where
  document : OneNamespace a.document
  outputs : (a.document.outputs.map (·.name)).Nodup
  paths : (packagePaths a).Nodup

/-- Every schema is what a file under its name holds. -/
def FromFiles (schemas : String → Option ResourceSchema) : Prop :=
  ∀ name schema, schemas name = some schema →
    ∃ text, SchemaDirectory.ofFile name (.ok text) = .ok schema

theorem FromFiles.hasDistinctKeys {schemas : String → Option ResourceSchema}
    (h : FromFiles schemas) (name : String) (schema : ResourceSchema)
    (loaded : schemas name = some schema) : schema.document.hasDistinctKeys = true := by
  obtain ⟨text, read⟩ := h name schema loaded
  exact SchemaDirectory.hasDistinctKeys_ofFile read

/-- Resources with distinct plain ids make an assembly with different names. -/
theorem exists_hasDistinctNames (c : Context) (config : Configuration)
    {schemas : String → Option ResourceSchema} (files : FromFiles schemas)
    (settings : Entries Json) {selection : List CatalogEntry} (some : selection ≠ [])
    (distinct : (selection.map (·.id)).Nodup)
    (plain : ∀ entry ∈ selection, isPlainId entry.id = true) :
    ∃ a, (assemble c config schemas settings selection).1 = .ok a ∧ HasDistinctNames a := by
  have made := congrArg Prod.fst (assemble_of_ne_nil some c config schemas settings)
  refine ⟨_, made, ?_⟩
  have ids := @nodup_ids schemas selection distinct c
  have keys := hasDistinctKeys_member files.hasDistinctKeys c selection
  let b : Batch :=
    { registry := (examineAll schemas c selection).2.registry
      config, settings
      members := (examineAll schemas c selection).1.filterMap (·.member?) }
  have apart : b.Apart := by
    refine Batch.apart_of_isPlainId ids fun m hm => plain m.entry ?_
    have entry : m.entry ∈ selection.filter fun entry => (schemas entry.schema).isSome := by
      rw [← @entries_examineAll schemas c selection]
      exact List.mem_map_of_mem hm
    exact (List.mem_filter.mp entry).1
  exact
    { document := (oneNamespace_mainDocument_iff b _ _ _ ids keys).mpr apart
      outputs := (nodup_outputs_iff b _ _ _).mpr fun _ => apart.symbols
      paths := (hasModulePaths_of_assemble made distinct).nodup }

end Assembly

namespace CommandLine

open Assembly

/-- What holds of the value of every step holds of the values of all steps. -/
theorem forall_of_after_mapM {σ α β : Type} {f : α → Task (StateM σ) β} {P : β → Prop}
    (step : ∀ a c w b c' w', (f a).after c w = ((.ok b, c'), w') → P b) {xs : List α}
    {ys : List β} {c c' : Console} {w w' : σ}
    (h : (xs.mapM f).after c w = ((.ok ys, c'), w')) : ∀ y ∈ ys, P y := by
  induction xs generalizing ys c w with
  | nil =>
    cases h
    exact List.forall_mem_nil _
  | cons x xs ih =>
    rw [List.mapM_cons] at h
    obtain ⟨y, c₁, w₁, first, rest⟩ := exists_of_after_bind h
    obtain ⟨others, c₂, w₂, later, done⟩ := exists_of_after_bind rest
    cases done
    exact List.forall_mem_cons.mpr ⟨step x c w y c₁ w₁ first, ih later⟩

/-- What a command loads as schemas comes from files. -/
theorem fromFiles_of_loadSchemas {σ : Type} {s : Site (StateM σ)} {directory : SchemaDirectory}
    {selection : List CatalogEntry} {found : Entries ResourceSchema} {c c' : Console} {w w' : σ}
    (h : (loadSchemas s directory selection).after c w = ((.ok found, c'), w')) :
    FromFiles fun name => found.lookup name := by
  obtain ⟨results, c₁, w₁, loaded, done⟩ := exists_of_after_bind h
  cases done
  have read : ∀ result ∈ results, ∀ e : String × ResourceSchema, result = some e →
      ∃ text, SchemaDirectory.ofFile e.1 (.ok text) = .ok e.2 := by
    refine forall_of_after_mapM (fun entry c w result c' w' one => ?_) loaded
    obtain ⟨r, c₁, w₁, asked, done⟩ := exists_of_after_bind one
    rw [after_liftM] at asked
    cases asked
    cases done
    intro e same
    obtain ⟨schema, kept, rfl⟩ := Option.map_eq_some_iff.mp same
    have load : ((directory.load s.files entry.schema).run w).1 =
        SchemaDirectory.ofFile entry.schema
          ((s.files.read (directory.path entry.schema)).run w).1 := rfl
    cases text : ((s.files.read (directory.path entry.schema)).run w).1 with
    | error fault =>
      rw [load, text] at kept
      cases kept
    | ok text' =>
      refine ⟨text', ?_⟩
      rw [load, text] at kept
      cases parsed : SchemaDirectory.ofFile entry.schema (.ok text') with
      | error fault =>
        rw [parsed] at kept
        cases kept
      | ok schema' =>
        rw [parsed] at kept
        cases kept
        rfl
  intro name schema loaded
  have mem := Entries.mem_of_lookup loaded
  rw [List.mem_filterMap] at mem
  obtain ⟨result, given, same⟩ := mem
  exact read result given _ same

/-- Ids are refused for the first one that the catalog does not have. Otherwise the selection holds
the resources of the distinct ids in the order in which these come first. Unless it is empty, it is
assembled into something with different names, with any schemas that come from files, as those do
that a command loads. -/
theorem select_distinct (ids : List String) :
    (∀ f, select ids = .error f ↔ ∃ front id rest, ids = front ++ id :: rest ∧
      front ⊆ Catalog.ids ∧ id ∉ Catalog.ids ∧ f = .unknownResource id) ∧
    (∀ selection, select ids = .ok selection ↔
      ids ⊆ Catalog.ids ∧ selection ⊆ Catalog.entries ∧
        selection.map (·.id) = ids.eraseDups) ∧
    (∀ selection, select ids = .ok selection → ∀ c config schemas settings, FromFiles schemas →
      (ids = [] ∧
        (Assembly.assemble c config schemas settings selection).1 = .error .emptySelection) ∨
      ∃ a, (Assembly.assemble c config schemas settings selection).1 = .ok a ∧
        HasDistinctNames a) ∧
    ∀ {σ : Type} (s : Site (StateM σ)) directory selection c c' w w' found,
      (loadSchemas s directory selection).after c w = ((.ok found, c'), w') →
      FromFiles fun name => found.lookup name := by
  refine ⟨fun f => select_eq_error_iff, fun selection => select_eq_ok_iff, ?_,
    fun s directory selection c c' w w' found => fromFiles_of_loadSchemas⟩
  intro selection selected c config schemas settings files
  obtain ⟨known, listed, once⟩ := select_eq_ok_iff.mp selected
  by_cases empty : ids = []
  · subst empty
    obtain rfl := List.map_eq_nil_iff.mp once
    exact .inl ⟨rfl, rfl⟩
  · right
    have some : selection ≠ [] := by
      rintro rfl
      obtain ⟨id, mem⟩ := List.exists_mem_of_ne_nil ids empty
      rw [← List.mem_eraseDups, ← once] at mem
      cases mem
    refine exists_hasDistinctNames c config files settings some (once ▸ nodup_eraseDups ids) ?_
    exact fun entry mem => isPlainId_catalog _ (List.mem_map_of_mem (listed mem))

/-- A directory with the schemas of a vault and of a storage account. -/
def vaultTree : Files.Tree :=
  treeOf
    [("key-vault.json", "\x7b\"properties\":\x7b\"type\":\x7b\"const\":" ++
        "\"Microsoft.KeyVault/vaults\"\x7d,\"sku\":\x7b\x7d\x7d\x7d"),
     ("storage-account.json", "\x7b\x7d")]

def vaultSelection : List CatalogEntry :=
  ["keyvault", "storage"].filterMap Catalog.get?

def vaultSchemas : Entries ResourceSchema :=
  [("key-vault", ⟨.obj [("properties", .obj
      [("type", .obj [("const", .str "Microsoft.KeyVault/vaults")]), ("sku", .obj [])])]⟩),
   ("storage-account", ⟨.obj []⟩)]

theorem loadSchemas_vault :
    ∃ c w, (loadSchemas treeSite ⟨"."⟩ vaultSelection).after {} vaultTree =
      ((.ok vaultSchemas, c), w) := by
  have loaded : ((loadSchemas treeSite ⟨"."⟩ vaultSelection).after {} vaultTree).1.1.toOption =
      some vaultSchemas := by decide +kernel
  generalize (loadSchemas treeSite ⟨"."⟩ vaultSelection).after {} vaultTree = r at loaded ⊢
  obtain ⟨⟨f | found, c⟩, w⟩ := r
  · cases loaded
  · cases loaded
    exact ⟨c, w, rfl⟩

/-- A vault that is named twice is selected once. With the schemas in the directory, its parameter
joins the ones that all resources share. -/
theorem select_distinct_vault :
    select ["keyvault", "storage", "keyvault"] = .ok vaultSelection ∧
      FromFiles (fun name => vaultSchemas.lookup name) ∧
      ∃ a, (Assembly.assemble { registry := .azure, now := ⟨0⟩ } {}
          (fun name => vaultSchemas.lookup name) [] vaultSelection).1 = .ok a ∧
        HasDistinctNames a ∧
        a.document.parameters.map (·.name) =
          ["location", "environment", "resourcePrefix", "keyvault_sku"] := by
  obtain ⟨-, -, named, files⟩ := select_distinct ["keyvault", "storage", "keyvault"]
  obtain ⟨c, w, loaded⟩ := loadSchemas_vault
  have read := files treeSite ⟨"."⟩ vaultSelection {} c vaultTree w vaultSchemas loaded
  have names : ((Assembly.assemble { registry := .azure, now := ⟨0⟩ } {}
      (fun name => vaultSchemas.lookup name) [] vaultSelection).1.toOption.map fun a =>
        a.document.parameters.map (·.name)) =
      some ["location", "environment", "resourcePrefix", "keyvault_sku"] := by decide +kernel
  rcases named vaultSelection rfl { registry := .azure, now := ⟨0⟩ } {} _ [] read with
    ⟨empty, -⟩ | ⟨a, made, distinct⟩
  · cases empty
  · rw [made] at names
    exact ⟨rfl, read, a, made, distinct, Option.some.inj names⟩

end CommandLine

end BicepForge
