import BicepForge.Proofs.Assembly.References

/-!
# The wiring of an assembly

What an assembly refers to is declared in it, and a resource waits for exactly those of its
dependencies that are selected and loaded. That holds for every selection, whatever fails to load,
whether the resources are declared in place or in modules of their own.
-/

namespace BicepForge.Assembly

open Bicep Generation References

/-- The symbol under which the main document declares the resource of an id. -/
def symbolFor (config : Configuration) (id : String) : String :=
  if config.generateModules then symbolOf id ++ "Module" else symbolOf id

/-- The ids that the resource of an id has to wait for, in the order of the table: those that are
selected and loaded. -/
def awaited (config : Configuration) (schemas : String → Option ResourceSchema)
    (selection : List CatalogEntry) (id : String) : List String :=
  if config.includeDependencies then (dependenciesOf id).filter (isLoaded schemas selection)
  else []

/-- The list that an entry waits for, if it is an entry of that kind. -/
def waitingList? : Entry → Option (List Value)
  | .property key (.array items) => if key = "dependsOn" then some items else none
  | _ => none

/-- The lists that a body waits for. -/
def waitingLists (body : Body) : List (List Value) :=
  body.filterMap waitingList?

/-- The one list of some symbols, or none where there are none. -/
def listOf (symbols : List String) : List (List Value) :=
  if symbols.isEmpty then [] else [symbols.map .expr]

/-- The parts of an assembly fit together. -/
structure Wired (config : Configuration) (schemas : String → Option ResourceSchema)
    (selection : List CatalogEntry) (a : Assembly) : Prop where
  /-- The members are the selected resources with a schema. -/
  members : a.members.map (·.entry) = selection.filter fun entry => (schemas entry.schema).isSome
  /-- Every name in an expression is declared. -/
  expressions : expressionNames a.document ⊆ declaredNames a.document
  /-- The name of a resource reads declared names too, and what the holes of its id say. -/
  names : ∀ d ∈ a.document.declarations, ∃ m ∈ a.members, ∃ name,
    d.body.head? = some (.property "name" name) ∧
      namesOf name ⊆ declaredNames a.document ++ quotedNames m.id
  /-- Every member is declared, and waits for the symbols of what it has to wait for. -/
  waits : a.document.declarations.map (fun d => (d.symbol, waitingLists d.body)) =
    a.members.map fun m => (symbolFor config m.id,
      listOf ((awaited config schemas selection m.id).map (symbolFor config)))
  /-- An output reads the id or the name of a resource that is declared in place. -/
  outputs : config.generateModules = false → ∀ o ∈ a.document.outputs,
    ∃ r, .resource r ∈ a.document.declarations ∧
      (o.value = .expr (r.symbol ++ ".id") ∨ o.value = .expr (r.symbol ++ ".name"))
  /-- An output reads an output that the document of a declared module has. -/
  moduleOutputs : config.generateModules = true → ∀ o ∈ a.document.outputs,
    ∃ d, .module d ∈ a.document.declarations ∧ ∃ f ∈ a.modules, f.path = d.path ∧
      ∃ out ∈ f.document.outputs, o.value = .expr (d.symbol ++ ".outputs." ++ out.name)
  /-- No member waits for itself, not even through others. -/
  acyclic : ∀ id, ¬ Relation.TransGen (DependsOn (isLoaded schemas selection)) id id

/-! ## What a body waits for -/

theorem waitingLists_append (xs ys : Body) :
    waitingLists (xs ++ ys) = waitingLists xs ++ waitingLists ys :=
  List.filterMap_append

theorem waitingLists_eq_nil {body : Body} (h : ∀ e ∈ body, waitingList? e = none) :
    waitingLists body = [] :=
  List.filterMap_eq_nil_iff.mpr h

theorem waitingLists_waiting (symbols : List String) :
    waitingLists (Batch.waiting symbols) = listOf symbols := by
  unfold Batch.waiting listOf
  split_ifs <;> rfl

theorem waitingList?_of_ne {key : String} (h : key ≠ "dependsOn") (v : Value) :
    waitingList? (.property key v) = none := by
  cases v with
  | array items => exact if_neg h
  | _ => rfl

section Batch

variable {b : Batch} {m : Member}

/-- No settings wait for anything. -/
theorem waitingLists_settingsOf (plan? : Option Member) :
    waitingLists (b.settingsOf m plan?) = [] := by
  refine waitingLists_eq_nil ?_
  unfold Batch.settingsOf
  split
  · rw [List.forall_mem_cons]
    exact ⟨waitingList?_of_ne (by decide) _, by simp⟩
  · cases b.kind m with
    | storageAccount =>
      simp only [Batch.defaultSettings, List.forall_mem_cons]
      exact ⟨rfl, rfl, rfl, by simp⟩
    | virtualNetwork | webSite | nestedDeployment | virtualMachine | generic =>
      simp only [Batch.defaultSettings, List.forall_mem_cons]
      exact ⟨rfl, by simp⟩

theorem waitingLists_inlineResource :
    waitingLists (b.inlineResource m).body = listOf ((b.dependencies m).map Member.symbol) := by
  have name : waitingLists (.property "name" (Batch.resourceName m.id) ::
      Body.onlyIf (b.isLocated m) [.ref "location" "location", .ref "tags" "commonTags"]) = [] := by
    unfold Body.onlyIf
    split_ifs <;> rfl
  have own : waitingLists ((b.ownParameters m).map fun p => .ref p.property p.param.name) = [] := by
    refine waitingLists_eq_nil ?_
    rw [List.forall_mem_map]
    exact fun _ _ => rfl
  simp only [Batch.inlineResource, waitingLists_append, name, own, waitingLists_settingsOf,
    waitingLists_waiting, List.nil_append]

theorem waitingLists_moduleDeclaration :
    waitingLists (b.moduleDeclaration m).body =
      listOf ((b.dependencies m).map Member.moduleSymbol) := by
  have front : waitingLists [.lit "name" (m.id ++ "-deployment"), .nest "params"
      [.ref "location" "location", .ref "environment" "environment",
        .ref "resourcePrefix" "resourcePrefix"]] = [] := rfl
  simp only [Batch.moduleDeclaration, waitingLists_append, front, waitingLists_waiting,
    List.nil_append]

/-! ## What a member waits for -/

theorem member?_isSome (b : Batch) (id : String) :
    (b.member? id).isSome = b.members.any (·.id == id) :=
  List.isSome_find?

/-- Looking up ids finds members of just these ids, where there are any. -/
theorem map_filterMap_member? (f : String → String) (ids : List String) :
    (ids.filterMap b.member?).map (fun m => f m.id) =
      (ids.filter fun id => b.members.any (·.id == id)).map f := by
  induction ids with
  | nil => rfl
  | cons id ids ih =>
    have some := member?_isSome b id
    cases found : b.member? id with
    | none =>
      rw [found] at some
      rw [List.filterMap_cons_none found, ih, List.filter_cons, ← some]
      rfl
    | some m =>
      have same : m.id = id := by simpa using List.find?_some found
      rw [found] at some
      rw [List.filterMap_cons_some found, List.map_cons, ih, List.filter_cons, ← some, same]
      rfl

/-- The members that one waits for are those of the ids that the table gives it. -/
theorem map_dependencies {schemas : String → Option ResourceSchema}
    {selection : List CatalogEntry}
    (h : b.members.map (·.entry) = selection.filter fun entry => (schemas entry.schema).isSome)
    (f : String → String) :
    (b.dependencies m).map (fun other => f other.id) =
      (awaited b.config schemas selection m.id).map f := by
  unfold Batch.dependencies awaited
  split_ifs
  · rw [map_filterMap_member?, funext (any_id_eq_isLoaded h)]
  · rfl

end Batch

/-! ## Documents -/

section Documents

variable (b : Batch) (now : Instant) (titles warnings : List String)

/-- The declarations of the main document, by their symbols and what they wait for. -/
theorem waits_mainDocument {schemas : String → Option ResourceSchema}
    {selection : List CatalogEntry}
    (h : b.members.map (·.entry) = selection.filter fun entry => (schemas entry.schema).isSome) :
    (b.mainDocument now titles warnings).declarations.map
        (fun d => (d.symbol, waitingLists d.body)) =
      b.members.map fun m => (symbolFor b.config m.id,
        listOf ((awaited b.config schemas selection m.id).map (symbolFor b.config))) := by
  cases mode : b.config.generateModules with
  | true =>
    have symbols : symbolFor b.config = fun id => symbolOf id ++ "Module" :=
      funext fun id => if_pos mode
    rw [declarations_modules b now titles warnings mode, List.map_map, symbols]
    refine List.map_congr_left fun m _ => Prod.ext rfl ?_
    rw [← map_dependencies h]
    exact waitingLists_moduleDeclaration
  | false =>
    have symbols : symbolFor b.config = symbolOf := funext fun id => if_neg (by simp [mode])
    rw [declarations_inline b now titles warnings mode, List.map_map, symbols]
    refine List.map_congr_left fun m _ => Prod.ext rfl ?_
    rw [← map_dependencies h]
    exact waitingLists_inlineResource

/-- Every output comes from a member. -/
theorem exists_of_mem_outputs {o : Output}
    (h : o ∈ (b.mainDocument now titles warnings).outputs) :
    ∃ m ∈ b.members, o ∈ b.outputsOf m := by
  simp only [Batch.mainDocument] at h
  split_ifs at h
  · exact List.mem_flatMap.mp h
  · cases h

theorem outputs_inline (mode : b.config.generateModules = false) :
    ∀ o ∈ (b.mainDocument now titles warnings).outputs,
      ∃ r, .resource r ∈ (b.mainDocument now titles warnings).declarations ∧
        (o.value = .expr (r.symbol ++ ".id") ∨ o.value = .expr (r.symbol ++ ".name")) := by
  intro o ho
  obtain ⟨m, hm, ho⟩ := exists_of_mem_outputs b now titles warnings ho
  rw [declarations_inline b now titles warnings mode]
  refine ⟨b.inlineResource m, List.mem_map_of_mem hm, ?_⟩
  simp only [Batch.outputsOf, mode, Bool.false_eq_true, if_false, List.mem_cons,
    List.not_mem_nil, or_false] at ho
  rcases ho with rfl | rfl
  · exact .inl rfl
  · exact .inr rfl

theorem outputs_modules (mode : b.config.generateModules = true) :
    ∀ o ∈ (b.mainDocument now titles warnings).outputs,
      ∃ d, .module d ∈ (b.mainDocument now titles warnings).declarations ∧
        ∃ f ∈ b.moduleFiles, f.path = d.path ∧
          ∃ out ∈ f.document.outputs, o.value = .expr (d.symbol ++ ".outputs." ++ out.name) := by
  intro o ho
  obtain ⟨m, hm, ho⟩ := exists_of_mem_outputs b now titles warnings ho
  rw [declarations_modules b now titles warnings mode, Batch.moduleFiles, if_pos mode]
  refine ⟨b.moduleDeclaration m, List.mem_map_of_mem hm, b.moduleFile m, List.mem_map_of_mem hm,
    rfl, ?_⟩
  -- the module has both outputs under the names that the main document reads
  have read (what : String) : m.moduleSymbol ++ ".outputs." ++ what =
      m.moduleSymbol ++ (".outputs." ++ what) := String.append_assoc
  have id : ".outputs." ++ "resourceId" = ".outputs.resourceId" := by decide +kernel
  have name : ".outputs." ++ "resourceName" = ".outputs.resourceName" := by decide +kernel
  simp only [Batch.outputsOf, mode, if_true, List.mem_cons, List.not_mem_nil, or_false] at ho
  rcases ho with rfl | rfl
  · refine ⟨_, List.mem_cons_self, ?_⟩
    show Value.expr (m.moduleSymbol ++ ".outputs.resourceId") =
      .expr (m.moduleSymbol ++ ".outputs." ++ "resourceId")
    rw [read, id]
  · refine ⟨_, List.mem_cons_of_mem _ List.mem_cons_self, ?_⟩
    show Value.expr (m.moduleSymbol ++ ".outputs.resourceName") =
      .expr (m.moduleSymbol ++ ".outputs." ++ "resourceName")
    rw [read, name]

/-- The names of resources read the common parameters, those of modules nothing. -/
theorem names_mainDocument :
    ∀ d ∈ (b.mainDocument now titles warnings).declarations, ∃ m ∈ b.members, ∃ name,
      d.body.head? = some (.property "name" name) ∧
        namesOf name ⊆ declaredNames (b.mainDocument now titles warnings) ++ quotedNames m.id := by
  intro d hd
  cases mode : b.config.generateModules with
  | true =>
    rw [declarations_modules b now titles warnings mode] at hd
    obtain ⟨m, hm, rfl⟩ := List.mem_map.mp hd
    refine ⟨m, hm, .str (m.id ++ "-deployment"), rfl, ?_⟩
    rw [namesOf_str]
    exact List.nil_subset _
  | false =>
    rw [declarations_inline b now titles warnings mode] at hd
    obtain ⟨m, hm, rfl⟩ := List.mem_map.mp hd
    refine ⟨m, hm, Batch.resourceName m.id, rfl, ?_⟩
    have common := (declared_mainDocument b now titles warnings).common
    simp only [List.cons_subset] at common
    obtain ⟨-, environment, resourcePrefix, -⟩ := common
    rw [namesOf_resourceName, List.append_subset, List.cons_subset, List.cons_subset]
    exact ⟨⟨List.mem_append_left _ resourcePrefix, List.subset_append_right _ _⟩,
      List.mem_append_left _ environment, List.nil_subset _⟩

end Documents

/-- What is assembled from the outcomes for a selection fits together. -/
theorem wired_ofOutcomes (c : Context) (config : Configuration) (settings : Entries Json)
    {schemas : String → Option ResourceSchema} {selection : List CatalogEntry}
    {outcomes : List Outcome}
    (h : (outcomes.filterMap (·.member?)).map (·.entry) =
      selection.filter fun entry => (schemas entry.schema).isSome) :
    Wired config schemas selection (ofOutcomes c config settings selection outcomes) := by
  let b : Batch :=
    { registry := c.registry, config, settings, members := outcomes.filterMap (·.member?) }
  let titles := selection.map (·.name)
  let warnings := outcomes.flatMap (·.warnings)
  exact
    { members := h
      expressions := expressionNames_mainDocument b c.now titles warnings
      names := names_mainDocument b c.now titles warnings
      waits := waits_mainDocument b c.now titles warnings h
      outputs := outputs_inline b c.now titles warnings
      moduleOutputs := outputs_modules b c.now titles warnings
      acyclic := DependsOn.acyclic _ }

/-- Every selection that is not empty is assembled, and its parts fit together: nothing that the
main document refers to is left undeclared, and a resource waits for exactly those of its
dependencies that are selected and loaded. -/
theorem assemble_wired (c : Context) (config : Configuration)
    (schemas : String → Option ResourceSchema) (settings : Entries Json)
    {selection : List CatalogEntry} (h : selection ≠ []) :
    ∃ a, (assemble c config schemas settings selection).1 = .ok a ∧
      Wired config schemas selection a := by
  rw [assemble, if_neg (by simpa using h)]
  exact ⟨_, rfl, wired_ofOutcomes _ config settings (entries_examineAll c selection)⟩

/-- A schema for every resource but storage accounts. -/
def schemasWithoutStorage (name : String) : Option ResourceSchema :=
  if name = "storage-account" then none else some ⟨.obj []⟩

/-- Functions without the storage that they depend on wait for their plan alone. -/
theorem assemble_wired_functions :
    let selection := ["storage", "functions", "appplan"].filterMap Catalog.get?
    selection ≠ [] ∧
      (∃ a, (assemble { registry := .azure, now := ⟨0⟩ } {} schemasWithoutStorage [] selection).1 =
        .ok a ∧ Wired {} schemasWithoutStorage selection a) ∧
      awaited {} schemasWithoutStorage selection "functions" = ["appplan"] := by
  intro selection
  have some : selection ≠ [] := by decide +kernel
  exact ⟨some, assemble_wired _ _ _ _ some, by decide +kernel⟩

end BicepForge.Assembly
