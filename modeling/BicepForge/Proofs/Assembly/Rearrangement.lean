import BicepForge.Proofs.Assembly.Members
import BicepForge.Proofs.Check.Knowledge
import BicepForge.Proofs.Json.Keys

/-!
# Rearranged selections

The order of a selection shows in an assembly as an order and nowhere else. What becomes of a
resource does not depend on those before it, since checks never change what is known; and the
members find each other by their ids, wherever they stand.
-/

namespace BicepForge.Assembly

open Check

/-! ## Outcomes -/

section Outcomes

variable {schemas : String → Option ResourceSchema} {c d : Context}

theorem outcome_eq (h : SameKnowledge c d) (entry : CatalogEntry) :
    (examine schemas d entry).1 = (examine schemas c entry).1 := by
  unfold examine
  cases schemas entry.schema with
  | none => rfl
  | some schema =>
    have result := h.result_eq (schema.resourceType?.getD nestedDeploymentType) schema
    have registry := (surroundings_checkType d
      (schema.resourceType?.getD nestedDeploymentType) schema).1
    have registry' := (surroundings_checkType c
      (schema.resourceType?.getD nestedDeploymentType) schema).1
    simp only [accept, result, registry, registry', h.registry]

theorem sameKnowledge_examine (c : Context) (entry : CatalogEntry) :
    SameKnowledge c (examine schemas c entry).2 := by
  unfold examine
  cases schemas entry.schema with
  | none => exact .refl c
  | some schema => exact sameKnowledge_checkType c _ schema

/-- Every resource has the outcome that it would have alone. -/
theorem outcomes_eq_map (selection : List CatalogEntry) (h : SameKnowledge c d) :
    (examineAll schemas d selection).1 =
      selection.map fun entry => (examine schemas c entry).1 := by
  -- the context may learn on the way, but it knows the same as the one before all checks
  induction selection generalizing d with
  | nil => rfl
  | cons entry rest ih =>
    have later := ih (h.trans (@sameKnowledge_examine schemas d entry))
    rw [examineAll, List.map_cons, ← outcome_eq h entry, ← later]

theorem sameKnowledge_examineAll (selection : List CatalogEntry) :
    SameKnowledge c (examineAll schemas c selection).2 := by
  induction selection generalizing c with
  | nil => exact .refl c
  | cons entry rest ih => exact (sameKnowledge_examine c entry).trans ih

end Outcomes

/-! ## Batches -/

section Batch

variable {b : Batch} {members : List Member}

/-- The batch with its members in another order. -/
def Batch.rearranged (b : Batch) (members : List Member) : Batch :=
  { b with members }

section Members

variable (h : b.members.Perm members) (distinct : (b.members.map Member.id).Nodup)
include h distinct

theorem member?_rearranged : (b.rearranged members).member? = b.member? :=
  funext fun id => (find?_eq_of_perm h distinct id).symm

theorem dependencies_rearranged (m : Member) :
    (b.rearranged members).dependencies m = b.dependencies m := by
  rw [Batch.dependencies, Batch.dependencies, member?_rearranged h distinct]
  rfl

theorem inlineResource_rearranged (m : Member) :
    (b.rearranged members).inlineResource m = b.inlineResource m := by
  rw [Batch.inlineResource, Batch.inlineResource, dependencies_rearranged h distinct,
    member?_rearranged h distinct]
  rfl

theorem moduleDeclaration_rearranged (m : Member) :
    (b.rearranged members).moduleDeclaration m = b.moduleDeclaration m := by
  rw [Batch.moduleDeclaration, Batch.moduleDeclaration, dependencies_rearranged h distinct]

end Members

end Batch

/-! ## Documents -/

section Documents

variable (b : Batch) {members : List Member} (now now' : Instant) (titles titles' : List String)
  (warnings warnings' : List String)

theorem declarations_rearranged (h : b.members.Perm members)
    (distinct : (b.members.map Member.id).Nodup) :
    (b.mainDocument now titles warnings).declarations.Perm
      ((b.rearranged members).mainDocument now' titles' warnings').declarations := by
  have inline : (b.rearranged members).inlineResource = b.inlineResource :=
    funext (inlineResource_rearranged h distinct)
  have module : (b.rearranged members).moduleDeclaration = b.moduleDeclaration :=
    funext (moduleDeclaration_rearranged h distinct)
  simp only [Batch.mainDocument, inline, module]
  show List.Perm (if b.config.generateModules then _ else _)
    (if b.config.generateModules then _ else _)
  split
  · exact h.map _
  · exact h.map _

theorem parameters_rearranged (h : b.members.Perm members) :
    (b.mainDocument now titles warnings).parameters.Perm
      ((b.rearranged members).mainDocument now' titles' warnings').parameters := by
  refine List.Perm.append_left _ ?_
  show List.Perm (if b.config.generateModules then _ else _)
    (if b.config.generateModules then _ else _)
  split
  · exact .refl _
  · exact h.flatMap_right _

theorem vars_rearranged (h : b.members.Perm members) :
    (b.mainDocument now titles warnings).vars =
      ((b.rearranged members).mainDocument now' titles' warnings').vars := by
  have located : b.members.any b.isLocated = members.any b.isLocated := h.any_eq
  simp only [Batch.mainDocument, located]
  rfl

theorem outputs_rearranged (h : b.members.Perm members) :
    (b.mainDocument now titles warnings).outputs.Perm
      ((b.rearranged members).mainDocument now' titles' warnings').outputs := by
  show List.Perm (if b.config.includeOutputs then _ else _)
    (if b.config.includeOutputs then _ else _)
  split
  · exact h.flatMap_right _
  · exact .refl _

theorem moduleFiles_rearranged (h : b.members.Perm members) :
    b.moduleFiles.Perm (b.rearranged members).moduleFiles := by
  show List.Perm (if b.config.generateModules then _ else _)
    (if b.config.generateModules then _ else _)
  split
  · exact h.map _
  · exact .refl _

end Documents

/-! ## Assemblies -/

/-- The parts of two assemblies are the same up to their order. -/
structure Rearranged (a b : Assembly) : Prop where
  members : a.members.Perm b.members
  declarations : a.document.declarations.Perm b.document.declarations
  parameters : a.document.parameters.Perm b.document.parameters
  vars : a.document.vars = b.document.vars
  outputs : a.document.outputs.Perm b.document.outputs
  modules : a.modules.Perm b.modules
  source : a.source = b.source

theorem rearranged_ofOutcomes {c d : Context} (registry : d.registry = c.registry)
    (config : Configuration) (settings : Entries Json) {selection selection' : List CatalogEntry}
    {outcomes outcomes' : List Outcome} (h : outcomes.Perm outcomes')
    (distinct : ((outcomes.filterMap (·.member?)).map Member.id).Nodup) :
    Rearranged (ofOutcomes c config settings selection outcomes)
      (ofOutcomes d config settings selection' outcomes') := by
  let b : Batch :=
    { registry := c.registry, config, settings, members := outcomes.filterMap (·.member?) }
  have perm : b.members.Perm (outcomes'.filterMap (·.member?)) := h.filterMap _
  rw [ofOutcomes, ofOutcomes, registry]
  exact
    { members := perm
      declarations := declarations_rearranged b _ _ _ _ _ _ perm distinct
      parameters := parameters_rearranged b _ _ _ _ _ _ perm
      vars := vars_rearranged b _ _ _ _ _ _ perm
      outputs := outputs_rearranged b _ _ _ _ _ _ perm
      modules := moduleFiles_rearranged b perm
      source := by rw [source, source, perm.isEmpty_eq, perm.all_eq] }

/-- The warnings about a resource, as they are where it is examined alone. -/
def warningsAbout (schemas : String → Option ResourceSchema) (c : Context) (entry : CatalogEntry) :
    List String :=
  (examine schemas c entry).1.warnings

/-- Members of a selection with distinct ids have distinct ids. -/
theorem nodup_ids {schemas : String → Option ResourceSchema} {selection : List CatalogEntry}
    (distinct : (selection.map (·.id)).Nodup) (c : Context) :
    (((examineAll schemas c selection).1.filterMap (·.member?)).map Member.id).Nodup := by
  have entries := @entries_examineAll schemas c selection
  have ids : ((examineAll schemas c selection).1.filterMap (·.member?)).map Member.id =
      (selection.filter fun entry => (schemas entry.schema).isSome).map (·.id) := by
    rw [← entries, List.map_map]
    rfl
  rw [ids]
  exact distinct.sublist (List.filter_sublist.map _)

/-- A selection with distinct ids and a rearranged one are assembled alike: both are empty and
refused, or the assemblies have the same parts up to their order, and the warnings about each
resource are those that it has alone. -/
theorem assemble_perm (c : Context) (config : Configuration)
    (schemas : String → Option ResourceSchema) (settings : Entries Json)
    {selection selection' : List CatalogEntry} (distinct : (selection.map (·.id)).Nodup)
    (perm : selection.Perm selection') :
    (selection = [] ∧ (assemble c config schemas settings selection).1 = .error .emptySelection ∧
        (assemble c config schemas settings selection').1 = .error .emptySelection) ∨
      ∃ a b, (assemble c config schemas settings selection).1 = .ok a ∧
        (assemble c config schemas settings selection').1 = .ok b ∧ Rearranged a b ∧
        a.warnings = selection.flatMap (warningsAbout schemas c) ∧
        b.warnings = selection'.flatMap (warningsAbout schemas c) := by
  cases selection with
  | nil =>
    obtain rfl := perm.nil_eq
    exact .inl ⟨rfl, rfl, rfl⟩
  | cons entry rest =>
    have some : selection' ≠ [] := by
      rintro rfl
      exact List.cons_ne_nil _ _ perm.eq_nil
    have outcomes := @outcomes_eq_map schemas c c (entry :: rest) (.refl c)
    have outcomes' := @outcomes_eq_map schemas c c selection' (.refl c)
    have registry := (@sameKnowledge_examineAll schemas c (entry :: rest)).registry
    have registry' := (@sameKnowledge_examineAll schemas c selection').registry
    have same : (examineAll schemas c (entry :: rest)).1.Perm
        (examineAll schemas c selection').1 := by
      rw [outcomes, outcomes']
      exact perm.map _
    right
    rw [assemble, assemble, if_neg (by simp), if_neg (by simpa using some)]
    refine ⟨_, _, rfl, rfl, ?_, ?_, ?_⟩
    · exact rearranged_ofOutcomes (registry'.trans registry.symm) config settings same
        (nodup_ids distinct c)
    · show List.flatMap _ _ = _
      rw [outcomes, List.flatMap_map]
      rfl
    · show List.flatMap _ _ = _
      rw [outcomes', List.flatMap_map]
      rfl

/-- A schema that names a type and an API version. -/
def plainSchema (type version : String) : ResourceSchema :=
  ⟨.obj [("properties", .obj
    [("type", .obj [("const", .str type)]),
     ("apiVersion", .obj [("enum", .arr [.str version])])])]⟩

/-- Schemas of a plan and of two sites, of which one has an API version that is not known. -/
def siteSchemas (name : String) : Option ResourceSchema :=
  if name = "web-app" then some (plainSchema "Microsoft.Web/sites" "2022-03-01")
  else if name = "function-app" then some (plainSchema "Microsoft.Web/sites" "1999-01-01")
  else if name = "app-service-plan" then
    some (plainSchema "Microsoft.Web/serverfarms" "2022-03-01")
  else none

/-- A provider that knows one version of everything. -/
def willing : Provider where
  existence _ := .ok true
  versions _ := .ok ["2022-03-01"]
  locations _ := .ok []

/-- Two sites of one type, of which the provider is asked about the first alone, are assembled with
their plan in any order. -/
theorem assemble_perm_sites :
    let c : Context := { registry := .azure, now := ⟨0⟩, provider? := some willing }
    let selection := ["webapp", "functions", "appplan"].filterMap Catalog.get?
    let selection' := ["appplan", "functions", "webapp"].filterMap Catalog.get?
    (selection.map (·.id)).Nodup ∧ selection.Perm selection' ∧
      ∃ a b, (assemble c {} siteSchemas [] selection).1 = .ok a ∧
        (assemble c {} siteSchemas [] selection').1 = .ok b ∧ Rearranged a b := by
  intro c selection selection'
  have distinct : (selection.map (·.id)).Nodup := by decide +kernel
  have perm : selection.Perm selection' := by decide +kernel
  refine ⟨distinct, perm, ?_⟩
  rcases assemble_perm c {} siteSchemas [] distinct perm with ⟨empty, -⟩ | ⟨a, b, ha, hb, same, -⟩
  · exact absurd empty (List.cons_ne_nil _ _)
  · exact ⟨a, b, ha, hb, same⟩

end BicepForge.Assembly
