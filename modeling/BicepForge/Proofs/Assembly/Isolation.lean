import BicepForge.Assembly.Basic
import BicepForge.Proofs.Check.Sessions

/-!
# Resources that are left out

A resource whose schema cannot be loaded is left out with a warning and does not disturb the
others: nothing is asked and nothing is kept on its account, and no member looks at it. So a
selection is assembled like its loadable part, also where the provider and the time change while
the schemas are checked. Only the warnings tell the two apart, and they differ in one text for each
resource that was left out, at its place.
-/

namespace BicepForge.Assembly

open Check

/-! ## Changing surroundings -/

/-- How the surroundings go on while a selection is examined, by the number of schemas that were
checked and the questions that were asked so far. -/
abbrev Course := Nat → List Query → Surroundings

/-- The outcomes for a selection in the course of changing surroundings, after a number of schemas
were checked. -/
def examineAlong (schemas : String → Option ResourceSchema) (course : Course) (checked : Nat)
    (c : Context) : List CatalogEntry → List Outcome × Context
  | [] => ([], c)
  | entry :: rest =>
    match schemas entry.schema with
    | none =>
      let (outcomes, c) := examineAlong schemas course checked c rest
      (.leftOut entry :: outcomes, c)
    | some schema =>
      let (outcome, c) := accept (c.within (course checked c.log)) entry schema
      let (outcomes, c) := examineAlong schemas course (checked + 1) c rest
      (outcome :: outcomes, c)

/-- Assembles a selection in the course of changing surroundings. -/
def assembleAlong (course : Course) (c : Context) (config : Configuration)
    (schemas : String → Option ResourceSchema) (settings : Entries Json)
    (selection : List CatalogEntry) : Except AssemblyError Assembly × Context :=
  if selection.isEmpty then (.error .emptySelection, c)
  else
    let (outcomes, c) := examineAlong schemas course 0 c selection
    (.ok (ofOutcomes c config settings selection outcomes), c)

/-- The course on which nothing changes. -/
def still (c : Context) : Course :=
  fun _ _ => ⟨c.provider?, c.now⟩

section Still

variable {schemas : String → Option ResourceSchema} {c : Context}

/-- Examining in surroundings that do not change is examining along a course. -/
theorem examineAlong_still (checked : Nat) (selection : List CatalogEntry) :
    examineAlong schemas (still c) checked c selection = examineAll schemas c selection := by
  -- on the way the context changes, but neither its provider nor its time
  suffices h : ∀ d : Context, d.provider? = c.provider? → d.now = c.now →
      examineAlong schemas (still c) checked d selection = examineAll schemas d selection by
    exact h c rfl rfl
  induction selection generalizing checked with
  | nil =>
    intro d _ _
    rfl
  | cons entry rest ih =>
    intro d provider now
    have same : d.within (still c checked d.log) = d := by
      rw [Context.within, still, ← provider, ← now]
    rw [examineAlong, examineAll, examine]
    cases schemas entry.schema with
    | none =>
      dsimp only
      rw [ih checked d provider now]
    | some schema =>
      have after := surroundings_checkType d (schema.resourceType?.getD nestedDeploymentType) schema
      dsimp only
      rw [same, ih (checked + 1) (accept d entry schema).2 (after.2.1.trans provider)
        (after.2.2.trans now)]

theorem assembleAlong_still (config : Configuration) (settings : Entries Json)
    (selection : List CatalogEntry) :
    assembleAlong (still c) c config schemas settings selection =
      assemble c config schemas settings selection := by
  rw [assembleAlong, assemble, examineAlong_still]

end Still

/-! ## Warnings -/

def leftOutWarning (entry : CatalogEntry) : String :=
  entry.name ++ ": Failed to load schema"

/-- The warnings about a selection: those about each resource that is loaded, in turn, and one in
the place of each resource that is not. -/
def interleaved (loads : CatalogEntry → Bool) : List CatalogEntry → List (List String) → List String
  | [], _ => []
  | entry :: rest, warnings =>
    if loads entry then warnings.headD [] ++ interleaved loads rest warnings.tail
    else leftOutWarning entry :: interleaved loads rest warnings

def loads (schemas : String → Option ResourceSchema) (entry : CatalogEntry) : Bool :=
  (schemas entry.schema).isSome

section Examination

variable {schemas : String → Option ResourceSchema} {course : Course}

/-- A selection is examined like its loadable part: the context goes the same way, and the outcomes
have the same members. -/
theorem examineAlong_filter (checked : Nat) (c : Context) (selection : List CatalogEntry) :
    let whole := examineAlong schemas course checked c selection
    let part := examineAlong schemas course checked c (selection.filter (loads schemas))
    whole.2 = part.2 ∧
      whole.1.filterMap (·.member?) = part.1.filterMap (·.member?) ∧
      whole.1.flatMap (·.warnings) =
        interleaved (loads schemas) selection (part.1.map (·.warnings)) := by
  induction selection generalizing checked c with
  | nil => exact ⟨rfl, rfl, rfl⟩
  | cons entry rest ih =>
    cases loaded : schemas entry.schema with
    | none =>
      have not : loads schemas entry = false := by rw [loads, loaded]; rfl
      obtain ⟨context, members, warnings⟩ := ih checked c
      rw [List.filter_cons, not, if_neg Bool.false_ne_true]
      simp only [examineAlong, loaded, interleaved, not, Bool.false_eq_true, if_false]
      refine ⟨context, members, ?_⟩
      rw [List.flatMap_cons, warnings]
      rfl
    | some schema =>
      have is : loads schemas entry = true := by rw [loads, loaded]; rfl
      obtain ⟨context, members, warnings⟩ :=
        ih (checked + 1) (accept (c.within (course checked c.log)) entry schema).2
      rw [List.filter_cons, is, if_pos rfl]
      simp only [examineAlong, loaded, interleaved, is, if_true]
      refine ⟨context, ?_, ?_⟩
      · rw [List.filterMap_cons, List.filterMap_cons, members]
      · rw [List.flatMap_cons, warnings]
        rfl

/-- The warnings are about a resource, whose name they begin with. -/
def About (entry : CatalogEntry) (warnings : List String) : Prop :=
  ∀ text ∈ warnings, ∃ finding, text = entry.name ++ ": " ++ finding

/-- The warnings come resource by resource. -/
theorem forall₂_examineAlong (checked : Nat) (c : Context) (selection : List CatalogEntry) :
    List.Forall₂ About selection
      ((examineAlong schemas course checked c selection).1.map (·.warnings)) := by
  induction selection generalizing checked c with
  | nil => exact .nil
  | cons entry rest ih =>
    cases loaded : schemas entry.schema with
    | none =>
      simp only [examineAlong, loaded]
      refine .cons ?_ (ih checked c)
      intro text mem
      have literal : ": Failed to load schema" = ": " ++ "Failed to load schema" := by decide
      refine ⟨"Failed to load schema", ?_⟩
      rw [List.mem_singleton.mp mem, literal, String.append_assoc]
    | some schema =>
      simp only [examineAlong, loaded]
      refine .cons ?_ (ih (checked + 1) _)
      intro text mem
      obtain ⟨finding, -, rfl⟩ := List.mem_map.mp mem
      exact ⟨finding, rfl⟩

end Examination

/-! ## Assemblies -/

/-- The assembly of a selection and that of its loadable part, which warns about each of its
resources in turn, are the same but for what is said of the resources that are left out. -/
structure Undisturbed (loads : CatalogEntry → Bool) (selection : List CatalogEntry)
    (warnings : List (List String)) (whole part : Assembly) : Prop where
  members : whole.members = part.members
  parameters : whole.document.parameters = part.document.parameters
  vars : whole.document.vars = part.document.vars
  declarations : whole.document.declarations = part.document.declarations
  outputs : whole.document.outputs = part.document.outputs
  modules : whole.modules = part.modules
  parametersFile : whole.parametersFile? = part.parametersFile?
  source : whole.source = part.source
  about : List.Forall₂ About (selection.filter loads) warnings
  partWarnings : part.warnings = warnings.flatten
  wholeWarnings : whole.warnings = interleaved loads selection warnings

theorem undisturbed_ofOutcomes (c : Context) (config : Configuration) (settings : Entries Json)
    {loads : CatalogEntry → Bool} {selection part : List CatalogEntry}
    {outcomes loaded : List Outcome}
    (members : outcomes.filterMap (·.member?) = loaded.filterMap (·.member?))
    (about : List.Forall₂ About (selection.filter loads) (loaded.map (·.warnings)))
    (warnings : outcomes.flatMap (·.warnings) =
      interleaved loads selection (loaded.map (·.warnings))) :
    Undisturbed loads selection (loaded.map (·.warnings))
      (ofOutcomes c config settings selection outcomes)
      (ofOutcomes c config settings part loaded) := by
  rw [ofOutcomes, members]
  exact
    { members := rfl
      parameters := rfl
      vars := rfl
      declarations := rfl
      outputs := rfl
      modules := rfl
      parametersFile := rfl
      source := rfl
      about := about
      partWarnings := List.flatMap_def ..
      wholeWarnings := warnings }

/-- Two runs succeed with the same cache, and one assembly is that of the loadable part. -/
def Isolated (schemas : String → Option ResourceSchema) (selection : List CatalogEntry)
    (warnings : List (List String)) (whole part : Except AssemblyError Assembly × Context) : Prop :=
  ∃ a b, whole.1 = .ok a ∧ part.1 = .ok b ∧ whole.2.cache = part.2.cache ∧
    Undisturbed (loads schemas) selection warnings a b

section Runs

variable (c : Context) (config : Configuration) (schemas : String → Option ResourceSchema)
  (settings : Entries Json) (selection : List CatalogEntry)

/-- Only a selection without resources cannot be assembled. -/
theorem assembleAlong_eq_error_iff (course : Course) :
    (∃ e, (assembleAlong course c config schemas settings selection).1 = .error e) ↔
      selection = [] := by
  unfold assembleAlong
  cases selection with
  | nil => exact iff_of_true ⟨_, rfl⟩ rfl
  | cons entry rest =>
    refine iff_of_false ?_ (List.cons_ne_nil _ _)
    rintro ⟨e, failed⟩
    cases failed

theorem isolated_assembleAlong (course : Course) (h : selection.filter (loads schemas) ≠ []) :
    Isolated schemas selection
      ((examineAlong schemas course 0 c (selection.filter (loads schemas))).1.map (·.warnings))
      (assembleAlong course c config schemas settings selection)
      (assembleAlong course c config schemas settings (selection.filter (loads schemas))) := by
  have some : selection ≠ [] := by
    rintro rfl
    exact h rfl
  obtain ⟨context, members, warnings⟩ := @examineAlong_filter schemas course 0 c selection
  have about := @forall₂_examineAlong schemas course 0 c (selection.filter (loads schemas))
  rw [assembleAlong, assembleAlong, if_neg (by simpa using some), if_neg (by simpa using h)]
  refine ⟨_, _, rfl, rfl, congrArg Context.cache context, ?_⟩
  rw [context]
  exact undisturbed_ofOutcomes _ config settings members about warnings

/-- Assembling fails for the empty selection only. A selection some of whose schemas can be loaded
is assembled like these resources alone, and warns of each other one in its place; that holds, too,
while the provider and the time change along any course. -/
theorem assemble_isolated :
    ((∃ e, (assemble c config schemas settings selection).1 = .error e) ↔ selection = []) ∧
    (selection.filter (loads schemas) ≠ [] →
      Isolated schemas selection
        ((examineAll schemas c (selection.filter (loads schemas))).1.map (·.warnings))
        (assemble c config schemas settings selection)
        (assemble c config schemas settings (selection.filter (loads schemas))) ∧
      ∀ course, Isolated schemas selection
        ((examineAlong schemas course 0 c (selection.filter (loads schemas))).1.map (·.warnings))
        (assembleAlong course c config schemas settings selection)
        (assembleAlong course c config schemas settings (selection.filter (loads schemas)))) := by
  constructor
  · rw [← assembleAlong_still]
    exact assembleAlong_eq_error_iff c config schemas settings selection (still c)
  · intro h
    refine ⟨?_, fun course => isolated_assembleAlong c config schemas settings selection course h⟩
    rw [← assembleAlong_still, ← assembleAlong_still, ← examineAlong_still 0]
    exact isolated_assembleAlong c config schemas settings selection (still c) h

end Runs

/-- A schema for the plan alone. -/
def schemasOfPlan (name : String) : Option ResourceSchema :=
  if name = "app-service-plan" then some ⟨.obj []⟩ else none

/-- A plan between two resources that are left out is assembled as if it were selected alone. -/
theorem assemble_isolated_plan :
    let c : Context := { registry := .azure, now := ⟨0⟩ }
    let selection := ["storage", "appplan", "functions"].filterMap Catalog.get?
    let plan := ["appplan"].filterMap Catalog.get?
    selection.filter (loads schemasOfPlan) = plan ∧ plan ≠ [] ∧
      Isolated schemasOfPlan selection
        ((examineAll schemasOfPlan c plan).1.map (·.warnings))
        (assemble c {} schemasOfPlan [] selection) (assemble c {} schemasOfPlan [] plan) := by
  intro c selection plan
  have loaded : selection.filter (loads schemasOfPlan) = plan := by decide +kernel
  have some : plan ≠ [] := by decide +kernel
  have isolated := (assemble_isolated c {} schemasOfPlan [] selection).2
  rw [loaded] at isolated
  exact ⟨loaded, some, (isolated some).1⟩

end BicepForge.Assembly
