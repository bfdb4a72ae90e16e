import BicepForge.Assembly.Basic
import Mathlib.Logic.Relation

/-!
# The members of an assembly

Checking never drops a resource whose schema could be loaded, and adds no other. So the members
follow from the selection and the schemas alone, whatever the provider answers on the way. The table
of dependencies has no chains, hence no cycles among the members. The parameters of a member's own
follow from its schema, its kind and the configuration.
-/

namespace BicepForge.Assembly

/-- Whether a resource of the id is selected with a schema that can be loaded. -/
def isLoaded (schemas : String → Option ResourceSchema) (selection : List CatalogEntry)
    (id : String) : Bool :=
  selection.any fun entry => entry.id == id && (schemas entry.schema).isSome

section Outcomes

variable {schemas : String → Option ResourceSchema}

/-- The outcome of an examination has a member exactly if the schema can be loaded. -/
theorem entry_examine (c : Context) (entry : CatalogEntry) :
    (examine schemas c entry).1.member?.map (·.entry) =
      if (schemas entry.schema).isSome then some entry else none := by
  unfold examine
  cases schemas entry.schema with
  | none => rfl
  | some schema => rfl

/-- The members of a selection are its resources with a schema, in their order. -/
theorem entries_examineAll (c : Context) (selection : List CatalogEntry) :
    ((examineAll schemas c selection).1.filterMap (·.member?)).map (·.entry) =
      selection.filter fun entry => (schemas entry.schema).isSome := by
  induction selection generalizing c with
  | nil => rfl
  | cons entry rest ih =>
    have here := @entry_examine schemas c entry
    have more := ih (examine schemas c entry).2
    rw [examineAll]
    cases loaded : (schemas entry.schema).isSome with
    | false =>
      rw [loaded, if_neg Bool.false_ne_true, Option.map_eq_none_iff] at here
      rw [List.filterMap_cons_none here, more, List.filter_cons, loaded, if_neg Bool.false_ne_true]
    | true =>
      rw [loaded, if_pos rfl, Option.map_eq_some_iff] at here
      obtain ⟨m, found, same⟩ := here
      rw [List.filterMap_cons_some found, List.map_cons, more, same, List.filter_cons, loaded,
        if_pos rfl]

/-- Some member has an id exactly if the id is selected and loaded. -/
theorem any_id_eq_isLoaded {members : List Member} {selection : List CatalogEntry}
    (h : members.map (·.entry) = selection.filter fun entry => (schemas entry.schema).isSome)
    (id : String) : members.any (·.id == id) = isLoaded schemas selection id := by
  have entries : members.any (·.id == id) = (members.map (·.entry)).any (·.id == id) := by
    rw [List.any_map]
    rfl
  rw [entries, h, List.any_filter, isLoaded]
  exact List.any_congr rfl fun entry => Bool.and_comm _ _

end Outcomes

/-! ## Dependencies -/

/-- The relation between ids of which the first depends on the second, both among the given ones. -/
def DependsOn (among : String → Bool) (id other : String) : Prop :=
  among id = true ∧ among other = true ∧ other ∈ dependenciesOf id

/-- A dependency stands in a row of the table. -/
theorem exists_row_of_dependency {id other : String} (h : other ∈ dependenciesOf id) :
    ∃ ids, (id, ids) ∈ dependencyTable ∧ other ∈ ids := by
  cases found : dependencyTable.lookup id with
  | none =>
    rw [dependenciesOf, found] at h
    cases h
  | some ids =>
    rw [dependenciesOf, found] at h
    exact ⟨ids, Entries.mem_of_lookup found, h⟩

/-- What another resource depends on depends on nothing itself. -/
theorem dependenciesOf_eq_nil {id other : String} (h : other ∈ dependenciesOf id) :
    dependenciesOf other = [] := by
  have table : ∀ row ∈ dependencyTable, ∀ other ∈ row.2, dependenciesOf other = [] := by decide
  obtain ⟨ids, row, mem⟩ := exists_row_of_dependency h
  exact table (id, ids) row other mem

/-- A chain of dependencies is one step long. -/
theorem DependsOn.of_transGen {among : String → Bool} {id other : String}
    (h : Relation.TransGen (DependsOn among) id other) : DependsOn among id other := by
  induction h with
  | single step => exact step
  | tail _ step ih =>
    have last := dependenciesOf_eq_nil ih.2.2
    rw [DependsOn, last] at step
    cases step.2.2

/-- Nothing depends on itself, not even through others. -/
theorem DependsOn.acyclic (among : String → Bool) (id : String) :
    ¬ Relation.TransGen (DependsOn among) id id := by
  intro cycle
  have step := DependsOn.of_transGen cycle
  have none := dependenciesOf_eq_nil step.2.2
  have mem := step.2.2
  rw [none] at mem
  cases mem

/-! ## Parameters of a member's own -/

namespace Batch

open Bicep Generation

variable {b : Batch} {m : Member} {p : OwnParameter}

/-- A property makes a parameter if it is an object, no fixed field, and joins to a name. -/
theorem ownParameter?_eq_some_iff {id property : String} {schema : Json} :
    ownParameter? id property schema = some p ↔
      schema.isObject = true ∧ property ∉ identityFields ∧
        Value.isIdentifier (id ++ "_" ++ property) = true ∧
        p = ⟨property, { parameterOfSchema property schema with name := id ++ "_" ++ property }⟩ := by
  rw [ownParameter?, Option.ite_none_right_eq_some, Bool.and_eq_true, Bool.and_eq_true,
    Bool.not_eq_true', List.contains_eq_mem, decide_eq_false_iff_not, and_assoc, and_assoc]
  exact and_congr_right' (and_congr_right' (and_congr_right'
    ⟨fun same => (Option.some.inj same).symm, fun same => congrArg some same.symm⟩))

/-- Only a member that follows no recipe has parameters of its own, each made from one of its
properties. -/
theorem mem_ownParameters_iff :
    p ∈ b.ownParameters m ↔
      (b.config.includeParameters = true ∧ b.kind m = .generic) ∧
        ∃ property schema, (property, schema) ∈ m.schema.properties?.getD [] ∧
          ownParameter? m.id property schema = some p := by
  unfold ownParameters
  split
  · rename_i derives
    rw [and_iff_right derives, List.mem_filterMap, Prod.exists]
  · rename_i derives
    exact iff_of_false List.not_mem_nil fun h => derives h.1

end Batch

end BicepForge.Assembly
