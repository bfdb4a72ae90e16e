import BicepForge.Proofs.Bicep.Denotation
import BicepForge.Proofs.Generation.Derived
import Mathlib.Data.List.Forall2

/-!
# Defaults in the parameters file

The parameters file of a document lists the parameters with a literal for a default, in their order,
each with the value of that literal. A parameter that comes from a schema is listed with the very
default of its property or not at all.
-/

namespace BicepForge.Generation

open Bicep

/-- Whether a parameter has a default that is known ahead of a deployment. -/
def hasLiteralDefault (p : Param) : Bool :=
  p.default?.any Value.isLiteral

/-- An entry of the parameters file that gives a parameter the value of its default. -/
structure GivesDefault (p : Param) (entry : String × Json) : Prop where
  name : entry.1 = p.name
  value : ∃ default v, p.default? = some default ∧ default.Denotes v ∧
    entry.2 = .obj [("value", v)]

/-- The entry for a parameter, if its default has a JSON form. -/
def entryOf? (p : Param) : Option (String × Json) :=
  (p.default?.bind Value.toJson?).map fun v => (p.name, .obj [("value", v)])

theorem isSome_entryOf? (p : Param) : (entryOf? p).isSome = hasLiteralDefault p := by
  rw [entryOf?, Option.isSome_map, hasLiteralDefault]
  cases p.default? with
  | none => rfl
  | some default => exact Value.isSome_toJson? default

theorem name_entryOf? {p : Param} {entry : String × Json}
    (h : entryOf? p = some entry) : entry.1 = p.name := by
  obtain ⟨v, -, rfl⟩ := Option.map_eq_some_iff.mp h
  rfl

theorem givesDefault_entryOf? {p : Param} {entry : String × Json}
    (h : entryOf? p = some entry) : GivesDefault p entry := by
  obtain ⟨v, read, rfl⟩ := Option.map_eq_some_iff.mp h
  obtain ⟨default, own, form⟩ := Option.bind_eq_some_iff.mp read
  exact ⟨rfl, default, v, own, (Value.toJson?_eq_some_iff default v).mp form, rfl⟩

/-- The entry for a parameter from a schema has the default of the property as it is. -/
theorem entryOf?_parameterOfSchema (name : String) {schema : Json}
    (keys : schema.hasDistinctKeys = true) :
    entryOf? (parameterOfSchema name schema) =
      (schema.get? "default").bind fun v =>
        if v.numbers.all Number.isInteger then some (name, .obj [("value", v)]) else none := by
  rw [entryOf?, parameterOfSchema]
  cases found : schema.get? "default" with
  | none => rfl
  | some v =>
    have distinct := Json.hasDistinctKeys_get? keys found
    rw [Option.map_some, Option.bind_some, Value.toJson?_ofJson v distinct, Option.bind_some]
    split <;> rfl

/-! ## The entries of a file -/

/-- The entries are those of the parameters one after the other. -/
theorem parameterEntries_eq_putAll (parameters : List Param) :
    Document.parameterEntries parameters =
      Entries.putAll [] (parameters.filterMap entryOf?) := by
  rw [Document.parameterEntries, Entries.putAll, List.foldl_filterMap]
  congr 1
  funext entries p
  rw [entryOf?]
  cases p.default?.bind Value.toJson? <;> rfl

theorem keys_defaultEntries_sublist (parameters : List Param) :
    (Entries.keys (parameters.filterMap entryOf?)).Sublist (parameters.map (·.name)) := by
  induction parameters with
  | nil => exact .slnil
  | cons p parameters ih =>
    rw [List.map_cons]
    cases entry : entryOf? p with
    | none =>
      rw [List.filterMap_cons_none entry]
      exact ih.cons p.name
    | some e =>
      rw [List.filterMap_cons_some entry, Entries.keys, List.map_cons, name_entryOf? entry]
      exact ih.cons_cons p.name

theorem forall₂_defaultEntries (parameters : List Param) :
    List.Forall₂ GivesDefault (parameters.filter hasLiteralDefault)
      (parameters.filterMap entryOf?) := by
  induction parameters with
  | nil => exact .nil
  | cons p parameters ih =>
    have literal := isSome_entryOf? p
    cases entry : entryOf? p with
    | none =>
      rw [entry] at literal
      rw [List.filterMap_cons_none entry,
        List.filter_cons_of_neg (by rw [← literal]; exact Bool.false_ne_true)]
      exact ih
    | some e =>
      rw [entry] at literal
      rw [List.filterMap_cons_some entry, List.filter_cons_of_pos literal.symm]
      exact .cons (givesDefault_entryOf? entry) ih

/-- Where no name comes twice, the entry of a parameter is found under its name. -/
theorem lookup_defaultEntries {parameters : List Param}
    (distinct : (parameters.map (·.name)).Nodup) {p : Param} (mem : p ∈ parameters) :
    List.lookup p.name (parameters.filterMap entryOf?) = (entryOf? p).map (·.2) := by
  induction parameters with
  | nil => cases mem
  | cons q parameters ih =>
    rw [List.map_cons, List.nodup_cons] at distinct
    obtain ⟨free, distinct⟩ := distinct
    have absent : List.lookup q.name (parameters.filterMap entryOf?) = none :=
      Entries.lookup_eq_none_iff.mpr fun key =>
        free ((keys_defaultEntries_sublist parameters).subset key)
    have other (later : p ∈ parameters) : p.name ≠ q.name := fun same =>
      free (same ▸ List.mem_map_of_mem later)
    cases entry : entryOf? q with
    | none =>
      rw [List.filterMap_cons_none entry]
      rcases List.mem_cons.mp mem with rfl | later
      · rw [absent, entry]
        rfl
      · exact ih distinct later
    | some e =>
      rw [List.filterMap_cons_some entry, List.lookup_cons, name_entryOf? entry]
      rcases List.mem_cons.mp mem with rfl | later
      · rw [beq_self_eq_true, entry]
        rfl
      · rw [beq_eq_false_iff_ne.mpr (other later)]
        exact ih distinct later

/-- The literal of a JSON value stands for that value exactly if all numbers in it are integers of
64 bits. So the parameters file of a document with distinct parameters lists those with a literal
default, in their order and with what it stands for, and a parameter from a schema with the default
of its property, or not at all. -/
theorem parametersFile_defaults (d : Document) (distinct : (d.parameters.map (·.name)).Nodup) :
    (∀ v : Json, v.hasDistinctKeys = true →
      (Value.ofJson v).toJson? = if v.numbers.all Number.isInteger then some v else none) ∧
    ∃ entries,
      d.parametersFile = .obj
        [("$schema", .str DeploymentTemplate.parametersSchemaUri),
         ("contentVersion", .str "1.0.0.0"), ("parameters", .obj entries)] ∧
      List.Forall₂ GivesDefault (d.parameters.filter hasLiteralDefault) entries ∧
      ∀ p ∈ d.parameters, ∀ schema : Json, schema.hasDistinctKeys = true →
        p = parameterOfSchema p.name schema →
        entries.lookup p.name = (schema.get? "default").bind fun v =>
          if v.numbers.all Number.isInteger then some (.obj [("value", v)]) else none := by
  refine ⟨Value.toJson?_ofJson, d.parameters.filterMap entryOf?, ?_,
    forall₂_defaultEntries d.parameters, ?_⟩
  · have keys := distinct.sublist (keys_defaultEntries_sublist d.parameters)
    rw [Document.parametersFile, parameterEntries_eq_putAll, Entries.putAll_of_nodup [] keys]
    rfl
  · intro p mem schema keys made
    have entry := entryOf?_parameterOfSchema p.name keys
    rw [← made] at entry
    rw [lookup_defaultEntries distinct mem, entry]
    cases schema.get? "default" with
    | none => rfl
    | some v =>
      rw [Option.bind_some, Option.bind_some]
      split <;> rfl

/-- The schemas of two properties, with a default that stands for itself and one that does not. -/
def toothedProperties : List (String × Json) :=
  [("teeth", .obj [("default", .obj [("sizes", .arr [.num (.int 3), .str "$\x7bx\x7d"])])]),
   ("wear", .obj [("default", .arr [.num (.float (.zero false))])])]

/-- A nested default is in the parameters file as it is, and one with a fraction is not in it. -/
theorem parametersFile_defaults_gears :
    let d := generateForType .azure ⟨0⟩ {} ⟨.obj [("properties", .obj toothedProperties)]⟩
      "Acme/gears"
    (d.parameters.map (·.name)).Nodup ∧ ∃ entries,
      d.parametersFile.object? "parameters" = some entries ∧
      entries.lookup "teeth" = some (.obj
        [("value", .obj [("sizes", .arr [.num (.int 3), .str "$\x7bx\x7d"])])]) ∧
      entries.lookup "wear" = none := by
  intro d
  have distinct : (d.parameters.map (·.name)).Nodup := by decide +kernel
  have properties : derivedProperties .azure {} ⟨.obj [("properties", .obj toothedProperties)]⟩
      "Acme/gears" = toothedProperties := by decide +kernel
  have declared : ∀ p ∈ toothedProperties, parameterOfSchema p.1 p.2 ∈ d.parameters := by
    intro p mem
    exact parameterOfSchema_mem_parameters .azure ⟨0⟩ {} _ "Acme/gears" (properties ▸ mem)
  have keys : ∀ p ∈ toothedProperties, p.2.hasDistinctKeys = true := by decide +kernel
  obtain ⟨-, entries, file, -, derived⟩ := parametersFile_defaults d distinct
  have entry (p : String × Json) (mem : p ∈ toothedProperties) :=
    derived _ (declared p mem) p.2 (keys p mem) rfl
  refine ⟨distinct, entries, ?_, ?_, ?_⟩
  · rw [file]
    rfl
  · exact (entry _ List.mem_cons_self).trans (by decide +kernel)
  · exact (entry _ (List.mem_cons_of_mem _ List.mem_cons_self)).trans (by decide +kernel)

end BicepForge.Generation
