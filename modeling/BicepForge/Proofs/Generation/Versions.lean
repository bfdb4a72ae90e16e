import BicepForge.Proofs.Document.ApiVersions
import BicepForge.Proofs.Generation.Derived

/-!
# Documents from schemas with other API versions

No parameter is derived from the API versions of a schema, and they have no part in its type. So two
schemas that offer different versions and agree in all else have the same document, but for the
version in which its main resource is declared.
-/

namespace BicepForge.Generation

open Bicep

/-- Two documents that differ in nothing but the API version of the resource that they declare last,
which the second one declares in the given version. -/
def Redeclared (symbol version : String) (before after : Document) : Prop :=
  ∃ front r, r.symbol = symbol ∧ before.declarations = front ++ [.resource r] ∧
    after = { before with
      declarations := front ++ [.resource { r with apiVersion := version }] }

/-- Whatever document is made from the first of two schemas, for the type that it names or for any
other, the document from the second one differs from it in the version of the main resource only. -/
structure SameDocuments (schema other : ResourceSchema) : Prop where
  named : ∀ registry now config,
    let type := schema.resourceType?.getD nestedDeploymentType
    Redeclared (resourceSymbol type) (registry.selectApiVersion other type)
      (generate registry now config schema) (generate registry now config other)
  given : ∀ registry now config type,
    Redeclared (resourceSymbol type) (registry.selectApiVersion other type)
      (generateForType registry now config schema type)
      (generateForType registry now config other type)

/-! ## Parameters -/

section Parameters

variable {taken : List String} {key : String} (identity : key ∈ identityFields)
include identity

theorem isUsable_of_identity (v : Json) : isUsable taken key v = false := by
  have contained : identityFields.contains key = true := List.contains_iff_mem.mpr identity
  simp only [isUsable, contained, Bool.not_true, Bool.and_false, Bool.false_and]

/-- Properties that identify a resource make no difference to the parameters. -/
theorem parametersOfProperties_put (v : Json) (properties : List (String × Json)) :
    parametersOfProperties taken (Entries.put key v properties) =
      parametersOfProperties taken properties := by
  have passed (w : Json) (rest : List (String × Json)) :
      ((key, w) :: rest).filter (fun p => isUsable taken p.1 p.2) =
        rest.filter fun p => isUsable taken p.1 p.2 :=
    List.filter_cons_of_neg (by simp [isUsable_of_identity identity])
  unfold parametersOfProperties
  congr 1
  induction properties with
  | nil => rw [Entries.put, passed]
  | cons e rest ih =>
    obtain ⟨k, w⟩ := e
    by_cases same : k = key
    · subst same
      rw [Entries.put, if_pos rfl, passed, passed]
    · rw [Entries.put, if_neg same, List.filter_cons, List.filter_cons, ih]

end Parameters

theorem deriveParameters_of_replaced {schema other : ResourceSchema} {versions : List String}
    (made : schema.withApiVersions? versions = some other) (taken : List String) :
    deriveParameters other taken = deriveParameters schema taken := by
  obtain ⟨properties, keywords, old, new⟩ := ResourceSchema.exists_properties_of_replaced made
  rw [deriveParameters, deriveParameters, ResourceSchema.settings?_of_replaced made, old, new]
  cases schema.settings? with
  | some settings => rfl
  | none =>
    dsimp only [Option.getD_some]
    rw [parametersOfProperties_put (by decide)]

/-! ## Documents -/

/-- A schema has its part in a document by its type, by the parameters that are derived from it, and
by the version that is picked. -/
theorem sameDocuments {schema other : ResourceSchema}
    (type : other.resourceType? = schema.resourceType?)
    (params : ∀ taken, deriveParameters other taken = deriveParameters schema taken) :
    SameDocuments schema other := by
  have given : ∀ registry now config type,
      Redeclared (resourceSymbol type) (registry.selectApiVersion other type)
        (generateForType registry now config schema type)
        (generateForType registry now config other type) := by
    intro registry now config type
    refine ⟨_, _, rfl, declarations_generateForType registry now config schema type, ?_⟩
    rw [generateForType, generateForType, funext params]
    rfl
  refine ⟨fun registry now config => ?_, given⟩
  rw [generate, generate, type]
  exact given registry now config _

/-- A schema can be given other API versions exactly if it has an object for them. It offers these
versions then, nothing else in it has changed, and its documents are those of the schema as it was,
but for the version in which the main resource is declared. Otherwise it stays as it is. -/
theorem withApiVersions?_redeclares {schema : ResourceSchema}
    (distinct : schema.document.hasDistinctKeys = true) (versions : List String) :
    let after? := schema.withApiVersions? versions
    let after := after?.getD schema
    (after?.isSome = true ↔
        ∃ keywords, schema.document.path? apiVersionPath = some (.obj keywords)) ∧
      (after?.isSome = false → after = schema) ∧
      (after?.isSome = true → after.apiVersions = versions ∧
        VersionsReplaced versions schema.document after.document) ∧
      SameDocuments schema after := by
  refine ⟨ResourceSchema.isSome_withApiVersions?_iff, ?_⟩
  cases made : schema.withApiVersions? versions with
  | none => exact ⟨fun _ => rfl, nofun, sameDocuments rfl fun _ => rfl⟩
  | some other =>
    refine ⟨nofun, fun _ => ⟨ResourceSchema.apiVersions_of_replaced made, ?_⟩, ?_⟩
    · exact ResourceSchema.versionsReplaced distinct made
    · exact sameDocuments (ResourceSchema.resourceType?_of_replaced made)
        (deriveParameters_of_replaced made)

/-- A schema with a constant for its API version, which is not the last of its keywords. -/
def datedSchema : ResourceSchema :=
  ⟨.obj [("title", .str "Gear"), ("properties", .obj
    [("apiVersion", .obj
      [("const", .str "2020-01-01"), ("type", .str "string"), ("title", .str "Version")]),
     ("type", .obj [("const", .str "Acme/gears")]),
     ("teeth", .obj [("type", .str "integer")])])]⟩

/-- Choices take the place of the constant, so that the keywords come in another order. The document
declares the newest of the choices. -/
theorem withApiVersions?_redeclares_gears :
    datedSchema.document.hasDistinctKeys = true ∧
      ∃ after, datedSchema.withApiVersions? ["2021-01-01", "2022-06-01"] = some after ∧
        after.apiVersions = ["2021-01-01", "2022-06-01"] ∧
        after.document.keysAt? apiVersionPath = some ["title", "type", "enum"] ∧
        VersionsReplaced ["2021-01-01", "2022-06-01"] datedSchema.document after.document ∧
        Redeclared "gears" "2022-06-01" (generate .azure ⟨0⟩ {} datedSchema)
          (generate .azure ⟨0⟩ {} after) := by
  have distinct : datedSchema.document.hasDistinctKeys = true := by decide +kernel
  obtain ⟨-, -, replaced, documents⟩ :=
    withApiVersions?_redeclares distinct ["2021-01-01", "2022-06-01"]
  have made : (datedSchema.withApiVersions? ["2021-01-01", "2022-06-01"]).isSome = true := by
    decide +kernel
  have declared := documents.named .azure ⟨0⟩ {}
  have symbol : resourceSymbol (datedSchema.resourceType?.getD nestedDeploymentType) = "gears" := by
    decide +kernel
  have version : Registry.azure.selectApiVersion
      ((datedSchema.withApiVersions? ["2021-01-01", "2022-06-01"]).getD datedSchema)
      (datedSchema.resourceType?.getD nestedDeploymentType) = "2022-06-01" := by
    decide +kernel
  dsimp only at declared
  rw [symbol, version] at declared
  exact ⟨distinct, _, rfl, (replaced made).1, by decide +kernel, (replaced made).2, declared⟩

end BicepForge.Generation
