import BicepForge.Proofs.Text.ByteOrder
import BicepForge.Registry
import Mathlib.Logic.Relation

/-!
# The pick of the registry

A registry declares the API version that it prefers for a type, whatever a schema says. Where it
prefers none, it picks the newest of the versions that the schema offers: a stable one ahead of all
previews, and of one kind the greatest. That describes the pick completely, so neither the order of
the choices in a schema nor anything that the pick beats has an influence on it.
-/

namespace BicepForge

/-! ## The last text -/

namespace Text

theorem later_eq_max : later = max := by
  funext s t
  simp only [later, max_def]

theorem latest?_eq_max? (texts : List String) : latest? texts = texts.max? := by
  cases texts with
  | nil => rfl
  | cons s rest => rw [latest?, later_eq_max, List.max?_cons']

/-- The last text is one of the texts, and none comes behind it. -/
theorem latest?_eq_some_iff {texts : List String} {s : String} :
    latest? texts = some s ↔ s ∈ texts ∧ ∀ t ∈ texts, bytes t ≤ bytes s := by
  simp only [latest?_eq_max?, List.max?_eq_some_iff, bytes_le_iff]

theorem latest?_eq_none_iff {texts : List String} : latest? texts = none ↔ texts = [] := by
  rw [latest?_eq_max?, List.max?_eq_none_iff]

end Text

/-! ## The choices of a schema -/

/-- The entries under which a schema lists the API versions on offer. -/
def ResourceSchema.choices? (s : ResourceSchema) : Option (List Json) :=
  (s.property? "apiVersion").bind (·.array? "enum")

/-- Where there are choices, those that are strings are on offer, and a constant is not. -/
theorem ResourceSchema.apiVersions_of_choices {s : ResourceSchema} {choices : List Json}
    (h : s.choices? = some choices) : s.apiVersions = choices.filterMap Json.asString? := by
  obtain ⟨property, found, listed⟩ := Option.bind_eq_some_iff.mp h
  simp only [apiVersions, found, listed]

theorem mem_filterMap_asString? {choices : List Json} {s : String} :
    s ∈ choices.filterMap Json.asString? ↔ .str s ∈ choices := by
  rw [List.mem_filterMap]
  constructor
  · rintro ⟨v, mem, text⟩
    cases v with
    | str t =>
      obtain rfl := Option.some.inj text
      exact mem
    | null | bool _ | num _ | arr _ | obj _ => cases text
  · exact fun mem => ⟨_, mem, rfl⟩

namespace Registry

/-! ## Newer versions -/

/-- An API version that is not stable yet. -/
def IsPreview (version : String) : Prop :=
  previewMark.toList <:+: version.toList

theorem isStable_iff (version : String) : isStable version = true ↔ ¬ IsPreview version := by
  rw [isStable, Bool.not_eq_true', ← Bool.not_eq_true, Text.occursIn, Text.hasInfix_iff, IsPreview]

instance : DecidablePred IsPreview := fun version =>
  decidable_of_iff (isStable version = false) <| by
    rw [← Bool.not_eq_true, isStable_iff, not_not]

/-- A version gives way to another: a preview to a stable one, and any one to a later one of its
kind. -/
def GivesWay (v w : String) : Prop :=
  (IsPreview v ∧ ¬ IsPreview w) ∨ ((IsPreview v ↔ IsPreview w) ∧ Text.bytes v ≤ Text.bytes w)

namespace GivesWay

variable {u v w : String}

theorem refl (v : String) : GivesWay v v :=
  .inr ⟨Iff.rfl, List.le_refl _⟩

theorem trans (h : GivesWay u v) (h' : GivesWay v w) : GivesWay u w := by
  rcases h with ⟨preview, stable⟩ | ⟨kind, le⟩
  · rcases h' with ⟨preview', -⟩ | ⟨kind', -⟩
    · exact absurd preview' stable
    · exact .inl ⟨preview, mt kind'.mpr stable⟩
  · rcases h' with ⟨preview', stable'⟩ | ⟨kind', le'⟩
    · exact .inl ⟨kind.mpr preview', stable'⟩
    · exact .inr ⟨kind.trans kind', List.le_trans le le'⟩

theorem antisymm (h : GivesWay v w) (h' : GivesWay w v) : v = w := by
  rcases h with ⟨preview, stable⟩ | ⟨kind, le⟩
  · rcases h' with ⟨preview', -⟩ | ⟨kind', -⟩
    · exact absurd preview' stable
    · exact absurd (kind'.mpr preview) stable
  · rcases h' with ⟨preview', stable'⟩ | ⟨-, le'⟩
    · exact absurd (kind.mpr preview') stable'
    · exact le_antisymm (Text.bytes_le_iff.mp le) (Text.bytes_le_iff.mp le')

end GivesWay

/-- The newest of the versions on offer: no preview if there is a stable one, and of its kind the
greatest. -/
structure Newest (offered : List String) (version : String) : Prop where
  mem : version ∈ offered
  stable : (∃ w ∈ offered, ¬ IsPreview w) → ¬ IsPreview version
  greatest : ∀ w ∈ offered, (IsPreview w ↔ IsPreview version) → Text.bytes w ≤ Text.bytes version

/-- All that is offered gives way to the newest. -/
theorem Newest.givesWay {offered : List String} {version w : String} (h : Newest offered version)
    (mem : w ∈ offered) : GivesWay w version := by
  by_cases kind : IsPreview w ↔ IsPreview version
  · exact .inr ⟨kind, h.greatest w mem kind⟩
  · by_cases preview : IsPreview w
    · exact .inl ⟨preview, fun too => kind (iff_of_true preview too)⟩
    · exact absurd (iff_of_false preview (h.stable ⟨w, mem, preview⟩)) kind

/-- More is on offer, but all of it gives way to what there was. -/
structure OffersNothingNewer (offered offered' : List String) : Prop where
  kept : offered ⊆ offered'
  beaten : ∀ w ∈ offered', ∃ v ∈ offered, GivesWay w v

namespace OffersNothingNewer

variable {offered offered' offered'' : List String}

theorem refl (offered : List String) : OffersNothingNewer offered offered :=
  ⟨List.Subset.refl _, fun w mem => ⟨w, mem, .refl w⟩⟩

theorem trans (h : OffersNothingNewer offered offered')
    (h' : OffersNothingNewer offered' offered'') : OffersNothingNewer offered offered'' where
  kept := List.Subset.trans h.kept h'.kept
  beaten w mem := by
    obtain ⟨v, mem', below⟩ := h'.beaten w mem
    obtain ⟨u, mem'', below'⟩ := h.beaten v mem'
    exact ⟨u, mem'', below.trans below'⟩

/-- The newest version stays the newest. -/
theorem eq_of_newest (h : OffersNothingNewer offered offered') {v v' : String}
    (newest : Newest offered v) (newest' : Newest offered' v') : v' = v := by
  obtain ⟨w, mem, below⟩ := h.beaten v' newest'.mem
  exact (below.trans (newest.givesWay mem)).antisymm (newest'.givesWay (h.kept newest.mem))

theorem eq_nil_iff (h : OffersNothingNewer offered offered') : offered' = [] ↔ offered = [] := by
  constructor
  · rintro rfl
    exact List.eq_nil_of_subset_nil h.kept
  · rintro rfl
    refine List.eq_nil_iff_forall_not_mem.mpr fun w mem => ?_
    obtain ⟨v, none, -⟩ := h.beaten w mem
    cases none

end OffersNothingNewer

/-! ## The pick -/

/-- The version that a registry prefers for a type. -/
def preferred? (r : Registry) (type : String) : Option String :=
  (r.find? type).bind (·.preferredApiVersion?)

section Pick

variable {r : Registry} {type : String} (schema : ResourceSchema)

theorem selectApiVersion_of_preferred {version : String} (h : r.preferred? type = some version) :
    r.selectApiVersion schema type = version := by
  rw [selectApiVersion, ← preferred?, h]

/-- Without a preference the pick is the newest version on offer. -/
theorem newest_selectApiVersion (h : r.preferred? type = none) (offers : schema.apiVersions ≠ []) :
    Newest schema.apiVersions (r.selectApiVersion schema type) := by
  rw [selectApiVersion, ← preferred?, h]
  dsimp only
  cases stable : Text.latest? (schema.apiVersions.filter isStable) with
  | some version =>
    obtain ⟨mem, greatest⟩ := Text.latest?_eq_some_iff.mp stable
    obtain ⟨mem, notPreview⟩ := List.mem_filter.mp mem
    rw [isStable_iff] at notPreview
    refine ⟨mem, fun _ => notPreview, fun w mem' kind => greatest w ?_⟩
    exact List.mem_filter.mpr ⟨mem', (isStable_iff w).mpr (mt kind.mp notPreview)⟩
  | none =>
    have previews := List.filter_eq_nil_iff.mp (Text.latest?_eq_none_iff.mp stable)
    simp only [isStable_iff] at previews
    cases any : Text.latest? schema.apiVersions with
    | some version =>
      obtain ⟨mem, greatest⟩ := Text.latest?_eq_some_iff.mp any
      refine ⟨mem, ?_, fun w mem' _ => greatest w mem'⟩
      rintro ⟨w, mem', notPreview⟩
      exact absurd notPreview (previews w mem')
    | none => exact absurd (Text.latest?_eq_none_iff.mp any) offers

theorem selectApiVersion_of_offers (h : r.preferred? type = none)
    (offers : schema.apiVersions ≠ []) :
    r.selectApiVersion schema type ∈ schema.apiVersions :=
  (newest_selectApiVersion schema h offers).mem

theorem selectApiVersion_of_no_offers (h : r.preferred? type = none)
    (offers : schema.apiVersions = []) :
    r.selectApiVersion schema type = fallbackApiVersion := by
  rw [selectApiVersion, ← preferred?, h, offers]
  rfl

variable {schema} {schema' : ResourceSchema}

/-- What is beaten by something else on offer makes no difference to the pick. -/
theorem selectApiVersion_eq_of_nothingNewer
    (h : OffersNothingNewer schema.apiVersions schema'.apiVersions) :
    r.selectApiVersion schema' type = r.selectApiVersion schema type := by
  cases preferred : r.preferred? type with
  | some version =>
    rw [selectApiVersion_of_preferred schema preferred,
      selectApiVersion_of_preferred schema' preferred]
  | none =>
    by_cases offers : schema.apiVersions = []
    · rw [selectApiVersion_of_no_offers schema preferred offers,
        selectApiVersion_of_no_offers schema' preferred (h.eq_nil_iff.mpr offers)]
    · have offers' := mt h.eq_nil_iff.mp offers
      exact h.eq_of_newest (newest_selectApiVersion schema preferred offers)
        (newest_selectApiVersion schema' preferred offers')

end Pick

/-! ## Changes to the choices -/

/-- A change to the choices of a schema by which nothing newer comes on offer. -/
inductive HarmlessChange : List Json → List Json → Prop
  | permuted {choices choices' : List Json} (h : choices.Perm choices') :
      HarmlessChange choices choices'
  | repeated {choices : List Json} {v : Json} (h : v ∈ choices) :
      HarmlessChange choices (v :: choices)
  | noString {choices : List Json} {v : Json} (h : v.asString? = none) :
      HarmlessChange choices (v :: choices)
  | smaller {choices : List Json} {v w : String} (h : .str w ∈ choices)
      (kind : IsPreview v ↔ IsPreview w) (le : Text.bytes v ≤ Text.bytes w) :
      HarmlessChange choices (.str v :: choices)
  | preview {choices : List Json} {v w : String} (h : .str w ∈ choices) (stable : ¬ IsPreview w)
      (preview : IsPreview v) : HarmlessChange choices (.str v :: choices)

/-- A further choice that gives way to one of the others offers nothing newer. -/
theorem offersNothingNewer_cons {choices : List Json} {v w : String} (h : .str w ∈ choices)
    (below : GivesWay v w) :
    OffersNothingNewer (choices.filterMap Json.asString?)
      ((Json.str v :: choices).filterMap Json.asString?) where
  kept := List.filterMap_subset _ (List.subset_cons_self _ _)
  beaten u mem := by
    rcases List.mem_cons.mp mem with rfl | mem
    · exact ⟨w, mem_filterMap_asString?.mpr h, below⟩
    · exact ⟨u, mem, .refl u⟩

/-- One change offers nothing newer. -/
theorem HarmlessChange.offersNothingNewer {choices choices' : List Json}
    (h : HarmlessChange choices choices') :
    OffersNothingNewer (choices.filterMap Json.asString?)
      (choices'.filterMap Json.asString?) := by
  cases h with
  | permuted h =>
    have same := h.filterMap Json.asString?
    exact ⟨same.subset, fun w mem => ⟨w, same.symm.subset mem, .refl w⟩⟩
  | @repeated v h =>
    cases v with
    | str s => exact offersNothingNewer_cons h (.refl s)
    | null | bool _ | num _ | arr _ | obj _ => exact .refl _
  | noString none =>
    rw [List.filterMap_cons_none none]
    exact .refl _
  | smaller h kind le => exact offersNothingNewer_cons h (.inr ⟨kind, le⟩)
  | preview h stable preview => exact offersNothingNewer_cons h (.inl ⟨preview, stable⟩)

/-- Nor does any number of changes. -/
theorem offersNothingNewer_of_changes {choices choices' : List Json}
    (h : Relation.ReflTransGen HarmlessChange choices choices') :
    OffersNothingNewer (choices.filterMap Json.asString?)
      (choices'.filterMap Json.asString?) := by
  induction h with
  | refl => exact .refl _
  | tail _ step ih => exact ih.trans step.offersNothingNewer

/-- What a registry picks for a type: the version that it prefers; else the newest one that the
schema offers, where harmless changes to the choices have no influence; else the fallback. -/
structure PicksNewest (r : Registry) (type : String) : Prop where
  preferred : ∀ version, r.preferred? type = some version →
    ∀ schema, r.selectApiVersion schema type = version
  newest : r.preferred? type = none → ∀ schema : ResourceSchema, schema.apiVersions ≠ [] →
    Newest schema.apiVersions (r.selectApiVersion schema type)
  fallback : r.preferred? type = none → ∀ schema : ResourceSchema, schema.apiVersions = [] →
    r.selectApiVersion schema type = fallbackApiVersion
  steady : ∀ (schema schema' : ResourceSchema) (choices choices' : List Json),
    schema.choices? = some choices → schema'.choices? = some choices' →
    Relation.ReflTransGen HarmlessChange choices choices' →
    r.selectApiVersion schema' type = r.selectApiVersion schema type

/-- Every registry picks so for every type. -/
theorem selectApiVersion_newest (r : Registry) (type : String) : PicksNewest r type where
  preferred _ preferred schema := selectApiVersion_of_preferred schema preferred
  newest none schema offers := newest_selectApiVersion schema none offers
  fallback none schema offers := selectApiVersion_of_no_offers schema none offers
  steady schema schema' choices choices' listed listed' changes := by
    refine selectApiVersion_eq_of_nothingNewer ?_
    rw [ResourceSchema.apiVersions_of_choices listed, ResourceSchema.apiVersions_of_choices listed']
    exact offersNothingNewer_of_changes changes

/-- A schema that offers some choices of API versions. -/
def choosing (choices : List Json) : ResourceSchema :=
  ⟨.obj [("properties", .obj [("apiVersion", .obj [("enum", .arr choices)])])]⟩

/-- Of two previews and two stable versions, one of them twice and not all of them strings, the
greater stable one is picked, as it is where only that one and one preview are on offer. A preferred
version is picked whatever is on offer. -/
theorem selectApiVersion_newest_gears :
    let stable := "2021-06-01"
    let few : List Json := [.str stable, .str "2022-05-01-preview"]
    let many : List Json := [.str stable, .str "2021-01-01", .null, .str "2023-01-01-preview",
      .str "2022-05-01-preview", .str stable]
    azure.preferred? "Acme/gears" = none ∧
      Relation.ReflTransGen HarmlessChange few many ∧
      Newest (choosing few).apiVersions stable ∧
      azure.selectApiVersion (choosing many) "Acme/gears" = stable ∧
      azure.selectApiVersion (choosing []) "Acme/gears" = fallbackApiVersion ∧
      azure.preferred? "Microsoft.Web/sites" = some "2022-03-01" ∧
      ∀ schema, azure.selectApiVersion schema "Microsoft.Web/sites" = "2022-03-01" := by
  intro stable few many
  have gears := selectApiVersion_newest azure "Acme/gears"
  have sites := selectApiVersion_newest azure "Microsoft.Web/sites"
  have none : azure.preferred? "Acme/gears" = none := by decide +kernel
  have preferred : azure.preferred? "Microsoft.Web/sites" = some "2022-03-01" := by decide +kernel
  have picked : azure.selectApiVersion (choosing few) "Acme/gears" = stable := by decide +kernel
  have swapped : few.Perm [.str "2022-05-01-preview", .str stable] := List.Perm.swap _ _ _
  have changes : Relation.ReflTransGen HarmlessChange few many :=
    (((((Relation.ReflTransGen.single (.permuted swapped)).tail
      (.preview (w := stable) (by decide) (by decide) (by decide))).tail
      (.noString rfl)).tail
      (.smaller (w := stable) (by decide) (by decide) (Text.bytes_le_iff.mpr (by decide)))).tail
      (.repeated (by decide)))
  refine ⟨none, changes, ?_, ?_, gears.fallback none _ rfl, preferred,
    sites.preferred "2022-03-01" preferred⟩
  · have newest := gears.newest none (choosing few) (by decide)
    rwa [picked] at newest
  · exact (gears.steady (choosing few) (choosing many) few many rfl rfl changes).trans picked

end Registry

end BicepForge
