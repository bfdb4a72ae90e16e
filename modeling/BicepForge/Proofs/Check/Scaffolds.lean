import BicepForge.Proofs.Assembly.Correction
import BicepForge.Proofs.Check.Knowledge
import BicepForge.Proofs.Check.ListedTypes

/-!
# Checks of scaffolds

A scaffold and the check of it ask a provider different questions, and each of them falls back on
the registry if one of its own questions fails: the scaffold asks for versions and regions, the
check whether the type exists and then for versions. Main statement: a scaffold is of the type that
it was made for, and the check of it finds nothing invalid exactly if both go by the same source, or
if the one that was used for the scaffold lists nothing that the other one does not.
-/

namespace BicepForge

/-! ## What a provider brings about -/

namespace Provider

/-- The API versions of a scaffold, beside those that the registry knows. -/
def offered (p : Provider) (type : String) (known : List String) : List String :=
  match p.versions type, p.locations type with
  | .ok versions, .ok _ => versions
  | _, _ => known

/-- The API versions that a check accepts, beside those that the registry knows. -/
def accepted (p : Provider) (type : String) (known : List String) : List String :=
  match (p.describe type).1 with
  | .ok a => a.apiVersions
  | .error _ => known

/-- The answers of a provider by which a check accepts what a scaffold offers. -/
inductive Concurs (p : Provider) (type : String) (known : List String) : Prop where
  /-- Both go by the provider. -/
  | live {versions locations : List String} (present : p.existence type = .ok true)
      (listed : p.versions type = .ok versions) (located : p.locations type = .ok locations)
  /-- Both go by the registry. -/
  | offline {e : MetadataError} (fails : p.Fails type e)
      (unoffered : ∀ versions locations,
        p.versions type = .ok versions → p.locations type ≠ .ok locations)
  /-- Only the scaffold goes by the provider, and the registry knows its versions. -/
  | known {e : MetadataError} {versions locations : List String}
      (fails : p.existence type = .error e) (listed : p.versions type = .ok versions)
      (located : p.locations type = .ok locations) (covered : versions ⊆ known)
  /-- Only the check goes by the provider, which lists the versions of the registry. -/
  | unlocated {e : MetadataError} {versions : List String} (present : p.existence type = .ok true)
      (listed : p.versions type = .ok versions) (fails : p.locations type = .error e)
      (covered : known ⊆ versions)
  /-- The type does not exist, and the provider lists no version of it. -/
  | absent {locations : List String} (absent : p.existence type = .ok false)
      (unlisted : p.versions type = .ok []) (located : p.locations type = .ok locations)

section Concurs

variable {p : Provider} {type : String} {known : List String}

theorem offered_of_ok {versions locations : List String} (listed : p.versions type = .ok versions)
    (located : p.locations type = .ok locations) : p.offered type known = versions := by
  simp only [offered, listed, located]

theorem offered_of_not_ok (unoffered : ∀ versions locations,
    p.versions type = .ok versions → p.locations type ≠ .ok locations) :
    p.offered type known = known := by
  unfold offered
  split
  case h_1 versions locations listed located => exact absurd located (unoffered _ _ listed)
  case h_2 => rfl

theorem accepted_of_fails {e : MetadataError} (fails : p.Fails type e) :
    p.accepted type known = known := by
  rw [accepted, describe_of_fails fails]

theorem accepted_of_absent (absent : p.existence type = .ok false) :
    p.accepted type known = [] := by
  rw [accepted, describe_of_answers (.inl ⟨absent, rfl⟩)]

theorem mem_accepted_of_present {versions : List String} (present : p.existence type = .ok true)
    (listed : p.versions type = .ok versions) {version : String} :
    version ∈ p.accepted type known ↔ version ∈ versions := by
  rw [accepted, describe_of_answers (.inr ⟨present, versions, listed, rfl⟩)]
  exact List.mem_mergeSort

theorem accepted_subset_of_concurs (h : p.Concurs type known) :
    p.offered type known ⊆ p.accepted type known := by
  cases h with
  | live present listed located =>
    rw [offered_of_ok listed located]
    exact fun version mem => (mem_accepted_of_present present listed).mpr mem
  | offline fails unoffered =>
    rw [offered_of_not_ok unoffered, accepted_of_fails fails]
    exact List.Subset.refl known
  | known fails listed located covered =>
    rwa [offered_of_ok listed located, accepted_of_fails (.inl fails)]
  | unlocated present listed fails covered =>
    rw [offered_of_not_ok fun _ _ _ located => by rw [fails] at located; cases located]
    exact fun version mem => (mem_accepted_of_present present listed).mpr (covered mem)
  | absent absent unlisted located =>
    rw [offered_of_ok unlisted located]
    exact List.nil_subset _

/-- Where the registry knows versions, a provider concurs if the check accepts what the scaffold
offers. -/
theorem concurs_of_subset (some : known ≠ [])
    (h : p.offered type known ⊆ p.accepted type known) : p.Concurs type known := by
  by_cases offers : ∃ versions locations,
      p.versions type = .ok versions ∧ p.locations type = .ok locations
  · obtain ⟨versions, locations, listed, located⟩ := offers
    rw [offered_of_ok listed located] at h
    cases existence : p.existence type with
    | error e =>
      rw [accepted_of_fails (.inl existence)] at h
      exact .known existence listed located h
    | ok present =>
      cases present with
      | true => exact .live existence listed located
      | false =>
        rw [accepted_of_absent existence, List.subset_nil] at h
        subst h
        exact .absent existence listed located
  · have unoffered : ∀ versions locations,
        p.versions type = .ok versions → p.locations type ≠ .ok locations :=
      fun versions locations listed located => offers ⟨versions, locations, listed, located⟩
    rw [offered_of_not_ok unoffered] at h
    cases existence : p.existence type with
    | error e => exact .offline (.inl existence) unoffered
    | ok present =>
      cases present with
      | false =>
        rw [accepted_of_absent existence, List.subset_nil] at h
        exact absurd h some
      | true =>
        cases listed : p.versions type with
        | error e => exact .offline (.inr ⟨existence, listed⟩) unoffered
        | ok versions =>
          cases located : p.locations type with
          | ok locations => exact absurd located (unoffered _ _ listed)
          | error e =>
            exact .unlocated existence listed located fun version mem =>
              (mem_accepted_of_present existence listed).mp (h mem)

end Concurs

end Provider

/-! ## Scaffolds -/

namespace Scaffold

theorem apiVersions_schema (type : String) (versions locations : List String) :
    (schema type versions locations).apiVersions = versions := by
  have choices : (schema type versions locations).choices? = some (versions.map .str) := rfl
  rw [ResourceSchema.apiVersions_of_choices choices, List.filterMap_map]
  exact List.filterMap_some

section Runs

variable {c : Context} {p : Provider} {type : String}

/-- A scaffold that is made without a provider offers what the registry knows. -/
theorem offlineVersions_of_lists {r : Registry} (lists : r.Lists type) :
    offlineVersions r type = r.knownVersions type := by
  have some := (r.lists_iff type).mp lists
  unfold offlineVersions Registry.knownVersions
  split
  case h_1 none => exact absurd none some
  case h_2 => rfl

theorem resourceType?_run (c : Context) (type : String) :
    (run c type).1.resourceType? = some type := by
  unfold run
  split
  · rfl
  · split <;> rfl

/-- A scaffold is made without a change of what is known. -/
theorem sameKnowledge_run (c : Context) (type : String) :
    Check.SameKnowledge c (run c type).2 := by
  unfold run
  split
  · exact .refl c
  · split <;> exact ⟨rfl, rfl, fun _ _ _ => rfl⟩

theorem apiVersions_run_of_cannotAsk (none : ∀ p, ¬ c.CanAsk p) (lists : c.registry.Lists type) :
    (run c type).1.apiVersions = c.registry.knownVersions type := by
  rw [run, Check.liveProvider?_of_not_canAsk none]
  exact (apiVersions_schema _ _ _).trans (offlineVersions_of_lists lists)

theorem apiVersions_run (ask : c.CanAsk p) (lists : c.registry.Lists type) :
    (run c type).1.apiVersions = p.offered type (c.registry.knownVersions type) := by
  have unoffered := (apiVersions_schema type _ offlineLocations).trans
    (offlineVersions_of_lists lists)
  rw [run, Check.liveProvider?_of_canAsk ask]
  dsimp only [Provider.offered]
  cases p.versions type with
  | error e => exact unoffered
  | ok versions =>
    cases p.locations type with
    | error e => exact unoffered
    | ok locations => exact apiVersions_schema _ _ _

end Runs

end Scaffold

/-! ## The check of a scaffold -/

namespace Check

variable {c : Context} {type : String}

theorem available_checkType_of_cannotAsk (none : ∀ p, ¬ c.CanAsk p) (schema : ResourceSchema) :
    (checkType c type schema).1.available = c.registry.knownVersions type := by
  rw [checkType_unasked none]
  rfl

/-- Without a kept answer a check accepts what the provider makes it accept. -/
theorem available_checkType {p : Provider} (ask : c.CanAsk p) (missing : c.cache.get? type = none)
    (schema : ResourceSchema) :
    (checkType c type schema).1.available =
      p.accepted type (c.registry.knownVersions type) := by
  rw [result_of_answer ask, answer_of_missing missing, Provider.accepted]
  cases (p.describe type).1 <;> rfl

/-- The check that goes with a scaffold: of the schema that was made, in the context as it is
then. -/
def checkOfScaffold (c : Context) (type : String) : TypeCheck :=
  (checkType (Scaffold.run c type).2 type (Scaffold.run c type).1).1

theorem checkOfScaffold_eq (c : Context) (type : String) :
    checkOfScaffold c type = (checkType c type (Scaffold.run c type).1).1 :=
  (Scaffold.sameKnowledge_run c type).result_eq type _

/-- A scaffold is of the type that it was made for. If no answer about the type is kept and the
registry knows versions of it, the check that goes with the scaffold finds no API version invalid
exactly if there is no provider to ask or the provider concurs. -/
theorem checkOfScaffold_valid_iff (c : Context) (type : String)
    (missing : c.cache.get? type = none) (lists : c.registry.Lists type) :
    (Scaffold.run c type).1.resourceType? = some type ∧
      ((checkOfScaffold c type).invalidVersions = [] ↔
        ∀ p, c.CanAsk p → p.Concurs type (c.registry.knownVersions type)) := by
  refine ⟨Scaffold.resourceType?_run c type, ?_⟩
  have asked := (Assembly.subject_checkType c (Scaffold.run c type).1 type).2
  rw [checkOfScaffold_eq, Assembly.invalidVersions_eq_nil_iff, asked]
  by_cases ask : ∃ p, c.CanAsk p
  · obtain ⟨p, ask⟩ := ask
    have some := (c.registry.lists_iff type).mp lists
    rw [Scaffold.apiVersions_run ask lists, available_checkType ask missing]
    constructor
    · rintro subset q ask'
      obtain rfl := ask.unique ask'
      exact Provider.concurs_of_subset some subset
    · exact fun concurs => Provider.accepted_subset_of_concurs (concurs p ask)
  · have none := not_exists.mp ask
    rw [Scaffold.apiVersions_run_of_cannotAsk none lists, available_checkType_of_cannotAsk none]
    exact iff_of_true (List.Subset.refl _) fun p ask => absurd ask (none p)

/-- A provider whose answers on a type are given. -/
def answering (existence : Except MetadataError Bool)
    (versions locations : Except MetadataError (List String)) : Provider :=
  { existence := fun _ => existence
    versions := fun _ => versions
    locations := fun _ => locations }

/-- The scaffold of a type that exists passes the check, with the versions of the provider, and with
those of the registry if the provider fails to list any. -/
theorem checkOfScaffold_valid_iff_sites :
    let type := "Microsoft.Web/sites"
    let live : Context :=
      { now := ⟨0⟩, provider? := some (answering (.ok true) (.ok ["2099-01-01"]) (.ok ["eastus"])) }
    let failing : Context :=
      { now := ⟨0⟩
        provider? := some (answering (.ok true) (.error (.failed "down")) (.ok ["eastus"])) }
    ((live.cache.get? type = none ∧ live.registry.Lists type) ∧
      (failing.cache.get? type = none ∧ failing.registry.Lists type)) ∧
    (Scaffold.run live type).1.apiVersions = ["2099-01-01"] ∧
    (checkOfScaffold live type).invalidVersions = [] ∧
    (checkOfScaffold failing type).invalidVersions = [] := by
  intro type live failing
  have lists : Registry.azure.Lists type := by decide +kernel
  refine ⟨⟨⟨rfl, lists⟩, rfl, lists⟩, rfl, ?_, ?_⟩
  · refine (checkOfScaffold_valid_iff live type rfl lists).2.mpr fun p ask => ?_
    obtain rfl := Option.some.inj ask.1
    exact .live rfl rfl rfl
  · refine (checkOfScaffold_valid_iff failing type rfl lists).2.mpr fun p ask => ?_
    obtain rfl := Option.some.inj ask.1
    exact .offline (.inr ⟨rfl, rfl⟩) fun _ _ listed => by cases listed

/-- Where a provider fails on one question only, a scaffold and the check of it go by different
sources, and nothing that the scaffold offers need be accepted. -/
theorem checkOfScaffold_invalid :
    let type := "Microsoft.Web/sites"
    let unsure : Context :=
      { now := ⟨0⟩
        provider? := some
          (answering (.error (.failed "down")) (.ok ["2099-01-01"]) (.ok ["eastus"])) }
    let unlocated : Context :=
      { now := ⟨0⟩
        provider? := some
          (answering (.ok true) (.ok ["2099-01-01"]) (.error (.failed "down"))) }
    Registry.azure.Lists type ∧
      (checkOfScaffold unsure type).invalidVersions = ["2099-01-01"] ∧
      (checkOfScaffold unlocated type).invalidVersions = Registry.azure.knownVersions type := by
  decide +kernel

end Check

end BicepForge
