import BicepForge.Check.ResourceType
import BicepForge.Proofs.Metadata.Cache
import BicepForge.Proofs.Text.Joined
import BicepForge.Scaffold

/-!
# What a type check consults

A check of a resource type takes one of four ways: nobody can be asked, an answer is kept, the
provider fails, or it answers. Each way has its equation here, and all else about checks follows
from the four. Main statement: every check has one outcome, a failure leaves no trace but a note,
and the report names the source that was used.
-/

namespace BicepForge

/-- There is a provider that can be asked. -/
def Context.CanAsk (c : Context) (p : Provider) : Prop :=
  c.provider? = some p ∧ p.authenticated = true

theorem Context.CanAsk.unique {c : Context} {p q : Provider} (hp : c.CanAsk p) (hq : c.CanAsk q) :
    p = q :=
  Option.some.inj (hp.1.symm.trans hq.1)

namespace Provider

/-- The provider cannot say whether a type exists, or which versions an existing one has. -/
def Fails (p : Provider) (type : String) (e : MetadataError) : Prop :=
  p.existence type = .error e ∨ (p.existence type = .ok true ∧ p.versions type = .error e)

/-- The provider says that a type does not exist, or which versions it has, in any order. -/
def Answers (p : Provider) (type : String) (a : LiveAnswer) : Prop :=
  (p.existence type = .ok false ∧ a = ⟨false, []⟩) ∨
    (p.existence type = .ok true ∧
      ∃ versions, p.versions type = .ok versions ∧ a = ⟨true, Text.sorted versions⟩)

variable {p : Provider} {type : String}

theorem describe_of_fails {e : MetadataError} (h : p.Fails type e) :
    (p.describe type).1 = .error e := by
  rcases h with existence | ⟨existence, versions⟩
  · simp only [describe, existence]
  · simp only [describe, existence, versions, Except.map]

theorem describe_of_answers {a : LiveAnswer} (h : p.Answers type a) :
    (p.describe type).1 = .ok a := by
  rcases h with ⟨existence, rfl⟩ | ⟨existence, versions, versionsOk, rfl⟩
  · simp only [describe, existence]
  · simp only [describe, existence, versionsOk, Except.map]

/-- A provider either fails on a type or answers. -/
theorem fails_or_answers (p : Provider) (type : String) :
    (∃ e, p.Fails type e) ∨ ∃ a, p.Answers type a := by
  cases existence : p.existence type with
  | error e => exact .inl ⟨e, .inl existence⟩
  | ok present =>
    cases present with
    | false => exact .inr ⟨_, .inl ⟨existence, rfl⟩⟩
    | true =>
      cases versions : p.versions type with
      | error e => exact .inl ⟨e, .inr ⟨existence, versions⟩⟩
      | ok found => exact .inr ⟨_, .inr ⟨existence, found, versions, rfl⟩⟩

/-- It never does both. -/
theorem Answers.not_fails {a : LiveAnswer} (h : p.Answers type a) : ¬ ∃ e, p.Fails type e := by
  rintro ⟨e, fails⟩
  have both := (describe_of_answers h).symm.trans (describe_of_fails fails)
  cases both

/-- What is kept of an answer is sound. -/
theorem Answers.sound {a : LiveAnswer} (h : p.Answers type a) (now : Instant) :
    (CachedType.mk type a.present a.apiVersions now).Sound := by
  rcases h with ⟨-, rfl⟩ | ⟨-, versions, -, rfl⟩
  · exact ⟨List.Pairwise.nil, fun _ => rfl⟩
  · exact ⟨Text.sorted_sorted versions, fun absent => by cases absent⟩

end Provider

namespace Check

section Ways

variable {c : Context} {p : Provider} {type : String}

theorem liveProvider?_of_canAsk (h : c.CanAsk p) : c.liveProvider? = some p := by
  rw [Context.liveProvider?, h.1]
  exact Option.filter_some_pos h.2

theorem liveProvider?_of_not_canAsk (h : ∀ p, ¬ c.CanAsk p) : c.liveProvider? = none := by
  rw [Context.liveProvider?, Option.filter_eq_none_iff]
  intro p hp authenticated
  exact h p ⟨hp, authenticated⟩

/-- The context after an answer of a provider, which is kept. -/
def learned (c : Context) (p : Provider) (type : String) (a : LiveAnswer) : Context :=
  { c.asked (p.describe type).2 with
    cache := c.cache.insert ⟨type, a.present, a.apiVersions, c.now⟩ }

theorem checkType_unasked (h : ∀ p, ¬ c.CanAsk p) (schema : ResourceSchema) :
    checkType c type schema = (.offline c.registry type schema, c) := by
  rw [checkType, liveProvider?_of_not_canAsk h]

theorem checkType_kept (h : c.CanAsk p) {info : CachedType} (kept : c.cache.get? type = some info)
    (schema : ResourceSchema) : checkType c type schema = (.live info type schema, c) := by
  simp only [checkType, liveProvider?_of_canAsk h, liveAnswer, kept]

theorem checkType_failed (h : c.CanAsk p) (missing : c.cache.get? type = none)
    {e : MetadataError} (fails : p.Fails type e) (schema : ResourceSchema) :
    checkType c type schema =
      (.fallback c.registry type schema e, c.asked (p.describe type).2) := by
  simp only [checkType, liveProvider?_of_canAsk h, liveAnswer, missing,
    Provider.describe_of_fails fails]
  rfl

theorem checkType_learned (h : c.CanAsk p) (missing : c.cache.get? type = none)
    {a : LiveAnswer} (answers : p.Answers type a) (schema : ResourceSchema) :
    checkType c type schema =
      (.live ⟨type, a.present, a.apiVersions, c.now⟩ type schema, learned c p type a) := by
  simp only [checkType, liveProvider?_of_canAsk h, liveAnswer, missing,
    Provider.describe_of_answers answers]
  rfl

/-- The way that a check of a type takes. -/
inductive Way (c : Context) (type : String) : Prop where
  | unasked (h : ∀ p, ¬ c.CanAsk p)
  | kept (p : Provider) (h : c.CanAsk p) (info : CachedType) (kept : c.cache.get? type = some info)
  | failed (p : Provider) (h : c.CanAsk p) (missing : c.cache.get? type = none)
      (e : MetadataError) (fails : p.Fails type e)
  | learned (p : Provider) (h : c.CanAsk p) (missing : c.cache.get? type = none)
      (a : LiveAnswer) (answers : p.Answers type a)

/-- Every check takes one of the ways. -/
theorem way (c : Context) (type : String) : Way c type := by
  by_cases ask : ∃ p, c.CanAsk p
  · obtain ⟨p, h⟩ := ask
    cases kept : c.cache.get? type with
    | some info => exact .kept p h info kept
    | none =>
      rcases p.fails_or_answers type with ⟨e, fails⟩ | ⟨a, answers⟩
      · exact .failed p h kept e fails
      · exact .learned p h kept a answers
  · exact .unasked (not_exists.mp ask)

/-- A check changes neither the registry nor the provider nor the time. -/
theorem surroundings_checkType (c : Context) (type : String) (schema : ResourceSchema) :
    (checkType c type schema).2.registry = c.registry ∧
      (checkType c type schema).2.provider? = c.provider? ∧
      (checkType c type schema).2.now = c.now := by
  cases way c type with
  | unasked none =>
    rw [checkType_unasked none]
    exact ⟨rfl, rfl, rfl⟩
  | kept p ask info kept =>
    rw [checkType_kept ask kept]
    exact ⟨rfl, rfl, rfl⟩
  | failed p ask missing e fails =>
    rw [checkType_failed ask missing fails]
    exact ⟨rfl, rfl, rfl⟩
  | learned p ask missing a answers =>
    rw [checkType_learned ask missing answers]
    exact ⟨rfl, rfl, rfl⟩

end Ways

/-! ## The source in a report -/

/-- What begins the line that names a source. -/
def sourceMark : String := "Source: "

/-- The lines of a report that name a source. -/
def sourceLines (r : Report) : List String :=
  (r.errors ++ r.warnings ++ r.info).filter (Text.startsWith · sourceMark)

/-- A text that is told from a line with a source by how it begins. -/
def IsOther (s : String) : Prop :=
  sourceMark.toList.length ≤ s.toList.length ∧ Text.startsWith s sourceMark = false

instance (s : String) : Decidable (IsOther s) :=
  inferInstanceAs (Decidable (_ ∧ _))

theorem IsOther.append {s : String} (h : IsOther s) (rest : String) : IsOther (s ++ rest) := by
  obtain ⟨long, other⟩ := h
  rw [IsOther, Text.startsWith, String.toList_append, List.length_append]
  refine ⟨by omega, ?_⟩
  rw [Bool.eq_false_iff, ne_eq, List.isPrefixOf_iff_prefix]
  intro begins
  have sooner := List.prefix_of_prefix_length_le begins (List.prefix_append _ _) long
  rw [← List.isPrefixOf_iff_prefix] at sooner
  rw [Text.startsWith, sooner] at other
  cases other

section Lines

variable {r : Report} {text : String} {texts : List String}

theorem sourceLines_note (r : Report) (text : String) :
    sourceLines (r.note text) =
      sourceLines r ++ if Text.startsWith text sourceMark then [text] else [] := by
  simp only [sourceLines, Report.note, List.filter_append, List.filter_cons, List.filter_nil,
    List.append_assoc]

theorem sourceLines_note_of_isOther (h : IsOther text) :
    sourceLines (r.note text) = sourceLines r := by
  rw [sourceLines_note, h.2]
  exact List.append_nil _

theorem sourceLines_warning_of_isOther (h : IsOther text) :
    sourceLines (r.warning text) = sourceLines r := by
  simp only [sourceLines, Report.warning, List.filter_append, List.filter_cons, h.2,
    Bool.false_eq_true, if_false, List.filter_nil, List.append_nil]

theorem sourceLines_withNotes (h : ∀ text ∈ texts, IsOther text) :
    sourceLines (r.withNotes texts) = sourceLines r := by
  induction texts generalizing r with
  | nil => rfl
  | cons text texts ih =>
    rw [List.forall_mem_cons] at h
    exact (ih h.2).trans (sourceLines_note_of_isOther h.1)

theorem sourceLines_withWarnings (h : ∀ text ∈ texts, IsOther text) :
    sourceLines (r.withWarnings texts) = sourceLines r := by
  induction texts generalizing r with
  | nil => rfl
  | cons text texts ih =>
    rw [List.forall_mem_cons] at h
    exact (ih h.2).trans (sourceLines_warning_of_isOther h.1)

end Lines

theorem sourceLines_reportVersions (t : TypeCheck) (r : Report) :
    sourceLines (reportVersions t r) = sourceLines r := by
  have valid : IsOther "All API versions are valid" := by decide +kernel
  have invalid : IsOther "Invalid API versions: " := by decide +kernel
  have latest : IsOther "Latest valid versions: " := by decide +kernel
  unfold reportVersions
  split
  · rfl
  split
  · exact sourceLines_note_of_isOther valid
  · dsimp only
    split
    · exact sourceLines_warning_of_isOther (invalid.append _)
    · rw [sourceLines_note_of_isOther (latest.append _)]
      exact sourceLines_warning_of_isOther (invalid.append _)

/-- A report names its source in one line, unless a note of the check looks like such a line. -/
theorem sourceLines_report {t : TypeCheck} (notes : ∀ note ∈ t.notes, IsOther note) :
    sourceLines t.report = [sourceMark ++ t.source.description] := by
  have resource : IsOther "Resource type \"" := by decide +kernel
  have similar : IsOther "Similar resource type: " := by decide +kernel
  have connect : IsOther "Connect to Azure for live validation" := by decide +kernel
  have first : sourceLines
      (if t.known then Report.empty.note ("Resource type \"" ++ t.type ++ "\" exists in Azure")
        else (Report.empty.warning ("Resource type \"" ++ t.type ++
          "\" not found in Azure")).withNotes
            (t.suggestions.map fun s => "Similar resource type: " ++ s)) = [] := by
    split
    · exact sourceLines_note_of_isOther ((resource.append _).append _)
    · rw [sourceLines_withNotes (List.forall_mem_map.mpr fun s _ => similar.append s)]
      exact sourceLines_warning_of_isOther ((resource.append _).append _)
  have named : Text.startsWith (sourceMark ++ t.source.description) sourceMark = true :=
    Text.startsWith_append_self _ _
  have last (r : Report) : sourceLines
      (if t.isOffline then r.note "Connect to Azure for live validation" else r) =
        sourceLines r := by
    split
    · exact sourceLines_note_of_isOther connect
    · rfl
  rw [TypeCheck.report, last]
  show sourceLines (Report.note _ (sourceMark ++ t.source.description)) = _
  rw [sourceLines_note, named, sourceLines_withWarnings notes, sourceLines_reportVersions, first]
  rfl

/-! ## One outcome -/

/-- What is known about a type first hand, from the answer that is kept or else from the
provider. -/
def Knows (c : Context) (type : String) (present : Bool) (versions : List String) : Prop :=
  ∃ p, c.CanAsk p ∧
    ((∃ info, c.cache.get? type = some info ∧ info.present = present ∧
        info.apiVersions = versions) ∨
      (c.cache.get? type = none ∧ p.Answers type ⟨present, versions⟩))

/-- The result of a check and the context after it belong to one of three outcomes. -/
structure Settled (c : Context) (type : String) (schema : ResourceSchema) (result : TypeCheck)
    (after : Context) : Prop where
  /-- Without a provider that can be asked nobody is, nothing is kept, and the registry answers. -/
  unasked : (∀ p, ¬ c.CanAsk p) →
    result = .offline c.registry type schema ∧ after.log = c.log ∧ after.cache = c.cache
  /-- A provider that fails leaves nothing behind but a note beside what the registry says. -/
  failed : ∀ p, c.CanAsk p → c.cache.get? type = none → (∃ e, p.Fails type e) →
    after.cache = c.cache ∧
      ∃ note, result = { TypeCheck.offline c.registry type schema with
        notes := (TypeCheck.offline c.registry type schema).notes ++ [note] }
  /-- Otherwise the result is live and needs no note. -/
  answered : ∀ p, c.CanAsk p → (c.cache.get? type = none → ¬ ∃ e, p.Fails type e) →
    result.source = .live ∧ result.notes = []
  /-- An answer that is kept stays as it is, and nobody is asked. -/
  kept : ∀ info, c.cache.get? type = some info → after.cache = c.cache ∧ after.log = c.log
  /-- A new answer is kept beside the others. -/
  learned : ∀ p, c.CanAsk p → c.cache.get? type = none → (¬ ∃ e, p.Fails type e) →
    ∃ info, info.type = type ∧ info.present = result.known ∧ info.apiVersions = result.available ∧
      after.cache.entries = c.cache.entries ++ [(type, info)]
  /-- The source is live exactly if the result is first hand. -/
  live_iff : result.source = .live ↔ Knows c type result.known result.available
  /-- The report names the source, and it names it once. -/
  reported : sourceLines result.report = [sourceMark ++ result.source.description]

variable {c : Context} {type : String}

theorem isOther_note (e : MetadataError) :
    IsOther ("Live metadata unavailable, used offline data: " ++ e.message) := by
  have front : IsOther "Live metadata unavailable, used offline data: " := by decide +kernel
  exact front.append _

theorem settled_unasked (h : ∀ p, ¬ c.CanAsk p) (schema : ResourceSchema) :
    Settled c type schema (.offline c.registry type schema) c where
  unasked _ := ⟨rfl, rfl, rfl⟩
  failed p ask := absurd ask (h p)
  answered p ask := absurd ask (h p)
  kept _ _ := ⟨rfl, rfl⟩
  learned p ask := absurd ask (h p)
  live_iff := by
    constructor
    · intro live
      cases live
    · rintro ⟨p, ask, -⟩
      exact absurd ask (h p)
  reported := sourceLines_report fun note mem => by cases mem

theorem settled_kept {p : Provider} (h : c.CanAsk p) {info : CachedType}
    (kept : c.cache.get? type = some info) (schema : ResourceSchema) :
    Settled c type schema (.live info type schema) c where
  unasked none := absurd h (none p)
  failed _ _ missing := absurd missing (Cache.get?_ne_none kept)
  answered _ _ _ := ⟨rfl, rfl⟩
  kept _ _ := ⟨rfl, rfl⟩
  learned _ _ missing := absurd missing (Cache.get?_ne_none kept)
  live_iff := iff_of_true rfl ⟨p, h, .inl ⟨info, kept, rfl, rfl⟩⟩
  reported := sourceLines_report fun note mem => by cases mem

theorem settled_failed {p : Provider} (h : c.CanAsk p) (missing : c.cache.get? type = none)
    {e : MetadataError} (fails : p.Fails type e) (queries : List Query)
    (schema : ResourceSchema) :
    Settled c type schema (.fallback c.registry type schema e) (c.asked queries) where
  unasked none := absurd h (none p)
  failed _ _ _ _ := ⟨rfl, _, rfl⟩
  answered q ask answers := by
    obtain rfl := h.unique ask
    exact absurd ⟨e, fails⟩ (answers missing)
  kept info kept := absurd missing (Cache.get?_ne_none kept)
  learned q ask _ answers := by
    obtain rfl := h.unique ask
    exact absurd ⟨e, fails⟩ answers
  live_iff := by
    constructor
    · intro live
      cases live
    · rintro ⟨q, ask, ⟨info, kept, -⟩ | ⟨-, answers⟩⟩
      · exact absurd missing (Cache.get?_ne_none kept)
      · obtain rfl := h.unique ask
        exact absurd ⟨e, fails⟩ answers.not_fails
  reported := by
    refine sourceLines_report fun note mem => ?_
    obtain rfl := List.mem_singleton.mp mem
    exact isOther_note e

theorem settled_learned {p : Provider} (h : c.CanAsk p) (missing : c.cache.get? type = none)
    {a : LiveAnswer} (answers : p.Answers type a) (schema : ResourceSchema) :
    Settled c type schema (.live ⟨type, a.present, a.apiVersions, c.now⟩ type schema)
      (learned c p type a) where
  unasked none := absurd h (none p)
  failed q ask _ fails := by
    obtain rfl := h.unique ask
    exact absurd fails answers.not_fails
  answered _ _ _ := ⟨rfl, rfl⟩
  kept info kept := absurd missing (Cache.get?_ne_none kept)
  learned _ _ _ _ :=
    ⟨⟨type, a.present, a.apiVersions, c.now⟩, rfl, rfl, rfl,
      Cache.entries_insert_of_get?_eq_none missing⟩
  live_iff := iff_of_true rfl ⟨p, h, .inr ⟨missing, answers⟩⟩
  reported := sourceLines_report fun note mem => by cases mem

/-- Scaffolding keeps nothing. -/
theorem cache_scaffold (c : Context) (type : String) :
    (Scaffold.run c type).2.cache = c.cache := by
  unfold Scaffold.run
  split
  · rfl
  · dsimp only
    split <;> rfl

/-- Every check has one of the three outcomes, so a provider that is absent, signed out or failing
leaves no trace in the cache; nor does scaffolding. -/
theorem checkType_settled (c : Context) (type : String) (schema : ResourceSchema) :
    Settled c type schema (checkType c type schema).1 (checkType c type schema).2 ∧
      (Scaffold.run c type).2.cache = c.cache := by
  refine ⟨?_, cache_scaffold c type⟩
  cases way c type with
  | unasked h =>
    rw [checkType_unasked h]
    exact settled_unasked h schema
  | kept p h info kept =>
    rw [checkType_kept h kept]
    exact settled_kept h kept schema
  | failed p h missing e fails =>
    rw [checkType_failed h missing fails]
    exact settled_failed h missing fails _ schema
  | learned p h missing a answers =>
    rw [checkType_learned h missing answers]
    exact settled_learned h missing answers schema

end Check

end BicepForge
