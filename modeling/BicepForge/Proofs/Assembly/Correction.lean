import BicepForge.Proofs.Assembly.Rearrangement
import BicepForge.Proofs.Assembly.Versions
import BicepForge.Proofs.Document.ApiVersions
import BicepForge.Proofs.Text.Joined

/-!
# Correction of API versions

A schema that offers API versions which do not exist is given the last one that does, unless none is
known. One correction is enough: in the schema that is kept then, nothing is found that would have
to be corrected, and the member that comes of it is the same again.
-/

namespace BicepForge.Assembly

open Check

/-! ## Warnings about API versions -/

/-- What begins the finding that API versions may not exist. -/
def versionsMark : String := "API versions "

/-- What begins the finding that API versions were corrected. -/
def correctionMark : String := "Auto-corrected to use API version "

/-- The warnings about a resource that begin with a mark. -/
def marked (entry : CatalogEntry) (mark : String) (warnings : List String) : List String :=
  warnings.filter (Text.startsWith · (entry.name ++ ": " ++ mark))

/-- The warning that the API versions of a resource were corrected. -/
def correctionWarning (entry : CatalogEntry) (version : String) : String :=
  entry.name ++ ": " ++ (correctionMark ++ version)

theorem marked_map (entry : CatalogEntry) (mark : String) (texts : List String) :
    marked entry mark (texts.map fun text => entry.name ++ ": " ++ text) =
      (texts.filter (Text.startsWith · mark)).map fun text => entry.name ++ ": " ++ text := by
  rw [marked, List.filter_map]
  congr 2
  exact funext fun text => Text.startsWith_append_left _ _ _

/-- All notes of a check are about a provider that failed. -/
theorem exists_of_mem_notes {c : Context} {type : String} {schema : ResourceSchema} {note : String}
    (h : note ∈ (checkType c type schema).1.notes) :
    ∃ e : MetadataError, note = "Live metadata unavailable, used offline data: " ++ e.message := by
  cases way c type with
  | unasked none =>
    rw [checkType_unasked none] at h
    cases h
  | kept p ask info kept =>
    rw [checkType_kept ask kept] at h
    cases h
  | failed p ask missing e fails =>
    rw [checkType_failed ask missing fails] at h
    exact ⟨e, List.mem_singleton.mp h⟩
  | learned p ask missing a answers =>
    rw [checkType_learned ask missing answers] at h
    cases h

/-- A mark by which findings are told from notes and from the finding that a type is unknown. -/
structure IsFindingMark (mark : String) : Prop where
  note : Text.startsWith "Live metadata unavailable, used offline data: " mark = false
  note' : Text.startsWith mark "Live metadata unavailable, used offline data: " = false
  unknown : Text.startsWith "Resource type may not be valid" mark = false

theorem isFindingMark_versionsMark : IsFindingMark versionsMark := by
  constructor <;> decide

theorem isFindingMark_correctionMark : IsFindingMark correctionMark := by
  constructor <;> decide

/-- The two marks are told from each other. -/
theorem marks_apart : Text.startsWith correctionMark versionsMark = false ∧
    Text.startsWith versionsMark correctionMark = false := by
  decide

section Findings

variable (c : Context) (type : String) (schema : ResourceSchema)

/-- Only the findings about API versions begin with a mark of theirs. -/
theorem filter_findings {mark : String} (isMark : IsFindingMark mark)
    (corrected? : Option Correction) :
    (findings (checkType c type schema).1 corrected?).filter (Text.startsWith · mark) =
      (if (checkType c type schema).1.invalidVersions.isEmpty then []
        else [versionsMark ++ String.intercalate ", " (checkType c type schema).1.invalidVersions ++
          " may be invalid"].filter (Text.startsWith · mark)) ++
      ((corrected?.map fun x => correctionMark ++ x.version).toList).filter
        (Text.startsWith · mark) := by
  have notes : (checkType c type schema).1.notes.filter (Text.startsWith · mark) = [] := by
    refine List.filter_eq_nil_iff.mpr fun note mem => ?_
    obtain ⟨e, rfl⟩ := exists_of_mem_notes mem
    rw [Text.startsWith_append_eq_false isMark.note isMark.note']
    exact Bool.false_ne_true
  have unknown : (if (checkType c type schema).1.known then []
      else ["Resource type may not be valid"]).filter (Text.startsWith · mark) = [] := by
    split
    · rfl
    · rw [List.filter_cons_of_neg (by simp [isMark.unknown]), List.filter_nil]
  rw [findings, List.filter_append, List.filter_append, List.filter_append, notes, unknown,
    List.nil_append, List.nil_append]
  congr 1
  split <;> rfl

/-- One finding tells of all API versions that may not exist. -/
theorem filter_findings_versions (corrected? : Option Correction) :
    (findings (checkType c type schema).1 corrected?).filter (Text.startsWith · versionsMark) =
      if (checkType c type schema).1.invalidVersions.isEmpty then []
      else [versionsMark ++ String.intercalate ", " (checkType c type schema).1.invalidVersions ++
        " may be invalid"] := by
  have other (version : String) :
      Text.startsWith (correctionMark ++ version) versionsMark = false :=
    Text.startsWith_append_eq_false marks_apart.1 marks_apart.2 version
  have corrections : ((corrected?.map fun x => correctionMark ++ x.version).toList).filter
      (Text.startsWith · versionsMark) = [] := by
    cases corrected? with
    | none => rfl
    | some x => exact List.filter_cons_of_neg (Bool.eq_false_iff.mp (other x.version))
  rw [filter_findings c type schema isFindingMark_versionsMark, corrections, List.append_nil]
  split
  · rfl
  · rw [String.append_assoc]
    exact List.filter_cons_of_pos (Text.startsWith_append_self _ _)

/-- One finding tells of a correction. -/
theorem filter_findings_correction (corrected? : Option Correction) :
    (findings (checkType c type schema).1 corrected?).filter (Text.startsWith · correctionMark) =
      (corrected?.map fun x => correctionMark ++ x.version).toList := by
  have other (rest : String) : Text.startsWith (versionsMark ++ rest) correctionMark = false :=
    Text.startsWith_append_eq_false marks_apart.2 marks_apart.1 rest
  have versions : (if (checkType c type schema).1.invalidVersions.isEmpty then []
      else [versionsMark ++ String.intercalate ", " (checkType c type schema).1.invalidVersions ++
        " may be invalid"].filter (Text.startsWith · correctionMark)) = [] := by
    split
    · rfl
    · rw [String.append_assoc]
      exact List.filter_cons_of_neg (Bool.eq_false_iff.mp (other _))
  rw [filter_findings c type schema isFindingMark_correctionMark, versions, List.nil_append]
  cases corrected? with
  | none => rfl
  | some x => exact List.filter_cons_of_pos (Text.startsWith_append_self _ _)

end Findings

/-! ## What becomes of the API versions of a schema -/

theorem mem_invalidVersions {check : TypeCheck} {version : String} :
    version ∈ check.invalidVersions ↔
      version ∈ check.schemaVersions ∧ version ∉ check.available := by
  simp [TypeCheck.invalidVersions]

/-- No API version is invalid exactly if all that the schema offers are listed. -/
theorem invalidVersions_eq_nil_iff {check : TypeCheck} :
    check.invalidVersions = [] ↔ check.schemaVersions ⊆ check.available := by
  simp [TypeCheck.invalidVersions, List.filter_eq_nil_iff, List.subset_def]

/-- What becomes of a schema by its check: its API versions exist, or none is known that could take
their place, or the last that is known does. -/
inductive Treatment (check : TypeCheck) (schema : ResourceSchema) : Option Correction → Prop where
  | valid (valid : check.invalidVersions = []) : Treatment check schema none
  | unlisted (invalid : check.invalidVersions ≠ []) (unlisted : check.available = []) :
      Treatment check schema none
  | corrected {last : String} {corrected : ResourceSchema} (invalid : check.invalidVersions ≠ [])
      (listed : check.latest? = some last)
      (made : schema.withApiVersions? [last] = some corrected) :
      Treatment check schema (some ⟨last, corrected⟩)

/-- A correction never fails: a schema with an invalid API version offers one, and so there is a
place for another. -/
theorem treatment_correction? {check : TypeCheck} {schema : ResourceSchema}
    (asked : check.schemaVersions = schema.apiVersions) :
    Treatment check schema (correction? check schema) := by
  unfold correction?
  split
  · rename_i valid
    exact .valid (List.isEmpty_iff.mp valid)
  · rename_i some
    have invalid : check.invalidVersions ≠ [] := mt List.isEmpty_iff.mpr some
    cases listed : check.latest? with
    | none => exact .unlisted invalid (List.getLast?_eq_none_iff.mp listed)
    | some last =>
      obtain ⟨version, mem⟩ := List.exists_mem_of_ne_nil _ invalid
      have offers : schema.apiVersions ≠ [] :=
        List.ne_nil_of_mem (asked ▸ (mem_invalidVersions.mp mem).1)
      obtain ⟨corrected, made⟩ :=
        Option.isSome_iff_exists.mp (ResourceSchema.isSome_withApiVersions?_of_offers offers)
      rw [Option.bind_some, made]
      exact .corrected invalid listed made

/-- A check for the same type finds the same of another schema, but for the API versions that this
one offers. -/
theorem checkType_of_other_schema (c : Context) (type : String) (schema other : ResourceSchema) :
    (checkType c type other).1 =
      { (checkType c type schema).1 with schemaVersions := other.apiVersions } := by
  cases way c type with
  | unasked none =>
    rw [checkType_unasked none, checkType_unasked none]
    rfl
  | kept p ask info kept =>
    rw [checkType_kept ask kept, checkType_kept ask kept]
    rfl
  | failed p ask missing e fails =>
    rw [checkType_failed ask missing fails, checkType_failed ask missing fails]
    rfl
  | learned p ask missing a answers =>
    rw [checkType_learned ask missing answers, checkType_learned ask missing answers]
    rfl

/-! ## Examinations -/

/-- An examination deals with the API versions of a schema as it should: the kept schema is the
loaded one if none is listed, and offers listed ones only otherwise; it is another schema exactly if
an offered version is not listed but some is, and then it offers the last listed one alone, of which
the user is told once. The version of the member is the preferred one, else the one of the
correction, else the one that the registry picks from the loaded schema. -/
structure Examination.Corrects (x : Examination) (registry : Registry) (schema : ResourceSchema) :
    Prop where
  settled : (x.check.available = [] ∧ x.member.schema = schema) ∨
    x.member.schema.apiVersions ⊆ x.check.available
  replaced_iff : x.member.schema ≠ schema ↔
    (∃ version ∈ schema.apiVersions, version ∉ x.check.available) ∧ x.check.available ≠ []
  replaced : x.member.schema ≠ schema → ∃ last, x.check.available.getLast? = some last ∧
    schema.withApiVersions? [last] = some x.member.schema ∧ x.member.schema.apiVersions = [last] ∧
    marked x.entry versionsMark x.warnings =
      [versionWarning x.entry (String.intercalate ", " x.check.invalidVersions)] ∧
    marked x.entry correctionMark x.warnings = [correctionWarning x.entry last]
  preferred : ∀ version, registry.preferred? x.check.type = some version →
    x.member.apiVersion = version
  corrected : registry.preferred? x.check.type = none → x.member.schema ≠ schema →
    x.check.available.getLast? = some x.member.apiVersion
  loaded : registry.preferred? x.check.type = none → x.member.schema = schema →
    x.member.apiVersion = registry.selectApiVersion schema x.check.type

/-- An examination of the schema that another one kept confirms it: the same API versions are
listed, none of the schema is invalid, the member is the same, and nobody is warned of versions. -/
structure Examination.Confirms (again x : Examination) : Prop where
  available : again.check.available = x.check.available
  valid : again.check.invalidVersions = []
  member : again.member = x.member
  versions : marked x.entry versionsMark again.warnings = []
  corrections : marked x.entry correctionMark again.warnings = []

section Examinations

variable (c : Context) (entry : CatalogEntry) (schema : ResourceSchema)

theorem entry_examination : (examination c entry schema).entry = entry := rfl

theorem schemaVersions_examination :
    (examination c entry schema).check.schemaVersions = schema.apiVersions :=
  (subject_checkType c schema (typeOf schema)).2

theorem treatment_examination :
    Treatment (examination c entry schema).check schema
      (correction? (examination c entry schema).check schema) :=
  treatment_correction? (schemaVersions_examination c entry schema)

theorem schema_member_examination :
    (examination c entry schema).member.schema =
      ((correction? (examination c entry schema).check schema).map (·.schema)).getD schema := rfl

/-- The version of a member is picked for the schema that is kept. -/
theorem apiVersion_examination :
    (examination c entry schema).member.apiVersion =
      c.registry.selectApiVersion (examination c entry schema).member.schema
        (examination c entry schema).check.type := by
  rw [show (examination c entry schema).check.type = typeOf schema from
    (subject_checkType c schema (typeOf schema)).1]
  rfl

theorem marked_examination (mark : String) :
    marked entry mark (examination c entry schema).warnings =
      ((findings (examination c entry schema).check
        (correction? (examination c entry schema).check schema)).filter
          (Text.startsWith · mark)).map fun text => entry.name ++ ": " ++ text :=
  marked_map entry mark _

theorem marked_versions_examination :
    marked entry versionsMark (examination c entry schema).warnings =
      if (examination c entry schema).check.invalidVersions.isEmpty then []
      else [versionWarning entry
        (String.intercalate ", " (examination c entry schema).check.invalidVersions)] := by
  rw [marked_examination, examination, filter_findings_versions]
  split <;> rfl

theorem marked_correction_examination :
    marked entry correctionMark (examination c entry schema).warnings =
      ((correction? (examination c entry schema).check schema).map fun x =>
        correctionWarning entry x.version).toList := by
  rw [marked_examination, examination, filter_findings_correction, Option.toList_map,
    Option.toList_map, List.map_map]
  rfl

end Examinations

/-! ## Corrections are right -/

section Corrects

variable (c : Context) (entry : CatalogEntry) {schema : ResourceSchema}

/-- A schema is kept that has nothing invalid, or for which nothing is listed. -/
theorem corrects_of_kept
    (none : correction? (examination c entry schema).check schema = none)
    (reason : (examination c entry schema).check.invalidVersions = [] ∨
      (examination c entry schema).check.available = []) :
    (examination c entry schema).Corrects c.registry schema := by
  have asked := schemaVersions_examination c entry schema
  have same : (examination c entry schema).member.schema = schema := by
    rw [schema_member_examination, none]
    rfl
  have picked := apiVersion_examination c entry schema
  rw [same] at picked
  refine ⟨?_, ?_, fun other => absurd same other, ?_, fun _ other => absurd same other,
    fun _ _ => picked⟩
  · refine reason.symm.imp (fun unlisted => ⟨unlisted, same⟩) fun valid => ?_
    rw [same, ← asked]
    exact invalidVersions_eq_nil_iff.mp valid
  · refine ⟨fun other => absurd same other, ?_⟩
    rintro ⟨⟨version, offered, unlisted⟩, some⟩
    have valid := invalidVersions_eq_nil_iff.mp (reason.resolve_right some)
    exact absurd (valid (asked ▸ offered)) unlisted
  · intro version preferred
    exact picked.trans (Registry.selectApiVersion_of_preferred _ preferred)

/-- A corrected schema offers a listed version alone, which it did not before. -/
theorem corrects_of_corrected {last : String} {corrected : ResourceSchema}
    (found : correction? (examination c entry schema).check schema = some ⟨last, corrected⟩)
    (invalid : (examination c entry schema).check.invalidVersions ≠ [])
    (listed : (examination c entry schema).check.available.getLast? = some last)
    (made : schema.withApiVersions? [last] = some corrected) :
    (examination c entry schema).Corrects c.registry schema := by
  have asked := schemaVersions_examination c entry schema
  have kept : (examination c entry schema).member.schema = corrected := by
    rw [schema_member_examination, found]
    rfl
  have offers : corrected.apiVersions = [last] := ResourceSchema.apiVersions_of_replaced made
  have isListed : last ∈ (examination c entry schema).check.available :=
    List.mem_of_getLast? listed
  obtain ⟨version, mem⟩ := List.exists_mem_of_ne_nil _ invalid
  obtain ⟨offered, unlisted⟩ := mem_invalidVersions.mp mem
  rw [asked] at offered
  -- the loaded schema offers a version that is not listed, and the corrected one does not
  have other : corrected ≠ schema := by
    rintro rfl
    rw [offers, List.mem_singleton] at offered
    exact unlisted (offered ▸ isListed)
  have picked := apiVersion_examination c entry schema
  rw [kept] at picked
  refine ⟨?_, ?_, fun _ => ⟨last, listed, ?_⟩, ?_, fun none _ => ?_, fun _ same => ?_⟩
  · right
    rw [kept, offers]
    exact List.cons_subset.mpr ⟨isListed, List.nil_subset _⟩
  · rw [kept]
    exact iff_of_true other ⟨⟨version, offered, unlisted⟩, List.ne_nil_of_mem isListed⟩
  · rw [kept, entry_examination, marked_versions_examination, marked_correction_examination, found]
    exact ⟨made, offers, if_neg (mt List.isEmpty_iff.mp invalid), rfl⟩
  · intro version preferred
    exact picked.trans (Registry.selectApiVersion_of_preferred _ preferred)
  · have offered : (examination c entry schema).member.apiVersion ∈ corrected.apiVersions := by
      rw [picked]
      exact Registry.selectApiVersion_of_offers corrected none (by simp [offers])
    rw [offers, List.mem_singleton] at offered
    rw [offered, listed]
  · exact absurd (kept.symm.trans same) other

theorem corrects_examination : (examination c entry schema).Corrects c.registry schema := by
  have treatment := treatment_examination c entry schema
  generalize found : correction? (examination c entry schema).check schema = corrected? at treatment
  cases treatment with
  | valid valid => exact corrects_of_kept c entry found (.inl valid)
  | unlisted invalid unlisted => exact corrects_of_kept c entry found (.inr unlisted)
  | corrected invalid listed made => exact corrects_of_corrected c entry found invalid listed made

end Corrects

/-! ## One correction is enough -/

section Again

variable {c d : Context} (entry : CatalogEntry) {schema : ResourceSchema}

/-- The kept schema describes the type of the loaded one. -/
theorem typeOf_member_examination :
    typeOf (examination c entry schema).member.schema = typeOf schema := by
  by_cases same : (examination c entry schema).member.schema = schema
  · rw [same]
  · obtain ⟨last, -, made, -⟩ := (corrects_examination c entry).replaced same
    rw [typeOf, typeOf, ResourceSchema.resourceType?_of_replaced made]

/-- In a context that knows the same, the kept schema is found to be right. -/
theorem confirms_examination (h : SameKnowledge c d)
    (listed : (examination c entry schema).check.available ≠ []) :
    (examination d entry (examination c entry schema).member.schema).Confirms
      (examination c entry schema) := by
  let x := examination c entry schema
  let again := examination d entry x.member.schema
  -- the second check is about the same type, so it finds the same listed
  have check : again.check = { x.check with schemaVersions := x.member.schema.apiVersions } := by
    show (checkType d (typeOf x.member.schema) x.member.schema).1 = _
    rw [typeOf_member_examination, h.result_eq]
    exact checkType_of_other_schema c (typeOf schema) schema _
  have offers : x.member.schema.apiVersions ⊆ x.check.available :=
    (corrects_examination c entry).settled.resolve_left fun none => listed none.1
  have valid : again.check.invalidVersions = [] := by
    rw [invalidVersions_eq_nil_iff, check]
    exact offers
  have none : correction? again.check x.member.schema = none := by
    rw [correction?, valid]
    rfl
  have kept : again.member.schema = x.member.schema := by
    rw [schema_member_examination, none]
    rfl
  have type : again.member.type = x.member.type := typeOf_member_examination entry
  have source : again.member.source = x.member.source := by
    show again.check.source = x.check.source
    rw [check]
  have version : again.member.apiVersion = x.member.apiVersion := by
    rw [apiVersion_examination, apiVersion_examination, kept, check, h.registry]
  refine ⟨by rw [check], valid, ?_, ?_, ?_⟩
  · calc again.member
        = ⟨entry, again.member.type, again.member.apiVersion, again.member.schema,
            again.member.source⟩ := rfl
      _ = ⟨entry, x.member.type, x.member.apiVersion, x.member.schema, x.member.source⟩ := by
        rw [type, version, kept, source]
      _ = x.member := rfl
  · exact (marked_versions_examination d entry x.member.schema).trans
      (if_pos (List.isEmpty_iff.mpr valid))
  · rw [entry_examination, marked_correction_examination, none]
    rfl

/-- A selected resource whose schema can be loaded has its API versions corrected as they should
be. If any are listed, checking the kept schema once more, after all that the first check changed,
comes to the same member and finds no invalid API version to warn of. -/
theorem examine_converges {schemas : String → Option ResourceSchema} (c : Context)
    {entry : CatalogEntry} {schema : ResourceSchema} (loaded : schemas entry.schema = some schema) :
    let x := examination c entry schema
    let after := (examine schemas c entry).2
    let again := examination after entry x.member.schema
    (examine schemas c entry).1 = ⟨some x.member, x.warnings⟩ ∧ x.Corrects c.registry schema ∧
      (accept after entry x.member.schema).1 = ⟨some again.member, again.warnings⟩ ∧
      (x.check.available ≠ [] → again.Confirms x) := by
  intro x after again
  have accepted : (examine schemas c entry).1 = (accept c entry schema).1 := by
    rw [examine, loaded]
  refine ⟨accepted.trans (outcome_accept c entry schema), corrects_examination c entry,
    outcome_accept after entry x.member.schema, fun listed => ?_⟩
  exact confirms_examination entry (sameKnowledge_examine c entry) listed

/-- A provider lists another version than the two that a schema offers. It takes the place of both,
the user is told, and the second check has nothing to say. -/
theorem examine_converges_gears :
    let entry : CatalogEntry := { id := "gears", name := "Gears", schema := "gears" }
    let provider : Provider :=
      { existence := fun _ => .ok true
        versions := fun _ => .ok ["2023-01-01"]
        locations := fun _ => .ok [] }
    let c : Context := { now := ⟨0⟩, provider? := some provider }
    let schema := schemaOffering "Acme/gears" ["2019-01-01", "2020-01-01"]
    let schemas : String → Option ResourceSchema := fun _ => some schema
    let x := examination c entry schema
    let again := examination (examine schemas c entry).2 entry x.member.schema
    x.member.apiVersion = "2023-01-01" ∧
      x.warnings = ["Gears: API versions 2019-01-01, 2020-01-01 may be invalid",
        "Gears: Auto-corrected to use API version 2023-01-01"] ∧
      again.warnings = [] ∧ x.Corrects c.registry schema ∧ again.Confirms x := by
  intro entry provider c schema schemas x again
  obtain ⟨-, corrects, -, confirms⟩ := @examine_converges schemas c entry schema rfl
  exact ⟨by decide +kernel, by decide +kernel, by decide +kernel, corrects,
    confirms (by decide +kernel)⟩

end Again

end BicepForge.Assembly
