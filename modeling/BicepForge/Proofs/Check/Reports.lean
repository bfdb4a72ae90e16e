import BicepForge.Check.Input
import BicepForge.CommandLine.Run
import Mathlib.Tactic.SplitIfs

/-!
# How reports are made

A report begins empty, empty on a kind of document, or as the default of its type, and grows by
remarks and by other reports that are merged into it, which were made in the same way. Main
statement: a report keeps the kind of document it began with and says all that was said on the way,
once and in order; it is valid exactly if no error was said and no default of the type went into it.
The default itself has no errors and is not valid. No check makes use of it, so what the checks report
is valid exactly if it has no errors.
-/

namespace BicepForge.Report

/-! ## Errors -/

section Errors

variable (r : Report) (texts : List String)

theorem errors_withErrors : (r.withErrors texts).errors = r.errors ++ texts := by
  induction texts generalizing r with
  | nil => exact (List.append_nil _).symm
  | cons text texts ih => exact (ih (r.error text)).trans (List.append_assoc _ _ _)

theorem errors_withWarnings : (r.withWarnings texts).errors = r.errors := by
  induction texts generalizing r with
  | nil => rfl
  | cons text texts ih => exact ih (r.warning text)

theorem errors_withNotes : (r.withNotes texts).errors = r.errors := by
  induction texts generalizing r with
  | nil => rfl
  | cons text texts ih => exact ih (r.note text)

end Errors

/-! ## Histories -/

/-- How a report begins. -/
inductive Origin where
  | empty
  | onDialect (dialect : Dialect)
  /-- The default of the type: each field is the default of its own type. -/
  | typeDefault
deriving DecidableEq

namespace Origin

def report : Origin → Report
  | empty => Report.empty
  | onDialect dialect => .forDialect dialect
  | typeDefault => default

/-- The kind of document that is given at the beginning. -/
def dialect? : Origin → Option Dialect
  | onDialect dialect => some dialect
  | empty | typeDefault => none

end Origin

/-- One thing that is said in a report. -/
inductive Remark where
  | error (text : String)
  | warning (text : String)
  | note (text : String)
deriving DecidableEq

namespace Remark

def error? : Remark → Option String
  | error text => some text
  | warning _ | note _ => none

def warning? : Remark → Option String
  | warning text => some text
  | error _ | note _ => none

def note? : Remark → Option String
  | note text => some text
  | error _ | warning _ => none

end Remark

def say (r : Report) : Remark → Report
  | .error text => r.error text
  | .warning text => r.warning text
  | .note text => r.note text

/-- How a report was made, one operation after the other. -/
inductive History where
  | start (origin : Origin)
  | say (before : History) (remark : Remark)
  | merge (before other : History)

namespace History

def report : History → Report
  | start origin => origin.report
  | say before remark => before.report.say remark
  | merge before other => before.report.merge other.report

/-- How the report itself began. -/
def origin : History → Origin
  | start origin => origin
  | say before _ | merge before _ => before.origin

/-- How the report and all that went into it began. -/
def origins : History → List Origin
  | start origin => [origin]
  | say before _ => before.origins
  | merge before other => before.origins ++ other.origins

/-- All that was said, in order. -/
def remarks : History → List Remark
  | start _ => []
  | say before remark => before.remarks ++ [remark]
  | merge before other => before.remarks ++ other.remarks

end History

/-! ## What one operation keeps -/

/-- The report says these remarks and nothing else. -/
structure Tells (r : Report) (remarks : List Remark) : Prop where
  errors : r.errors = remarks.filterMap Remark.error?
  warnings : r.warnings = remarks.filterMap Remark.warning?
  info : r.info = remarks.filterMap Remark.note?

/-- The report is valid exactly if it has no errors, provided that it is sound. -/
def Tracks (r : Report) (sound : Prop) : Prop :=
  r.valid = true ↔ r.errors = [] ∧ sound

variable {r other : Report} {remarks remarks' : List Remark} {sound sound' : Prop}

theorem tells_origin (origin : Origin) : Tells origin.report [] := by
  cases origin <;> exact ⟨rfl, rfl, rfl⟩

theorem Tells.say (h : Tells r remarks) (remark : Remark) :
    Tells (r.say remark) (remarks ++ [remark]) := by
  obtain ⟨errors, warnings, info⟩ := h
  constructor <;> cases remark <;>
    simp [Report.say, Report.error, Report.warning, Report.note, Remark.error?, Remark.warning?,
      Remark.note?, errors, warnings, info]

theorem Tells.merge (h : Tells r remarks) (h' : Tells other remarks') :
    Tells (r.merge other) (remarks ++ remarks') where
  errors := by rw [List.filterMap_append, ← h.errors, ← h'.errors, Report.merge]
  warnings := by rw [List.filterMap_append, ← h.warnings, ← h'.warnings, Report.merge]
  info := by rw [List.filterMap_append, ← h.info, ← h'.info, Report.merge]

theorem tracks_origin (origin : Origin) :
    Tracks origin.report (Origin.typeDefault ∉ [origin]) := by
  cases origin
  case typeDefault =>
    have invalid : Origin.typeDefault.report.valid = false := rfl
    simp [Tracks, invalid]
  all_goals simp [Tracks, Origin.report, Report.empty, forDialect]

theorem Tracks.say (h : Tracks r sound) (remark : Remark) : Tracks (r.say remark) sound := by
  cases remark with
  | error text => simp [Tracks, Report.say, Report.error]
  | warning text | note text => exact h

theorem Tracks.merge (h : Tracks r sound) (h' : Tracks other sound') :
    Tracks (r.merge other) (sound ∧ sound') := by
  unfold Tracks at h h' ⊢
  rw [Report.merge, Bool.and_eq_true, h, h', List.append_eq_nil_iff]
  exact and_and_and_comm

/-! ## What a history keeps -/

namespace History

theorem tells_report (h : History) : Tells h.report h.remarks := by
  induction h with
  | start origin => exact tells_origin origin
  | say before remark ih => exact ih.say remark
  | merge before other ih ih' => exact ih.merge ih'

theorem dialect_report (h : History) : h.report.dialect? = h.origin.dialect? := by
  induction h with
  | start origin => cases origin <;> rfl
  | say before remark ih => cases remark <;> exact ih
  | merge before other ih _ => exact ih

theorem tracks_report (h : History) : Tracks h.report (Origin.typeDefault ∉ h.origins) := by
  induction h with
  | start origin => exact tracks_origin origin
  | say before remark ih => exact ih.say remark
  | merge before other ih ih' =>
    have both := ih.merge ih'
    rwa [← not_or, ← List.mem_append] at both

end History

/-! ## What the checks report -/

/-- A report that was made from its beginning by remarks and merging, without a default of the
type. -/
def Made (r : Report) : Prop :=
  ∃ h : History, h.report = r ∧ Origin.typeDefault ∉ h.origins

namespace Made

theorem empty : Made Report.empty :=
  ⟨.start .empty, rfl, by decide⟩

theorem forDialect (dialect : Dialect) : Made (Report.forDialect dialect) :=
  ⟨.start (.onDialect dialect), rfl, by simp [History.origins]⟩

theorem say (h : Made r) (remark : Remark) : Made (r.say remark) := by
  obtain ⟨h, rfl, sound⟩ := h
  exact ⟨h.say remark, rfl, sound⟩

theorem merge (h : Made r) (h' : Made other) : Made (r.merge other) := by
  obtain ⟨h, rfl, sound⟩ := h
  obtain ⟨h', rfl, sound'⟩ := h'
  exact ⟨h.merge h', rfl, fun mem => (List.mem_append.mp mem).elim sound sound'⟩

theorem sayAll (h : Made r) (kind : String → Remark) (texts : List String) :
    Made (texts.foldl (fun r text => r.say (kind text)) r) := by
  induction texts generalizing r with
  | nil => exact h
  | cons text texts ih => exact ih (h.say (kind text))

/-- A check that finds all errors, then all warnings, then all notes. -/
theorem found (h : Made r) (errors warnings info : List String) :
    Made (((r.withErrors errors).withWarnings warnings).withNotes info) :=
  ((h.sayAll .error errors).sayAll .warning warnings).sayAll .note info

end Made

theorem made_checkInput (input : Input) : Made (Check.checkInput input) := by
  cases input <;> exact (Made.forDialect _).found _ _ _

theorem made_checkInstance {schema : ResourceSchema} {document : Json}
    (h : Check.checkInstance schema document = .ok r) : Made r := by
  unfold Check.checkInstance at h
  split at h
  · cases h
  · have found := fun errors => (Made.forDialect .resourceSchema).sayAll .error errors
    cases Except.ok.inj h
    split
    · exact (found _).say (.note _)
    · exact found _

theorem made_typeCheck (check : Check.TypeCheck) : Made check.report := by
  have versions {r : Report} (h : Made r) : Made (Check.reportVersions check r) := by
    unfold Check.reportVersions
    split_ifs
    · exact h
    · exact h.say (.note _)
    · exact h.say (.warning _)
    · exact (h.say (.warning _)).say (.note _)
  have known : Made (if check.known then
      Report.empty.note ("Resource type \"" ++ check.type ++ "\" exists in Azure")
    else (Report.empty.warning ("Resource type \"" ++ check.type ++
      "\" not found in Azure")).withNotes
        (check.suggestions.map fun s => "Similar resource type: " ++ s)) := by
    split
    · exact Made.empty.say (.note _)
    · exact (Made.empty.say (.warning _)).sayAll .note _
  have source := ((versions known).sayAll .warning check.notes).say
    (.note ("Source: " ++ check.source.description))
  unfold Check.TypeCheck.report
  by_cases offline : check.isOffline = true
  · rw [if_pos offline]
    exact source.say (.note _)
  · rw [if_neg offline]
    exact source

theorem made_typeReport (schema : ResourceSchema) : Made (CommandLine.typeReport schema) := by
  unfold CommandLine.typeReport
  split
  · exact Made.empty.say (.warning _)
  · refine Made.merge ?_ (made_typeCheck _)
    split
    · exact .empty
    · exact Made.empty.say (.error _)

/-! ## All reports -/

/-- Whether a report is valid exactly if it has no errors. -/
abbrev TracksErrors (r : Report) : Prop :=
  r.valid = true ↔ r.errors = []

theorem Made.tracksErrors (h : Made r) : TracksErrors r := by
  obtain ⟨h, rfl, sound⟩ := h
  have tracks := h.tracks_report
  rwa [Tracks, and_iff_left sound] at tracks

/-- However a report was made, it says what was said in the order in which it was said, on the kind
of document that it began with; it is valid exactly if no error was said and no default of the type
went into it. What the checks report is valid exactly if it has no errors. -/
theorem report_of_history (h : History) :
    (h.report.valid = true ↔ h.report.errors = [] ∧ Origin.typeDefault ∉ h.origins) ∧
      h.report.dialect? = h.origin.dialect? ∧ Tells h.report h.remarks ∧
      (∀ input, TracksErrors (Check.checkInput input)) ∧
      (∀ schema document r, Check.checkInstance schema document = .ok r → TracksErrors r) ∧
      (∀ check : Check.TypeCheck, TracksErrors check.report) ∧
      ∀ schema, TracksErrors (CommandLine.typeReport schema) :=
  ⟨h.tracks_report, h.dialect_report, h.tells_report,
    fun input => (made_checkInput input).tracksErrors,
    fun _ _ _ checked => (made_checkInstance checked).tracksErrors,
    fun check => (made_typeCheck check).tracksErrors,
    fun schema => (made_typeReport schema).tracksErrors⟩

/-- A report with one merged into it that has another merged into it. -/
theorem report_of_history_nested :
    let inner : History := (History.start (.onDialect .template)).say (.error "e")
    let middle := ((History.start .empty).say (.note "i")).merge inner
    let h := (((History.start (.onDialect .bicep)).say (.error "d")).merge middle).say (.warning "w")
    Origin.typeDefault ∉ h.origins ∧ h.report.valid = false ∧
      h.report.dialect? = some .bicep ∧ h.report.errors = ["d", "e"] ∧
      h.report.warnings = ["w"] ∧ h.report.info = ["i"] := by
  intro inner middle h
  obtain ⟨valid, dialect, told, -⟩ := report_of_history h
  have errors : h.report.errors = ["d", "e"] := told.errors
  refine ⟨by decide, ?_, dialect, errors, told.warnings, told.info⟩
  rw [← Bool.not_eq_true, valid, errors]
  simp

/-- The default of the type has no errors and is not valid, and it makes a report invalid that it is
merged into. -/
theorem not_valid_typeDefault :
    (History.start .typeDefault).report.errors = [] ∧
      (History.start .typeDefault).report.valid = false ∧
      ((History.start .empty).merge (.start .typeDefault)).report.errors = [] ∧
      ((History.start .empty).merge (.start .typeDefault)).report.valid = false := by
  decide

end BicepForge.Report
