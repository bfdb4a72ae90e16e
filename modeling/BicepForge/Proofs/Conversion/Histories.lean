import BicepForge.Conversion.Session
import Mathlib.Data.List.Induction

/-!
# Histories of conversion sessions

A session analyses templates and converts them, in any order and as often as one likes. Main
statement: what a conversion gives is told by the configuration, the time, and the name of the
machine in the template that was analysed last. Earlier analyses leave no trace, and conversions
leave none at all, whether they fail or not.
-/

namespace BicepForge.Conversion

open Bicep

/-- What may be done in a conversion session. -/
inductive Step where
  | analyze (t : DeploymentTemplate)
  | convert

/-- What a conversion gives. -/
abbrev Result := Except ConversionError Document

namespace Session

/-- What a step gives, if it is a conversion, and the session after it. -/
def act (s : Session) : Step → Option Result × Session
  | .analyze t => (none, s.analyze t)
  | .convert => (some s.convert, s)

/-- What each of several steps gives, and the session after them. -/
def run (s : Session) : List Step → List (Option Result) × Session
  | [] => ([], s)
  | step :: steps =>
    let (result, s) := s.act step
    let (results, s) := s.run steps
    (result :: results, s)

def after (s : Session) (steps : List Step) : Session :=
  (s.run steps).2

@[simp] theorem after_nil (s : Session) : s.after [] = s := rfl

@[simp] theorem after_cons (s : Session) (step : Step) (steps : List Step) :
    s.after (step :: steps) = (s.act step).2.after steps := rfl

theorem after_append (s : Session) (steps more : List Step) :
    s.after (steps ++ more) = (s.after steps).after more := by
  induction steps generalizing s with
  | nil => rfl
  | cons step steps ih => exact ih (s.act step).2

/-- A step gives what it gives in the session after those before it, whatever follows. -/
theorem getElem?_run (s : Session) (before : List Step) (step : Step) (later : List Step) :
    (s.run (before ++ step :: later)).1[before.length]? = some ((s.after before).act step).1 := by
  induction before generalizing s with
  | nil => rfl
  | cons first before ih => exact ih (s.act first).2

/-! ## What a session keeps -/

/-- A step keeps the configuration and the time. -/
theorem fixed_act (s : Session) (step : Step) :
    (s.act step).2.config = s.config ∧ (s.act step).2.now = s.now := by
  cases step with
  | analyze t => exact ⟨rfl, rfl⟩
  | convert => exact ⟨rfl, rfl⟩

theorem fixed_after (s : Session) (steps : List Step) :
    (s.after steps).config = s.config ∧ (s.after steps).now = s.now := by
  induction steps generalizing s with
  | nil => exact ⟨rfl, rfl⟩
  | cons step steps ih =>
    obtain ⟨config, now⟩ := ih (s.act step).2
    obtain ⟨config', now'⟩ := s.fixed_act step
    exact ⟨config.trans config', now.trans now'⟩

/-- Steps without an analysis change nothing. -/
theorem after_of_forall_notMem (s : Session) {steps : List Step}
    (none : ∀ t, Step.analyze t ∉ steps) : s.after steps = s := by
  induction steps with
  | nil => rfl
  | cons step steps ih =>
    cases step with
    | analyze t => exact absurd List.mem_cons_self (none t)
    | convert => exact ih fun t mem => none t (List.mem_cons_of_mem _ mem)

end Session

/-- A template is the one that was analysed last. -/
def LastAnalyzed (t : DeploymentTemplate) (steps : List Step) : Prop :=
  ∃ front back, steps = front ++ .analyze t :: back ∧ ∀ u, Step.analyze u ∉ back

/-- If any template was analysed, one was the last. -/
theorem exists_lastAnalyzed {steps : List Step} {t : DeploymentTemplate}
    (mem : Step.analyze t ∈ steps) : ∃ u, LastAnalyzed u steps := by
  -- from the end: the last step is an analysis, or it is a conversion behind the last one
  induction steps using List.reverseRecOn with
  | nil => cases mem
  | append_singleton steps step ih =>
    cases step with
    | analyze u => exact ⟨u, steps, [], rfl, fun _ => List.not_mem_nil⟩
    | convert =>
      have earlier : Step.analyze t ∈ steps := by simpa using mem
      obtain ⟨u, front, back, rfl, none⟩ := ih earlier
      refine ⟨u, front, back ++ [.convert], by simp, ?_⟩
      intro v mem
      exact none v (by simpa using mem)

theorem LastAnalyzed.mem {t : DeploymentTemplate} {steps : List Step}
    (h : LastAnalyzed t steps) : Step.analyze t ∈ steps := by
  obtain ⟨front, back, rfl, -⟩ := h
  exact List.mem_append_right front List.mem_cons_self

/-- A session holds the analysis of the template that was analysed last. -/
theorem LastAnalyzed.analysis?_after {t : DeploymentTemplate} {steps : List Step}
    (h : LastAnalyzed t steps) (s : Session) :
    (s.after steps).analysis? = some (.ofTemplate t) := by
  obtain ⟨front, back, rfl, none⟩ := h
  rw [Session.after_append, Session.after_cons, Session.after_of_forall_notMem _ none]
  rfl

/-! ## What a configuration lacks -/

/-- A name that is missing, or that consists of blanks. -/
def Unnamed (name? : Option String) : Prop :=
  ∀ name, name? = some name → ∀ c ∈ name.toList, Text.isBlank c = true

theorem isNone_worded?_iff (name? : Option String) :
    (Configuration.worded? name?).isNone = true ↔ Unnamed name? := by
  rw [Configuration.worded?, Option.isNone_iff_eq_none, Option.filter_eq_none_iff]
  refine forall₂_congr fun name _ => ?_
  rw [Bool.not_eq_true', Bool.not_eq_false, Text.isBlankText, List.all_eq_true]

/-- An existing network is asked for and not named. -/
def LacksNetwork (config : Configuration) : Prop :=
  config.networkMode = .useExisting ∧
    (Unnamed config.existingVnetName? ∨ Unnamed config.existingSubnetName?)

/-- The error about a network without a name asks for both names. -/
def networkMissing : ConversionError :=
  .configuration (.missing ["existingVnetName", "existingSubnetName"])

/-- An analysis fails to convert only where the network has no name; else it becomes the document
for the name of its machine. -/
theorem convertAnalysis_cases (now : Instant) (config : Configuration) (analysis : Analysis) :
    (LacksNetwork config ∧ convertAnalysis now config analysis = .error networkMissing) ∨
      (¬LacksNetwork config ∧ convertAnalysis now config analysis =
        .ok (Plan.document ⟨config, analysis.vmName⟩ now)) := by
  have lacks : (config.networkMode = .useExisting ∧
      ((Configuration.worded? config.existingVnetName?).isNone = true ∨
        (Configuration.worded? config.existingSubnetName?).isNone = true)) ↔
      LacksNetwork config := by
    rw [isNone_worded?_iff, isNone_worded?_iff, LacksNetwork]
  unfold convertAnalysis Configuration.checkForConversion
  by_cases h : LacksNetwork config
  · rw [if_pos (lacks.mpr h)]
    exact .inl ⟨h, rfl⟩
  · rw [if_neg (lacks.not.mpr h)]
    exact .inr ⟨h, rfl⟩

/-! ## What a history decides -/

/-- What a conversion gives behind the steps of a history. -/
structure Decided (config : Configuration) (now : Instant) (before : List Step)
    (result : Result) : Prop where
  /-- It fails for want of an analysis exactly if no template was analysed. -/
  notAnalyzed : result = .error .notAnalyzed ↔ ∀ t, Step.analyze t ∉ before
  /-- It asks for the names of network and subnet exactly if a template was analysed, an existing
  network is to be used, and one of the two names is absent or blank. -/
  missing : result = .error networkMissing ↔
    (∃ t, Step.analyze t ∈ before) ∧ LacksNetwork config
  /-- Otherwise it succeeds. -/
  succeeds : (∃ document, result = .ok document) ↔
    (∃ t, Step.analyze t ∈ before) ∧ ¬LacksNetwork config
  /-- What it makes then is the document for the machine of the template that was analysed last. -/
  made : ∀ t, LastAnalyzed t before → ¬LacksNetwork config →
    result = .ok (Plan.document ⟨config, (Analysis.ofTemplate t).vmName⟩ now)
  /-- Behind any other history with the same configuration and time it gives the same, if the two
  templates that were analysed last agree on the name of their machine. -/
  repeats : ∀ other t u, LastAnalyzed t before → LastAnalyzed u other →
    (Analysis.ofTemplate t).vmName = (Analysis.ofTemplate u).vmName →
      ((Session.mk config now none).after other).convert = result

section Sessions

variable (config : Configuration) (now : Instant)

theorem convert_after {t : DeploymentTemplate} {steps : List Step} (h : LastAnalyzed t steps) :
    ((Session.mk config now none).after steps).convert =
      convertAnalysis now config (.ofTemplate t) := by
  obtain ⟨config', now'⟩ := (Session.mk config now none).fixed_after steps
  rw [Session.convert, h.analysis?_after, config', now']

/-- A conversion ends in one of three ways. -/
theorem convert_after_cases (before : List Step) :
    ((∀ t, Step.analyze t ∉ before) ∧
      ((Session.mk config now none).after before).convert = .error .notAnalyzed) ∨
    (∃ t, Step.analyze t ∈ before) ∧
      ((LacksNetwork config ∧
        ((Session.mk config now none).after before).convert = .error networkMissing) ∨
      (¬LacksNetwork config ∧
        ∃ document, ((Session.mk config now none).after before).convert = .ok document)) := by
  by_cases analyzed : ∃ t, Step.analyze t ∈ before
  · refine .inr ⟨analyzed, ?_⟩
    obtain ⟨t, last⟩ := exists_lastAnalyzed analyzed.choose_spec
    rw [convert_after config now last]
    rcases convertAnalysis_cases now config (.ofTemplate t) with failed | ⟨has, document⟩
    · exact .inl failed
    · exact .inr ⟨has, _, document⟩
  · have never := not_exists.mp analyzed
    refine .inl ⟨never, ?_⟩
    rw [Session.after_of_forall_notMem _ never]
    rfl

theorem decided_convert_after (before : List Step) :
    Decided config now before ((Session.mk config now none).after before).convert := by
  have made : ∀ t, LastAnalyzed t before → ¬LacksNetwork config →
      ((Session.mk config now none).after before).convert =
        .ok (Plan.document ⟨config, (Analysis.ofTemplate t).vmName⟩ now) := by
    intro t last has
    rw [convert_after config now last]
    exact ((convertAnalysis_cases now config _).resolve_left fun lacks => has lacks.1).2
  have repeats : ∀ other t u, LastAnalyzed t before → LastAnalyzed u other →
      (Analysis.ofTemplate t).vmName = (Analysis.ofTemplate u).vmName →
        ((Session.mk config now none).after other).convert =
          ((Session.mk config now none).after before).convert := by
    intro other t u lastBefore lastOther name
    rw [convert_after config now lastOther, convert_after config now lastBefore,
      convertAnalysis, convertAnalysis, name]
  -- the three ends differ, so each has its exact condition
  have ends := convert_after_cases config now before
  generalize ((Session.mk config now none).after before).convert = result at *
  rcases ends with ⟨never, rfl⟩ | ⟨⟨t, mem⟩, ⟨lacks, rfl⟩ | ⟨has, document, rfl⟩⟩
  · refine ⟨iff_of_true rfl never, iff_of_false (by rintro ⟨⟩) ?_,
      iff_of_false (by rintro ⟨_, ⟨⟩⟩) ?_, made, repeats⟩
    · exact fun h => h.1.elim never
    · exact fun h => h.1.elim never
  · exact ⟨iff_of_false (by rintro ⟨⟩) fun never => never t mem, iff_of_true rfl ⟨⟨t, mem⟩, lacks⟩,
      iff_of_false (by rintro ⟨_, ⟨⟩⟩) fun h => h.2 lacks, made, repeats⟩
  · exact ⟨iff_of_false (by rintro ⟨⟩) fun never => never t mem,
      iff_of_false (by rintro ⟨⟩) fun h => has h.2,
      iff_of_true ⟨document, rfl⟩ ⟨⟨t, mem⟩, has⟩, made, repeats⟩

/-- Wherever a conversion stands in a session, the steps before it decide what it gives, and the
session goes on as if it had not been there. -/
theorem run_convert (before later : List Step) :
    (∃ result, ((Session.mk config now none).run (before ++ .convert :: later)).1[before.length]? =
        some (some result) ∧ Decided config now before result) ∧
      (Session.mk config now none).after (before ++ [.convert]) =
        (Session.mk config now none).after before := by
  refine ⟨⟨_, Session.getElem?_run _ _ _ _, decided_convert_after config now before⟩, ?_⟩
  rw [Session.after_append]
  rfl

end Sessions

end BicepForge.Conversion
