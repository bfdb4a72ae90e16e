import BicepForge.Files.Tree
import BicepForge.Proofs.CommandLine.Renaming
import BicepForge.Proofs.Text.LowerCase

/-!
# Exit codes under other names

Failures of most kinds have an exit code of their own. For the others the words decide, and among
these are the names of files: a name that speaks of arguments, or of what was not found, changes the
exit code. Two runs that differ in the names of files only have the same exit code but for that.
-/

namespace BicepForge.CommandLine

/-- Where the words of a failure decide, those in front of a name leave the decision to the name. -/
theorem ExitStatus.ofWords_append {s : String} (plain : 'Σ' ∉ s.toList)
    (blank : s.toList.getLast? = some ' ')
    (unsaid : ∀ word ∈ ["argument", "not found"],
      Text.cannotBegin word.toList (Text.lower s).toList = true) (path : String) :
    ofWords (s ++ path) = ofWords path := by
  have found : ∀ word ∈ ["argument", "not found"],
      Text.occursIn word (Text.lower (s ++ path)) = Text.occursIn word (Text.lower path) := by
    intro word mem
    rw [Text.occursIn, Text.lower_append plain blank, String.toList_append]
    exact Text.hasInfix_append (unsaid word mem) _
  rw [ofWords, ofWords, found "argument" (by simp), found "not found" (by simp)]

theorem Failure.status_unreadable (path : String) (e : FileError) :
    (unreadable path e).status = .invalidArguments := by
  have told : Text.occursIn "not found" (Text.lower ("Input file not found: " ++ path)) = true := by
    rw [Text.occursIn, Text.lower_append (by decide) (by decide), String.toList_append,
      Text.hasInfix_iff]
    have named : "not found".toList <:+: (Text.lower "Input file not found: ").toList := by
      rw [← Text.hasInfix_iff]
      decide
    exact named.trans (List.prefix_append _ _).isInfix
  change ExitStatus.ofWords ("Input file not found: " ++ path) = _
  rw [ExitStatus.ofWords, told]
  exact if_pos (.inr rfl)

/-- What the other failures say ahead of a name leaves the decision to the name. -/
theorem Failure.undecided_ahead :
    ∀ s ∈ ["Failed to write ", "Failed to parse instance ",
        "Resource configuration must be a JSON object: "],
      'Σ' ∉ s.toList ∧ s.toList.getLast? = some ' ' ∧
        ∀ word ∈ ["argument", "not found"],
          Text.cannotBegin word.toList (Text.lower s).toList = true := by
  decide

theorem Failure.status_unwritable (path : String) (e : FileError) :
    (unwritable path e).status = .ofWords path := by
  obtain ⟨plain, blank, unsaid⟩ := undecided_ahead "Failed to write " (by simp)
  exact ExitStatus.ofWords_append plain blank unsaid path

theorem Failure.status_instance (path : String) (e : JsonError) :
    (Failure.instance path e).status = .ofWords path := by
  obtain ⟨plain, blank, unsaid⟩ := undecided_ahead "Failed to parse instance " (by simp)
  exact ExitStatus.ofWords_append plain blank unsaid path

theorem Failure.status_settings (path : String) (e : Json.NoObject) :
    (settings path e).status = .ofWords path := by
  obtain ⟨plain, blank, unsaid⟩ :=
    undecided_ahead "Resource configuration must be a JSON object: " (by simp)
  exact ExitStatus.ofWords_append plain blank unsaid path

/-! ## Two runs -/

/-- Exit statuses that are the same, or those that two names for one file suggest. -/
def StatusesAgree (N : Naming) (e e' : ExitStatus) : Prop :=
  e = e' ∨ ∃ p p', (N.document p p' ∨ N.output p p') ∧ e = .ofWords p ∧ e' = .ofWords p'

section Runs

variable {σ τ α β : Type} {N : Naming} {W : σ → τ → Prop}

theorem Failure.Renamed.statusesAgree {f f' : Failure} (h : f.Renamed N f') :
    StatusesAgree N f.status f'.status := by
  cases h with
  | same => exact .inl rfl
  | configuration => exact .inl rfl
  | unreadable p p' e => exact .inl (by rw [status_unreadable, status_unreadable])
  | unwritable h e => exact .inr ⟨_, _, .inr h, status_unwritable _ e, status_unwritable _ e⟩
  | «instance» h e => exact .inr ⟨_, _, .inl h, status_instance _ e, status_instance _ e⟩
  | settings h e => exact .inr ⟨_, _, .inl h, status_settings _ e, status_settings _ e⟩

theorem outcome_ok {t : Task (StateM σ) Unit} {c : Console} {w w₁ : σ}
    (h : t.after {} w = ((.ok (), c), w₁)) : t.outcome.run w = (⟨.success, c⟩, w₁) := by
  rw [Task.outcome, StateT.run_bind, show ((ExceptT.run t).run {}).run w = _ from h]
  rfl

theorem outcome_error {t : Task (StateM σ) Unit} {c : Console} {w w₁ : σ} {f : Failure}
    (h : t.after {} w = ((.error f, c), w₁)) :
    t.outcome.run w =
      (⟨f.status, { c with err := c.err ++ "Error: " ++ f.text ++ "\n" }⟩, w₁) := by
  rw [Task.outcome, StateT.run_bind, show ((ExceptT.run t).run {}).run w = _ from h]
  rfl

theorem Agree.outcome {t : Task (StateM σ) Unit} {t' : Task (StateM τ) Unit}
    (h : Agree N W Eq t t') {w : σ} {w' : τ} (hw : W w w') :
    StatusesAgree N (t.outcome.run w).1.status (t'.outcome.run w').1.status ∧
      W (t.outcome.run w).2 (t'.outcome.run w').2 := by
  obtain ⟨results, worlds⟩ := h {} {} w w' hw
  rcases first : t.after {} w with ⟨⟨r, c⟩, w₁⟩
  rcases second : t'.after {} w' with ⟨⟨r', c'⟩, w₁'⟩
  rw [first, second] at results worlds
  cases results with
  | ok =>
    rw [outcome_ok first, outcome_ok second]
    exact ⟨.inl rfl, worlds⟩
  | error renamed =>
    rw [outcome_error first, outcome_error second]
    exact ⟨renamed.statusesAgree, worlds⟩

theorem StatusesAgree.eq {e e' : ExitStatus} (h : StatusesAgree N e e')
    (alike : ∀ p p', N.document p p' ∨ N.output p p' →
      ExitStatus.ofWords p = ExitStatus.ofWords p') : e = e' := by
  rcases h with same | ⟨p, p', named, first, second⟩
  · exact same
  · rw [first, second]
    exact alike p p' named

/-- Two runs whose words differ in the names of files and directories only, and whose operations on
files end alike, have exit statuses that agree: where they are not the same, they are those that the
two names of a file suggest, be it a document that is no JSON, settings that are no object, or an
output that cannot be written. Names that suggest the same make no difference. -/
theorem run_renamed {s : Site (StateM σ)} {s' : Site (StateM τ)} (sites : SitesAlike N W s s')
    {words words' : List String}
    (h : (Invocation.ofWords words).Renamed N (Invocation.ofWords words')) {w : σ} {w' : τ}
    (hw : W w w') :
    let first := (run s words).run w
    let second := (run s' words').run w'
    StatusesAgree N first.1.status second.1.status ∧
      ((∀ p p', N.document p p' ∨ N.output p p' → ExitStatus.ofWords p = ExitStatus.ofWords p') →
        first.1.status = second.1.status) ∧
      W first.2 second.2 := by
  intro first second
  have ends : StatusesAgree N first.1.status second.1.status ∧ W first.2 second.2 := by
    unfold first second run
    generalize Invocation.ofWords words = i, Invocation.ofWords words' = i' at h
    cases h with
    | run h => exact (agree_perform sites h).outcome hw
    | version command? => exact ⟨.inl rfl, hw⟩
    | help command? long => exact ⟨.inl rfl, hw⟩
    | nothing => exact ⟨.inl rfl, hw⟩
    | misuse => exact ⟨.inl rfl, hw⟩
  exact ⟨ends.1, ends.1.eq, ends.2⟩

end Runs

/-! ## Runs on trees -/

/-- A directory with files of these names and contents. -/
def treeOf (files : List (String × String)) : Files.Tree where
  root := .directory (files.map fun f => (f.1, .file (.text f.2)))

/-- Runs on trees at the start of 1970. -/
def treeSite : Site (StateM Files.Tree) where
  files := Files.Tree.access
  now := ⟨0⟩

/-- A schema, beside a file of a name that is perhaps there. -/
def besideSchema (name : String) (contents? : Option String) : Files.Tree :=
  treeOf (("s.json", "\x7b\x7d") :: (contents?.map fun text => (name, text)).toList)

/-- Two names for what is generated from a schema. -/
def outputNaming : Naming where
  input p p' := p = "s.json" ∧ p' = "s.json"
  document _ _ := False
  output p p' := p = "x.bicep" ∧ p' = "y.bicep"
  package _ _ := False

/-- Trees that differ in the name of what is generated. -/
def OutputRenamed (t t' : Files.Tree) : Prop :=
  ∃ contents?, t = besideSchema "x.bicep" contents? ∧ t' = besideSchema "y.bicep" contents?

theorem write_besideSchema {name : String} (h : name = "x.bicep" ∨ name = "y.bicep")
    (contents? : Option String) (text : String) :
    (treeSite.files.write name text).run (besideSchema name contents?) =
      (.ok (), besideSchema name (some text)) := by
  have bare : Files.Tree.lastPart name = ([], name, false) := by
    rcases h with rfl | rfl <;> decide
  have fits : Files.Tree.checkPath name = .ok () := by rcases h with rfl | rfl <;> rfl
  have written : (besideSchema name contents?).write name text =
      .ok (besideSchema name (some text)) := by
    rw [Files.Tree.write, bare, fits]
    rcases h with rfl | rfl <;> cases contents? <;> rfl
  rw [treeSite, Files.Tree.access, StateT.run_bind]
  simp only [StateT.run_get, pure_bind, written]
  rfl

theorem sitesAlike_output : SitesAlike outputNaming OutputRenamed treeSite treeSite where
  now := rfl
  files :=
    { read := by
        rintro p p' (⟨rfl, rfl⟩ | ⟨⟨⟩⟩) w w' ⟨contents?, rfl, rfl⟩
        exact ⟨rfl, contents?, rfl, rfl⟩
      write := by
        rintro p p' (⟨rfl, rfl⟩ | ⟨⟨⟩⟩) text w w' ⟨contents?, rfl, rfl⟩
        rw [write_besideSchema (.inl rfl), write_besideSchema (.inr rfl)]
        exact ⟨rfl, some text, rfl, rfl⟩
      enclose := by
        rintro p p' (⟨rfl, rfl⟩ | ⟨⟨⟩⟩) w w' renamed
        exact ⟨rfl, renamed⟩
      nowhere := fun _ => rfl
      nowhere' := fun _ => rfl }

theorem run_renamed_output :
    let words (name : String) := ["generate", "s.json", "--out", name]
    let first := (run treeSite (words "x.bicep")).run (besideSchema "x.bicep" none)
    let second := (run treeSite (words "y.bicep")).run (besideSchema "y.bicep" none)
    first.1.status = second.1.status ∧ OutputRenamed first.2 second.2 := by
  intro words first second
  have asked : ∀ name ∈ ["x.bicep", "y.bicep"], Invocation.ofWords (words name) =
      .run (.generate { schema := "s.json", out? := some name }) := by decide +kernel
  have renamed : (Invocation.ofWords (words "x.bicep")).Renamed outputNaming
      (Invocation.ofWords (words "y.bicep")) := by
    rw [asked "x.bicep" (by simp), asked "y.bicep" (by simp)]
    exact .run (.generate ⟨rfl, ⟨rfl, rfl⟩, .none, .some ⟨rfl, rfl⟩, .none⟩)
  obtain ⟨-, same, trees⟩ := run_renamed sitesAlike_output renamed ⟨none, rfl, rfl⟩
  refine ⟨same fun p p' named => ?_, trees⟩
  rcases named with ⟨⟨⟩⟩ | ⟨rfl, rfl⟩
  decide +kernel

/-- Two names for a document that is checked against a schema. -/
def documentNaming : Naming where
  input p p' := p = "s.json" ∧ p' = "s.json"
  document p p' := p = "x.json" ∧ p' = "argument.json"
  output _ _ := False
  package _ _ := False

/-- Trees that differ in the name of an empty document. -/
def DocumentRenamed (t t' : Files.Tree) : Prop :=
  t = besideSchema "x.json" (some "") ∧ t' = besideSchema "argument.json" (some "")

theorem sitesAlike_document :
    SitesAlike documentNaming DocumentRenamed treeSite treeSite where
  now := rfl
  files :=
    { read := by
        rintro p p' (⟨rfl, rfl⟩ | ⟨rfl, rfl⟩) w w' ⟨rfl, rfl⟩
        · exact ⟨rfl, rfl, rfl⟩
        · exact ⟨rfl, rfl, rfl⟩
      write := by rintro p p' (⟨⟨⟩⟩ | ⟨⟨⟩⟩)
      enclose := by rintro p p' (⟨⟨⟩⟩ | ⟨⟨⟩⟩)
      nowhere := fun _ => rfl
      nowhere' := fun _ => rfl }

/-- The name of a document that is no JSON can be taken for talk of arguments. -/
theorem name_decides_status :
    let words (name : String) := ["validate", "s.json", "--instance", name]
    let tree (name : String) := besideSchema name (some "")
    SitesAlike documentNaming DocumentRenamed treeSite treeSite ∧
      (Invocation.ofWords (words "x.json")).Renamed documentNaming
        (Invocation.ofWords (words "argument.json")) ∧
      DocumentRenamed (tree "x.json") (tree "argument.json") ∧
      ((run treeSite (words "x.json")).run (tree "x.json")).1.status = .generalError ∧
      ((run treeSite (words "argument.json")).run (tree "argument.json")).1.status =
        .invalidArguments := by
  intro words tree
  have asked : ∀ name ∈ ["x.json", "argument.json"], Invocation.ofWords (words name) =
      .run (.validate { file := "s.json", instance? := some name }) := by decide +kernel
  have renamed : (Invocation.ofWords (words "x.json")).Renamed documentNaming
      (Invocation.ofWords (words "argument.json")) := by
    rw [asked "x.json" (by simp), asked "argument.json" (by simp)]
    exact .run (.validate ⟨rfl, ⟨rfl, rfl⟩, .some ⟨rfl, rfl⟩⟩)
  exact ⟨sitesAlike_document, renamed, ⟨rfl, rfl⟩, by decide +kernel, by decide +kernel⟩

end BicepForge.CommandLine
