import BicepForge.Proofs.Conversion.Histories
import BicepForge.Proofs.Conversion.Needs
import Mathlib.Data.List.TakeWhile

/-!
# The name of a converted machine

A machine is named after the parameter that its template takes the name from. Main statement: the
name is that of the first reference to a parameter in the expression, less one ending `_name`, and
the default name if there is no such reference; it never holds a quote, and it is empty in one case
only, where the parameter is called by the ending alone. The converted document takes this name as
it is.
-/

namespace BicepForge.Conversion

open Bicep

/-! ## References -/

/-- A text refers to a parameter: what stands before the reference, the name in it, and what follows
it. -/
structure RefersAt (cs before name behind : List Char) : Prop where
  text : cs = before ++ ("parameters('".toList ++ (name ++ ("')".toList ++ behind)))
  named : name ≠ []
  unquoted : '\'' ∉ name

/-- The name in the reference of a text that begins first. -/
def FirstReference (cs name : List Char) : Prop :=
  ∃ before behind, RefersAt cs before name behind ∧
    ∀ before' name' behind', RefersAt cs before' name' behind' → before.length ≤ before'.length

theorem takeWhile_unquoted {name : List Char} (h : '\'' ∉ name) (behind : List Char) :
    (name ++ '\'' :: behind).takeWhile (· != '\'') = name := by
  rw [List.takeWhile_append_of_pos, List.takeWhile_cons_of_neg (by simp), List.append_nil]
  intro c mem
  exact bne_iff_ne.mpr fun same => h (same ▸ mem)

theorem referenceHere?_eq_some_iff {cs name : List Char} :
    referenceHere? cs = some name ↔ ∃ behind, RefersAt cs [] name behind := by
  constructor
  · intro found
    unfold referenceHere? at found
    split at found
    · rename_i opens
      obtain ⟨inside, rfl⟩ := List.isPrefixOf_iff_prefix.mp opens
      rw [List.drop_left, Option.ite_none_right_eq_some, Bool.and_eq_true,
        List.isPrefixOf_iff_prefix] at found
      obtain ⟨⟨named, behind, closes⟩, same⟩ := found
      obtain rfl := Option.some.inj same
      have whole := List.prefix_iff_eq_append.mp (List.takeWhile_prefix (· != '\'') (l := inside))
      refine ⟨behind, ?_, by simpa using named, ?_⟩
      · rw [List.nil_append]
        exact congrArg (referenceOpening ++ ·) (whole.symm.trans (congrArg _ closes.symm))
      · intro quote
        have other := List.mem_takeWhile_imp quote
        exact bne_iff_ne.mp other rfl
    · cases found
  · rintro ⟨behind, rfl, named, unquoted⟩
    have opens : referenceOpening.isPrefixOf
        ("parameters('".toList ++ (name ++ ("')".toList ++ behind))) = true :=
      List.isPrefixOf_iff_prefix.mpr ⟨_, rfl⟩
    have inside : ("parameters('".toList ++ (name ++ ("')".toList ++ behind))).drop
        referenceOpening.length = name ++ ("')".toList ++ behind) := List.drop_left
    have front : (name ++ ("')".toList ++ behind)).takeWhile (· != '\'') = name :=
      takeWhile_unquoted unquoted _
    rw [List.nil_append, referenceHere?, if_pos opens, inside]
    dsimp only
    rw [front, List.drop_left, if_pos]
    simpa using named

theorem refersAt_cons_iff {c d : Char} {cs before name behind : List Char} :
    RefersAt (c :: cs) (d :: before) name behind ↔ c = d ∧ RefersAt cs before name behind := by
  constructor
  · rintro ⟨text, named, unquoted⟩
    obtain ⟨first, rest⟩ := List.cons.inj text
    exact ⟨first, rest, named, unquoted⟩
  · rintro ⟨rfl, rfl, named, unquoted⟩
    exact ⟨rfl, named, unquoted⟩

/-- Wherever a text refers to a parameter, the search finds a name. -/
theorem RefersAt.isSome_reference? {cs before name behind : List Char}
    (h : RefersAt cs before name behind) : (reference? cs).isSome = true := by
  induction before generalizing cs with
  | nil =>
    have here := referenceHere?_eq_some_iff.mpr ⟨behind, h⟩
    cases cs with
    | nil => cases here
    | cons c cs => rw [reference?, here, Option.some_or, Option.isSome_some]
  | cons d before ih =>
    cases cs with
    | nil => cases h.text
    | cons c cs =>
      have later := ih (refersAt_cons_iff.mp h).2
      rw [reference?, Option.isSome_or, later, Bool.or_true]

/-- What the search finds is the name in the first reference. -/
theorem firstReference_of_reference? {cs name : List Char} (h : reference? cs = some name) :
    FirstReference cs name := by
  induction cs with
  | nil => cases h
  | cons c cs ih =>
    rw [reference?] at h
    cases here : referenceHere? (c :: cs) with
    | some found =>
      rw [here, Option.some_or] at h
      obtain rfl := Option.some.inj h
      obtain ⟨behind, refers⟩ := referenceHere?_eq_some_iff.mp here
      exact ⟨[], behind, refers, fun _ _ _ _ => Nat.zero_le _⟩
    | none =>
      rw [here, Option.none_or] at h
      obtain ⟨before, behind, refers, first⟩ := ih h
      refine ⟨c :: before, behind, refersAt_cons_iff.mpr ⟨rfl, refers⟩, ?_⟩
      intro before' name' behind' other
      cases before' with
      | nil =>
        have found := referenceHere?_eq_some_iff.mpr ⟨behind', other⟩
        rw [here] at found
        cases found
      | cons d before' =>
        exact Nat.succ_le_succ (first _ _ _ (refersAt_cons_iff.mp other).2)

/-- A text has one first reference. -/
theorem FirstReference.unique {cs name other : List Char} (h : FirstReference cs name)
    (h' : FirstReference cs other) : name = other := by
  obtain ⟨before, behind, refers, first⟩ := h
  obtain ⟨before', behind', refers', first'⟩ := h'
  have place : before.length = before'.length :=
    Nat.le_antisymm (first _ _ _ refers') (first' _ _ _ refers)
  have same := refers.text.symm.trans refers'.text
  have inside := List.append_cancel_left (List.append_inj same place).2
  exact (Text.before_mark_inj refers.unquoted refers'.unquoted inside).1

theorem reference?_eq_some_iff {cs name : List Char} :
    reference? cs = some name ↔ FirstReference cs name := by
  refine ⟨firstReference_of_reference?, fun h => ?_⟩
  obtain ⟨before, behind, refers, -⟩ := id h
  obtain ⟨found, search⟩ := Option.isSome_iff_exists.mp refers.isSome_reference?
  rw [search, (firstReference_of_reference? search).unique h]

theorem reference?_eq_none_iff {cs : List Char} :
    reference? cs = none ↔ ∀ before name behind, ¬RefersAt cs before name behind := by
  constructor
  · intro none before name behind refers
    have found := refers.isSome_reference?
    rw [none] at found
    cases found
  · intro never
    refine Option.eq_none_iff_forall_ne_some.mpr fun name search => ?_
    obtain ⟨before, behind, refers, -⟩ := firstReference_of_reference? search
    exact never before name behind refers

/-! ## Names -/

/-- A name less one ending `_name`, if it has that ending. -/
inductive EndingRemoved : List Char → List Char → Prop
  | removed (stem : List Char) : EndingRemoved (stem ++ "_name".toList) stem
  | kept {name : List Char} (other : ¬"_name".toList <:+ name) : EndingRemoved name name

theorem endingRemoved_withoutNameEnding (name : List Char) :
    EndingRemoved name (withoutNameEnding name) := by
  unfold withoutNameEnding
  dsimp only
  split
  · rename_i ends
    obtain ⟨stem, rfl⟩ := List.isSuffixOf_iff_suffix.mp ends
    rw [List.length_append, Nat.add_sub_cancel, List.take_left]
    exact .removed stem
  · rename_i other
    exact .kept (mt List.isSuffixOf_iff_suffix.mpr other)

theorem EndingRemoved.unique {name stem other : List Char} (h : EndingRemoved name stem)
    (h' : EndingRemoved name other) : stem = other := by
  generalize same : name = whole at h'
  cases h with
  | removed =>
    cases h' with
    | removed => exact List.append_cancel_right same
    | kept unended => exact absurd (same ▸ List.suffix_append _ _) unended
  | kept unended =>
    cases h' with
    | removed => exact absurd (same ▸ List.suffix_append _ _) unended
    | kept => exact same

theorem EndingRemoved.subset {name stem : List Char} (h : EndingRemoved name stem) :
    stem ⊆ name := by
  cases h with
  | removed => exact List.subset_append_left _ _
  | kept => exact List.Subset.refl _

theorem EndingRemoved.eq_nil_iff {name stem : List Char} (h : EndingRemoved name stem)
    (named : name ≠ []) : stem = [] ↔ name = "_name".toList := by
  cases h with
  | removed => exact ⟨fun none => by rw [none]; rfl, fun whole => by simpa using whole⟩
  | kept other =>
    exact iff_of_false named fun whole => other ⟨[], whole.symm⟩

/-- The name that an expression gives to a machine. -/
inductive Names : Option Json → String → Prop
  /-- That of the parameter which it refers to first, less the ending. -/
  | parameter {s : String} {name stem : List Char} (first : FirstReference s.toList name)
      (ending : EndingRemoved name stem) : Names (some (.str s)) (String.ofList stem)
  /-- The default name, where it refers to no parameter. -/
  | default {expression? : Option Json}
      (none : ∀ s before name behind, expression? = some (.str s) →
        ¬RefersAt s.toList before name behind) : Names expression? "myvm"

theorem names_parameterName (expression? : Option Json) :
    Names expression? (parameterName expression?) := by
  rw [parameterName]
  cases search : (expression?.bind Json.asString?).bind fun s => reference? s.toList with
  | some name =>
    obtain ⟨s, text, found⟩ := Option.bind_eq_some_iff.mp search
    obtain rfl := bind_asString?_eq_some_iff.mp text
    exact .parameter (reference?_eq_some_iff.mp found) (endingRemoved_withoutNameEnding name)
  | none =>
    refine .default fun s before name behind text refers => ?_
    have found := Option.bind_eq_none_iff.mp search s (bind_asString?_eq_some_iff.mpr text)
    exact reference?_eq_none_iff.mp found before name behind refers

/-- An expression gives one name. -/
theorem Names.unique {expression? : Option Json} {name other : String}
    (h : Names expression? name) (h' : Names expression? other) : name = other := by
  cases h with
  | parameter first ending =>
    cases h' with
    | parameter first' ending' =>
      obtain rfl := first.unique first'
      rw [ending.unique ending']
    | default none =>
      obtain ⟨before, behind, refers, -⟩ := first
      exact absurd refers (none _ _ _ _ rfl)
  | default none =>
    cases h' with
    | parameter first =>
      obtain ⟨before, behind, refers, -⟩ := first
      exact absurd refers (none _ _ _ _ rfl)
    | default => rfl

theorem parameterName_eq_iff {expression? : Option Json} {name : String} :
    parameterName expression? = name ↔ Names expression? name := by
  constructor
  · rintro rfl
    exact names_parameterName expression?
  · exact (names_parameterName expression?).unique

theorem Names.unquoted {expression? : Option Json} {name : String} (h : Names expression? name) :
    '\'' ∉ name.toList := by
  cases h with
  | parameter first ending =>
    obtain ⟨before, behind, refers, -⟩ := first
    rw [String.toList_ofList]
    exact fun mem => refers.unquoted (ending.subset mem)
  | default => decide

/-- The one way to an empty name is a parameter that is called by the ending alone. -/
theorem Names.eq_empty_iff {expression? : Option Json} {name : String}
    (h : Names expression? name) :
    name = "" ↔ ∃ s, expression? = some (.str s) ∧ FirstReference s.toList "_name".toList := by
  cases h with
  | parameter first ending =>
    rename_i s name stem
    obtain ⟨before, behind, refers, -⟩ := id first
    have empty : String.ofList stem = "" ↔ name = "_name".toList := by
      rw [← ending.eq_nil_iff refers.named, ← String.toList_inj, String.toList_ofList]
      rfl
    rw [empty]
    constructor
    · rintro rfl
      exact ⟨s, rfl, first⟩
    · rintro ⟨t, text, also⟩
      obtain rfl := Json.str.inj (Option.some.inj text)
      exact first.unique also
  | default none =>
    refine iff_of_false (by decide) ?_
    rintro ⟨s, text, before, behind, refers, -⟩
    exact none s before _ behind text refers

/-! ## Converted documents -/

/-- The name of the machine in a plan is the default of a parameter. -/
theorem param?_document (plan : Plan) (now : Instant) :
    ∃ p, (plan.document now).param? "vmName" = some p ∧ p.default? = some (.str plan.vmName) :=
  ⟨_, rfl, rfl⟩

/-- A document that is converted from a template takes the name over that the first machine of the
template is given. -/
theorem convertAnalysis_ofTemplate_named (now : Instant) (config : Configuration)
    (document : Json) :
    LacksNetwork config ∨ ∃ d p,
      convertAnalysis now config (.ofTemplate ⟨document⟩) = .ok d ∧ d.param? "vmName" = some p ∧
        p.default? = some (.str (parameterName
          ((Analysis.ofTemplate ⟨document⟩).machines.head?.bind (Json.get? "name")))) := by
  rcases convertAnalysis_cases now config (.ofTemplate ⟨document⟩) with ⟨lacks, -⟩ | ⟨-, made⟩
  · exact .inl lacks
  · obtain ⟨p, found, default⟩ :=
      param?_document ⟨config, (Analysis.ofTemplate ⟨document⟩).vmName⟩ now
    rw [Analysis.vmName_ofTemplate] at default
    exact .inr ⟨_, p, made, found, default⟩

/-- An expression names a machine after the first parameter that it refers to, or it leaves it the
default name. The name holds no quote, and it is empty exactly where that parameter is called by the
ending alone. A converted document gives its machine the name from the first machine of the
template. -/
theorem parameterName_names (expression? : Option Json) :
    (∀ name, parameterName expression? = name ↔ Names expression? name) ∧
      '\'' ∉ (parameterName expression?).toList ∧
      (parameterName expression? = "" ↔
        ∃ s, expression? = some (.str s) ∧ FirstReference s.toList "_name".toList) ∧
      ∀ now config document, LacksNetwork config ∨ ∃ d p,
        convertAnalysis now config (.ofTemplate ⟨document⟩) = .ok d ∧ d.param? "vmName" = some p ∧
          p.default? = some (.str (parameterName
            ((Analysis.ofTemplate ⟨document⟩).machines.head?.bind (Json.get? "name")))) := by
  have named := names_parameterName expression?
  exact ⟨fun _ => parameterName_eq_iff, named.unquoted, named.eq_empty_iff,
    convertAnalysis_ofTemplate_named⟩

/-- A machine that is named after a parameter `_name` is left without a name. -/
theorem parameterName_ending_alone :
    parameterName (some (.str "[parameters('_name')]")) = "" := by
  decide +kernel

end BicepForge.Conversion
