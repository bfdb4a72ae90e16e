import BicepForge.Proofs.Check.Plans
import BicepForge.Proofs.Generation.Derived
import BicepForge.Proofs.Generation.Naming

/-!
# The check accepts what is generated and converted

The strings that reach a generated or a converted document are listed. Where they are clean the
document is tame, so that the check of its text finds no error, finds a resource, and counts the
parameters, variables, outputs and resources of the document.
-/

namespace BicepForge.Check

open Bicep Generation Conversion

/-! ## The strings that reach a generated document -/

/-- The strings that reach a generated document, patterns apart. -/
def generatedTexts (registry : Registry) (config : Configuration) (schema : ResourceSchema)
    (type : String) : List String :=
  let info := registry.lookup type config.targetScope
  [type, info.name, registry.selectApiVersion schema type] ++
    (auxiliaryResources registry info (resourceSymbol type)).map (·.apiVersion) ++
    (if info.supportsLocationAndTags then (Configuration.worded? config.location?).toList
      else []) ++
    recipeTexts config info.kind ++
    (derivedProperties registry config schema type).flatMap fun p => propertyTexts p.2

/-- The patterns that reach a generated document, each in a comment line of its own. -/
def generatedPatterns (registry : Registry) (config : Configuration) (schema : ResourceSchema)
    (type : String) : List String :=
  (derivedProperties registry config schema type).filterMap fun p => p.2.string? "pattern"

def startsWithLetter (symbol : String) : Bool :=
  symbol.toList.head?.any Char.isAlpha

/-! ## Symbols and timestamps -/

theorem isTidy_of_isIdentifier {s : String} (h : Value.isIdentifier s = true) :
    isTidy s = true := by
  obtain ⟨c, cs, hs, -, run⟩ := Value.exists_cons_of_isIdentifier h
  rw [isTidy, hs, Bool.and_eq_true, decide_eq_true_eq]
  constructor
  · exact isSolid_of_ordinary
      (List.all_eq_true.mpr fun d hd => isOrdinary_of_continuesName (run d hd))
  · exact Balanced.of_notMem fun d hd => notMem_signs_of_continuesName (run d hd)

theorem isTidyInterp_of_isIdentifier {s : String} (h : Value.isIdentifier s = true) :
    isTidyInterp s = true := by
  obtain ⟨c, cs, hs, -, run⟩ := Value.exists_cons_of_isIdentifier h
  rw [isTidyInterp, hs, Bool.and_eq_true, decide_eq_true_eq]
  constructor
  · rw [List.all_eq_true]
    intro d hd
    rw [Bool.not_eq_true', List.contains_eq_mem, decide_eq_false_iff_not]
    intro special
    have other : ∀ e ∈ ['\\', '\'', '\n', '\r', '\t'], continuesName e = false := by decide
    exact ne_of_continuesName (run d hd) (other d special) rfl
  · exact Balanced.of_notMem fun d hd => notMem_signs_of_continuesName (run d hd)

/-- Letters and digits make an identifier exactly if a letter is first. -/
theorem isIdentifier_iff_startsWithLetter {s : String}
    (run : ∀ c ∈ s.toList, c.isAlphanum = true) :
    Value.isIdentifier s = true ↔ startsWithLetter s = true := by
  unfold Value.isIdentifier startsWithLetter
  cases hs : s.toList with
  | nil => exact Iff.rfl
  | cons c cs =>
    rw [hs, List.forall_mem_cons] at run
    have bar : (c == '_') = false := by
      rw [beq_eq_false_iff_ne]
      rintro rfl
      exact absurd run.1 (by decide)
    have rest : (cs.all fun d => d.isAlphanum || d == '_') = true := by
      rw [List.all_eq_true]
      intro d hd
      rw [run.2 d hd, Bool.true_or]
    dsimp only
    rw [bar, rest, Bool.or_false, Bool.and_true]
    rfl

/-- A symbol that begins with a letter is an identifier: what is behind it are letters and
digits. -/
theorem isIdentifier_resourceSymbol {type : String}
    (h : startsWithLetter (resourceSymbol type) = true) :
    Value.isIdentifier (resourceSymbol type) = true :=
  (isIdentifier_iff_startsWithLetter (isAlphanum_resourceSymbol type)).mpr h

theorem isIdentifier_append {s t : String} (hs : Value.isIdentifier s = true)
    (ht : (t.toList.all continuesName) = true) : Value.isIdentifier (s ++ t) = true := by
  obtain ⟨c, cs, hc, letter, run⟩ := Value.exists_cons_of_isIdentifier hs
  rw [Value.isIdentifier, String.toList_append, hc]
  simp only [List.cons_append, letter, Bool.true_and, List.all_append, Bool.and_eq_true]
  exact ⟨List.all_eq_true.mpr fun d hd => run d (List.mem_cons_of_mem _ hd), ht⟩

theorem isLine_padded (width n : Nat) : isLine (Instant.padded width n) = true := by
  have own : '\n' ∉
      List.replicate (width - (Nat.toDigits 10 n).length) '0' ++ Nat.toDigits 10 n := by
    intro feed
    rcases List.mem_append.mp feed with feed | feed
    · exact absurd (List.eq_of_mem_replicate feed) (by decide)
    · exact absurd (Number.isDigit_of_mem_toDigits feed) (by decide)
  rw [isLine, Instant.padded, String.toList_ofList, Bool.not_eq_true', List.contains_eq_mem,
    decide_eq_false_iff_not]
  exact own

theorem isLine_yearText (year : Int) : isLine (Instant.yearText year) = true := by
  unfold Instant.yearText
  split_ifs
  · exact isLine_padded _ _
  · exact isLine_append (by decide) (isLine_padded _ _)
  · exact isLine_append (by decide) (isLine_padded _ _)

/-- A timestamp is a line. -/
theorem isLine_timestamp (now : Instant) : isLine now.timestamp = true := by
  have hyphen : isLine "-" = true := by decide
  have colon : isLine ":" = true := by decide
  have calendar (year : Int) (month day : Nat) := isLine_append (isLine_append (isLine_append
    (isLine_append (isLine_yearText year) hyphen) (isLine_padded 2 month)) hyphen)
    (isLine_padded 2 day)
  have seconds : isLine now.secondsText = true := by
    unfold Instant.secondsText
    exact isLine_append (isLine_append (isLine_append (isLine_append (isLine_append
      (isLine_append (calendar _ _ _) (by decide)) (isLine_padded _ _)) colon) (isLine_padded _ _))
      colon) (isLine_padded _ _)
  exact isLine_append (isLine_append (isLine_append seconds (by decide)) (isLine_padded _ _))
    (by decide)

/-! ## Generated documents -/

section Generated

variable {registry : Registry} {config : Configuration} {schema : ResourceSchema} {type : String}

theorem tameParam_derived
    (clean : ∀ s ∈ generatedTexts registry config schema type, isClean s = true)
    (patterns : ∀ s ∈ generatedPatterns registry config schema type, isLine s = true) :
    ∀ p ∈ (derivedProperties registry config schema type).map fun p => parameterOfSchema p.1 p.2,
      TameParam p := by
  intro p hp
  obtain ⟨⟨name, property⟩, mem, rfl⟩ := List.mem_map.mp hp
  refine tameParam_parameterOfSchema (isIdentifier_of_mem_derivedProperties mem)
    (fun s hs => clean s ?_) (fun pattern h => patterns _ ?_)
  · rw [generatedTexts, List.mem_append]
    exact .inr (List.mem_flatMap.mpr ⟨_, mem, hs⟩)
  · exact List.mem_filterMap.mpr ⟨_, mem, h⟩

theorem tameBody_bindings {params : List Param}
    (h : ∀ p ∈ params, Value.isIdentifier p.name = true) : tameBody (bindings params) = true := by
  induction params with
  | nil => rfl
  | cons p params ih =>
    have name := h p (by simp)
    have rest : tameBody (bindings params) = true :=
      ih fun q hq => h q (List.mem_cons_of_mem _ hq)
    show tameBody (.ref p.name p.name :: bindings params) = true
    rw [tameBody, Entry.ref, tameEntry, tame, isClean_of_isIdentifier name,
      isTidy_of_isIdentifier name, rest]
    rfl

theorem tameBody_genericSettings {name : String} (clean : isClean name = true)
    {derived : DerivedParameters} (h : ∀ p ∈ derived.params, Value.isIdentifier p.name = true) :
    tameBody (genericSettings name derived) = true := by
  have bound := tameBody_bindings h
  have comment : isLine ("Refer to Azure documentation for " ++ name ++ " properties") = true :=
    isLine_append (isLine_append (by decide) (isLine_of_isClean clean)) (by decide)
  have open_ : tameBody (placeholder name) = true := by
    simp only [placeholder, tameBody, tameEntry, Bool.and_true, Bool.and_eq_true]
    exact ⟨by decide, comment⟩
  unfold genericSettings
  split_ifs
  · simp only [tameBody, Entry.nest, tameEntry, tame, bound, Bool.and_true]
    exact clean_lit rfl
  · simp only [tameBody_append, tameBody, Entry.nest, tameEntry, tame, bound, open_, Bool.true_and,
      Bool.and_true]
    exact clean_lit rfl

theorem tameResource_auxiliary (name : Value.isIdentifier (resourceSymbol type) = true)
    (clean : ∀ s ∈ generatedTexts registry config schema type, isClean s = true) :
    ∀ r ∈ auxiliaryResources registry (registry.lookup type config.targetScope)
      (resourceSymbol type), TameResource r := by
  intro r hr
  have version : isClean r.apiVersion = true := by
    refine clean _ ?_
    simp only [generatedTexts, List.mem_append]
    exact .inl (.inl (.inl (.inr (List.mem_map.mpr ⟨r, hr, rfl⟩))))
  obtain ⟨aux, -, made⟩ := List.mem_filterMap.mp hr
  split_ifs at made
  obtain rfl := Option.some.inj made
  exact tameResource_networkInterface (isIdentifier_append name (by decide)) version _

theorem tameResource_mainResource {info : ResourceTypeInfo} {symbol apiVersion : String}
    {derived : DerivedParameters} (name : Value.isIdentifier symbol = true)
    (clean : isClean info.name = true) (version : isClean apiVersion = true)
    (params : ∀ p ∈ derived.params, Value.isIdentifier p.name = true) :
    TameResource (mainResource config info symbol apiVersion derived) where
  symbol := name
  type := clean
  apiVersion := version
  comment := by
    unfold mainResource
    split_ifs <;> rfl
  body := by
    have nameValue : tame (.expr (nameVariable info.kind)) = true := by
      cases info.kind <;> exact tidy_lit rfl
    simp only [mainResource, tameBody_append, tameBody_identity nameValue, Bool.true_and]
    cases own : (recipe info.kind).settings? with
    | some settings => exact tameBody_recipe (isTidy_of_isIdentifier name) own
    | none => exact tameBody_genericSettings clean params

theorem tameParam_generateForType (now : Instant)
    (clean : ∀ s ∈ generatedTexts registry config schema type, isClean s = true)
    (patterns : ∀ s ∈ generatedPatterns registry config schema type, isLine s = true) :
    ∀ p ∈ (generateForType registry now config schema type).parameters, TameParam p := by
  have location : (registry.lookup type config.targetScope).supportsLocationAndTags = true →
      ∀ s ∈ (Configuration.worded? config.location?).toList, isClean s = true := by
    intro located s hs
    refine clean s ?_
    simp only [generatedTexts, located, if_true, List.mem_append]
    exact .inl (.inl (.inr hs))
  intro p hp
  rw [parameters_generateForType] at hp
  rcases List.mem_append.mp hp with hp | hp
  · exact tameParam_baseParameters location p hp
  · unfold ownParameters at hp
    split at hp
    · rename_i own
      exact tameParam_recipe (fun s hs => clean s (by simp [generatedTexts, hs])) own p hp
    · exact tameParam_derived clean patterns p hp

theorem tameResource_generateForType (now : Instant)
    (name : Value.isIdentifier (resourceSymbol type) = true)
    (clean : ∀ s ∈ generatedTexts registry config schema type, isClean s = true)
    (patterns : ∀ s ∈ generatedPatterns registry config schema type, isLine s = true) :
    ∀ x ∈ (generateForType registry now config schema type).declarations,
      ∃ r, x = .resource r ∧ TameResource r := by
  have reached : isClean (registry.lookup type config.targetScope).name = true ∧
      isClean (registry.selectApiVersion schema type) = true := by
    constructor <;> exact clean _ (by simp [generatedTexts])
  intro x hx
  rw [declarations_generateForType] at hx
  rcases List.mem_append.mp hx with hx | hx
  · obtain ⟨r, hr, rfl⟩ := List.mem_map.mp hx
    exact ⟨r, rfl, tameResource_auxiliary name clean r hr⟩
  · rw [List.mem_singleton.mp hx]
    refine ⟨_, rfl, tameResource_mainResource name reached.1 reached.2 fun p hp => ?_⟩
    exact (tameParam_derived clean patterns p
      (params_derivedOf registry config schema type ▸ hp)).name

theorem tameOutput_generateForType (now : Instant)
    (name : Value.isIdentifier (resourceSymbol type) = true) :
    ∀ o ∈ (generateForType registry now config schema type).outputs, TameOutput o := by
  intro o ho
  simp only [generateForType] at ho
  split_ifs at ho
  · rcases List.mem_append.mp ho with ho | ho
    · exact tameOutput_baseOutputs (isTidy_of_isIdentifier name) _ o ho
    · exact tameOutput_recipe (isTidy_of_isIdentifier name) (isTidyInterp_of_isIdentifier name) _
        o ho
  · cases ho

/-- A generated document is tame if the strings that reach it are clean. -/
theorem tameDocument_generateForType (now : Instant)
    (symbol : startsWithLetter (resourceSymbol type) = true)
    (clean : ∀ s ∈ generatedTexts registry config schema type, isClean s = true)
    (patterns : ∀ s ∈ generatedPatterns registry config schema type, isLine s = true) :
    TameDocument (generateForType registry now config schema type) := by
  have name := isIdentifier_resourceSymbol symbol
  have reached : isClean type = true := clean _ (by simp [generatedTexts])
  constructor
  case header =>
    simp only [generateForType, List.forall_mem_cons]
    exact ⟨by decide, isLine_append (by decide) (isLine_of_isClean reached),
      isLine_append (by decide) (isLine_timestamp now), by simp⟩
  case metadata =>
    simp only [generateForType, List.forall_mem_cons]
    refine ⟨⟨tidy_lit rfl, ?_⟩, ⟨tidy_lit rfl, clean_lit rfl⟩, ⟨tidy_lit rfl, clean_lit rfl⟩,
      by simp⟩
    rw [isClean_append, reached, Bool.and_true]
    exact clean_lit rfl
  case notesTitle => simp [generateForType]
  case notes => simp [generateForType]
  case parameters => exact tameParam_generateForType now clean patterns
  case vars =>
    intro v hv
    rcases List.mem_append.mp hv with hv | hv
    · exact tameVariable_baseVariables reached _ v hv
    · exact tameVariable_recipe _ v hv
  case declarations => exact tameResource_generateForType now name clean patterns
  case outputs => exact tameOutput_generateForType now name

end Generated

/-! ## Converted documents -/

/-- A converted document is tame if the strings that reach it are clean. -/
theorem tameDocument_document {config : Configuration} {vmName : String} (now : Instant)
    (clean : ∀ s ∈ convertedTexts config vmName, isClean s = true) :
    TameDocument (Plan.document ⟨config, vmName⟩ now) where
  header := by
    have machine : isClean vmName = true := clean _ (by simp [convertedTexts])
    have made : isLine ("Generated on: " ++ now.timestamp) = true :=
      isLine_append (by decide) (isLine_timestamp now)
    simp only [Plan.document, Plan.header]
    split_ifs
    · simp only [List.forall_mem_cons]
      exact ⟨by decide, made, by decide, isLine_append (by decide) (isLine_of_isClean machine),
        by simp⟩
    · simp only [List.forall_mem_cons]
      exact ⟨by decide, made, by decide, by simp⟩
  metadata := by
    simp only [Plan.document, generatorName, List.forall_mem_cons]
    refine ⟨⟨tidy_lit rfl, ?_⟩, ⟨tidy_lit rfl, ?_⟩, ⟨tidy_lit rfl, clean_lit rfl⟩, by simp⟩
    · split_ifs
      · exact clean_lit rfl
      · exact clean_lit rfl
    · rw [isClean_append]
      decide
  notesTitle := by simp [Plan.document]
  notes := by simp [Plan.document]
  parameters := tameParam_parameters clean
  vars := tameVariable_vars clean
  declarations := by
    intro x hx
    obtain ⟨r, hr, rfl⟩ := List.mem_map.mp hx
    exact ⟨r, rfl, tameResource_resources _ r hr⟩
  outputs := tameOutput_outputs _

theorem declarations_document_ne_nil (p : Plan) (now : Instant) :
    (p.document now).declarations ≠ [] := by
  simp [Plan.document, Plan.resources]

/-! ## Acceptance -/

/-- The check of a document that holds a resource and in which nothing is wrong. -/
def accepted (d : Document) : Report :=
  { valid := true, dialect? := some .bicep, errors := [], warnings := []
    info := declarationNotes d }

/-- Whatever is generated or converted from clean strings is accepted, with the number of its
parameters, variables, outputs and resources. -/
theorem checkCode_generated_and_converted :
    (∀ (registry : Registry) (now : Instant) (config : Configuration) (schema : ResourceSchema)
      (type : String), startsWithLetter (resourceSymbol type) = true →
      (∀ s ∈ generatedTexts registry config schema type, isClean s = true) →
      (∀ s ∈ generatedPatterns registry config schema type, isLine s = true) →
      checkCode (generateForType registry now config schema type).text =
        accepted (generateForType registry now config schema type)) ∧
    ∀ (now : Instant) (config : Configuration) (analysis : Analysis) (d : Document),
      convertAnalysis now config analysis = .ok d →
      (∀ s ∈ convertedTexts config analysis.vmName, isClean s = true) →
      checkCode d.text = accepted d := by
  constructor
  · intro registry now config schema type symbol clean patterns
    refine checkCode_text (tameDocument_generateForType now symbol clean patterns) ?_
    simp [generateForType]
  · intro now config analysis d converted clean
    obtain rfl : d = Plan.document ⟨config, analysis.vmName⟩ now := by
      unfold convertAnalysis at converted
      split at converted
      · cases converted
      · exact (Except.ok.inj converted).symm
    exact checkCode_text (tameDocument_document now clean) (declarations_document_ne_nil _ _)

/-- A schema whose one setting has comment marks in its description and its default, and brackets
and quotes in its pattern. -/
def gearSchema : ResourceSchema :=
  ⟨.obj [("properties", .obj [("teeth", .obj
    [("type", .str "string"), ("description", .str "Teeth // count"),
     ("pattern", .str "^['\x7b[]$"), ("default", .obj [("see", .str "https://gears")])])])]⟩

/-- The document of a gear, and the machine of a template without one in a network that exists. -/
theorem checkCode_generated_and_converted_gear :
    let gear := generateForType .empty ⟨0⟩ {} gearSchema "Acme/gears"
    let config := Configuration.withExistingNetwork {} "hub" "edge // east"
    let analysis := Analysis.ofTemplate ⟨.obj []⟩
    checkCode gear.text = accepted gear ∧
      ∃ machine, convertAnalysis ⟨0⟩ config analysis = .ok machine ∧
        checkCode machine.text = accepted machine := by
  intro gear config analysis
  constructor
  · exact checkCode_generated_and_converted.1 _ _ _ _ _ (by decide +kernel) (by decide +kernel)
      (by decide +kernel)
  · have converted : convertAnalysis ⟨0⟩ config analysis =
        .ok (Plan.document ⟨config, analysis.vmName⟩ ⟨0⟩) := rfl
    exact ⟨_, converted, checkCode_generated_and_converted.2 _ _ _ _ converted (by decide +kernel)⟩

end BicepForge.Check
