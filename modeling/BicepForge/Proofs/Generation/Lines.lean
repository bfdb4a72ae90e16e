import BicepForge.Proofs.Bicep.DocumentLines
import BicepForge.Proofs.Check.Acceptance
import Mathlib.Data.List.Basic

/-!
# The lines of a generated document

All names and raw expressions of a generated document are on one line each, whatever the schema, the
type, the configuration and the registry hold, and nearly all of their strings stand in literals,
which are escaped. A few are written as they are: the type in the header and in a comment that stands
for unknown settings, patterns in notes, and types with their versions between quotes. Main statement:
for each section, the lines that begin with its keyword are as many as its declarations, and those of
these texts behind their first lines; so there are as many exactly if no such line begins with a
keyword.
-/

namespace BicepForge.Generation

open Bicep Check

/-! ## Values -/

mutual
/-- A value that the check does not notice is flat. -/
theorem isFlat_of_tame : ∀ v : Value, tame v = true → v.isFlat = true
  | .str _, _ | .interp _, _ | .bool _, _ | .int _, _ | .null, _ => rfl
  | .expr _, h => Value.isLine_of_isTidy h
  | .array items, h => by
    rw [tame, Bool.and_eq_true] at h
    exact areFlat_of_tameItems items h.1
  | .object body, h => isFlatBody_of_tame body h
  | .call function arguments, h => by
    rw [tame, Bool.and_eq_true] at h
    exact Bool.and_eq_true_iff.mpr
      ⟨Value.isLine_of_isTidy h.1, areFlat_of_tameItems arguments h.2⟩
  | .forEach binding source body, h => by
    rw [tame, Bool.and_eq_true, Bool.and_eq_true] at h
    rw [Value.isFlat, Value.isLine_of_isTidy h.1.1, Value.isLine_of_isTidy h.1.2]
    exact isFlat_of_tame body h.2
  | .conditional condition yes no, h => by
    rw [tame, Bool.and_eq_true, Bool.and_eq_true] at h
    rw [Value.isFlat, Value.isLine_of_isTidy h.1.1, isFlat_of_tame yes h.1.2]
    exact isFlat_of_tame no h.2
theorem areFlat_of_tameItems : ∀ vs : List Value, tameItems vs = true → Value.areFlat vs = true
  | [], _ => rfl
  | v :: vs, h => by
    rw [tameItems, Bool.and_eq_true] at h
    exact Bool.and_eq_true_iff.mpr ⟨isFlat_of_tame v h.1, areFlat_of_tameItems vs h.2⟩
theorem isFlatBody_of_tame : ∀ es : Body, tameBody es = true → Value.isFlatBody es = true
  | [], _ => rfl
  | e :: es, h => by
    rw [tameBody, Bool.and_eq_true] at h
    exact Bool.and_eq_true_iff.mpr ⟨isFlatEntry_of_tame e h.1, isFlatBody_of_tame es h.2⟩
theorem isFlatEntry_of_tame : ∀ e : Entry, tameEntry e = true → Value.isFlatEntry e = true
  | .property _ value, h => by
    rw [tameEntry, Bool.and_eq_true] at h
    exact isFlat_of_tame value h.2
  | .comment _, _ => rfl
end

mutual
/-- A literal is flat and holds no comments, whatever its strings are. -/
theorem plain_ofJson : ∀ v : Json, (Value.ofJson v).isFlat = true ∧ (Value.ofJson v).comments = []
  | .null | .bool _ | .str _ => ⟨rfl, rfl⟩
  | .num (.int i) => by
    rw [Value.ofJson, Value.ofNumber]
    by_cases h : Value.inIntRange i = true
    · rw [if_pos h]
      exact ⟨rfl, rfl⟩
    · rw [if_neg h]
      exact ⟨Value.isLine_text (.int i), rfl⟩
  | .num (.float x) => ⟨Value.isLine_text (.float x), rfl⟩
  | .arr items => plain_ofItems items
  | .obj entries => plain_ofEntries entries
theorem plain_ofItems : ∀ vs : List Json,
    Value.areFlat (Value.ofItems vs) = true ∧ Value.commentsOfItems (Value.ofItems vs) = []
  | [] => ⟨rfl, rfl⟩
  | v :: vs => by
    have first := plain_ofJson v
    have rest := plain_ofItems vs
    rw [Value.ofItems, Value.areFlat, Value.commentsOfItems, first.1, first.2, rest.1, rest.2]
    exact ⟨rfl, rfl⟩
theorem plain_ofEntries : ∀ es : List (String × Json),
    Value.isFlatBody (Value.ofEntries es) = true ∧ Value.commentsOfBody (Value.ofEntries es) = []
  | [] => ⟨rfl, rfl⟩
  | (k, v) :: es => by
    have value := plain_ofJson v
    have rest := plain_ofEntries es
    rw [Value.ofEntries, Value.isFlatBody, Value.isFlatEntry, Value.commentsOfBody,
      Value.commentsOfEntry, value.1, value.2, rest.1, rest.2]
    exact ⟨rfl, rfl⟩
end

/-! ## Parameters -/

/-- A parameter that is flat and writes nothing as it is. -/
structure PlainParam (p : Param) : Prop where
  flat : p.Flat
  unescaped : p.unescaped = []

theorem line_lit {cs : List Char} (h : (!cs.contains '\n') = true) :
    isLine (String.ofList cs) = true := by
  rwa [isLine, String.toList_ofList]

theorem plain_texts (texts : List String) :
    Value.areFlat (texts.map .str) = true ∧ Value.commentsOfItems (texts.map .str) = [] := by
  induction texts with
  | nil => exact ⟨rfl, rfl⟩
  | cons s texts ih => exact ih

theorem plainParam_choice {name : String} (h : isLine name = true) (description : String)
    (choices : List String) (default : String) :
    PlainParam (choice name description choices default) where
  flat := ⟨h, by
    have choices := (plain_texts choices).1
    simp [choice, Param.describe, Param.allow, Param.decorate, Param.withDefault,
      Decorator.isFlat, choices], rfl⟩
  unescaped := by
    have choices := (plain_texts choices).2
    simp [choice, Param.describe, Param.allow, Param.decorate, Param.withDefault, Param.unescaped,
      Decorator.unescaped, Value.comments, choices]

theorem plainParam_switch {name : String} (h : isLine name = true) (description : String)
    (default : Bool) : PlainParam (switch name description default) :=
  ⟨⟨h, rfl, rfl⟩, rfl⟩

theorem plainParam_baseParameters (located : Bool) (config : Configuration) :
    ∀ p ∈ baseParameters located config, PlainParam p := by
  have environment : PlainParam (choice "environment" "Environment name (e.g., dev, test, prod)"
      environments (defaultEnvironment config)) := plainParam_choice (line_lit rfl) _ _ _
  cases located with
  | false =>
    simp only [baseParameters, Bool.false_eq_true, if_false, List.append_nil, List.cons_append,
      List.nil_append, List.forall_mem_cons]
    exact ⟨⟨⟨line_lit rfl, rfl, rfl⟩, rfl⟩, environment, by simp⟩
  | true =>
    have location : (defaultLocation config).isFlat = true ∧
        (defaultLocation config).comments = [] := by
      unfold defaultLocation
      split
      · exact ⟨rfl, rfl⟩
      · exact ⟨line_lit rfl, rfl⟩
    have tags : Value.isFlat (.object
         [.ref "Environment" "environment",
          .lit "CreatedBy" generatorName,
          .ref "CreatedDate" "utcNow('yyyy-MM-dd')"]) = true := by decide
    simp only [baseParameters, if_true, List.cons_append, List.nil_append, List.forall_mem_cons]
    exact ⟨⟨⟨line_lit rfl, rfl, rfl⟩, rfl⟩, ⟨⟨line_lit rfl, rfl, location.1⟩, location.2⟩,
      environment, ⟨⟨line_lit rfl, rfl, tags⟩, rfl⟩, by simp⟩

theorem plainParam_recipe {config : Configuration} {kind : ResourceKind}
    {parameters : Configuration → List Param} (h : (recipe kind).parameters? = some parameters) :
    ∀ p ∈ parameters config, PlainParam p := by
  cases kind with
  | virtualNetwork =>
    obtain rfl := Option.some.inj h
    simp only [List.forall_mem_cons]
    exact ⟨⟨⟨line_lit rfl, rfl, rfl⟩, rfl⟩, ⟨⟨line_lit rfl, rfl, rfl⟩, rfl⟩,
      plainParam_switch (line_lit rfl) _ _, plainParam_switch (line_lit rfl) _ _, by simp⟩
  | storageAccount =>
    obtain rfl := Option.some.inj h
    simp only [List.forall_mem_cons]
    exact ⟨plainParam_choice (line_lit rfl) _ _ _, plainParam_choice (line_lit rfl) _ _ _,
      plainParam_choice (line_lit rfl) _ _ _, plainParam_switch (line_lit rfl) _ _,
      plainParam_switch (line_lit rfl) _ _, by simp⟩
  | webSite =>
    obtain rfl := Option.some.inj h
    simp only [List.forall_mem_cons]
    exact ⟨⟨⟨line_lit rfl, rfl, rfl⟩, rfl⟩, ⟨⟨line_lit rfl, rfl, rfl⟩, rfl⟩,
      ⟨⟨line_lit rfl, rfl, rfl⟩, rfl⟩, plainParam_switch (line_lit rfl) _ _,
      plainParam_choice (line_lit rfl) _ _ _, by simp⟩
  | virtualMachine =>
    obtain rfl := Option.some.inj h
    have image : (Value.object (imageReference config.osType)).isFlat = true ∧
        (Value.object (imageReference config.osType)).comments = [] := by
      cases config.osType <;> exact ⟨rfl, rfl⟩
    simp only [List.forall_mem_cons]
    exact ⟨plainParam_choice (line_lit rfl) _ _ _, ⟨⟨line_lit rfl, rfl, rfl⟩, rfl⟩,
      ⟨⟨line_lit rfl, rfl, rfl⟩, rfl⟩, plainParam_choice (line_lit rfl) _ _ _,
      plainParam_choice (line_lit rfl) _ _ _, ⟨⟨line_lit rfl, rfl, rfl⟩, rfl⟩,
      plainParam_switch (line_lit rfl) _ _, ⟨⟨line_lit rfl, rfl, image.1⟩, image.2⟩, by simp⟩
  | nestedDeployment => cases h
  | generic => cases h

/-! ### Derived parameters -/

/-- Decorators that are flat, with the texts that they write as they are. -/
structure PlainDecorators (ds : List Decorator) (texts : List String) : Prop where
  flat : ds.all Decorator.isFlat = true
  unescaped : ds.flatMap Decorator.unescaped = texts

theorem PlainDecorators.append {ds es : List Decorator} {texts more : List String}
    (hd : PlainDecorators ds texts) (he : PlainDecorators es more) :
    PlainDecorators (ds ++ es) (texts ++ more) where
  flat := by rw [List.all_append, hd.flat, he.flat]; rfl
  unescaped := by rw [List.flatMap_append, hd.unescaped, he.unescaped]

theorem PlainDecorators.optional {α : Type} (x : Option α) {f : α → Decorator}
    (h : ∀ a, (f a).isFlat = true ∧ (f a).unescaped = []) :
    PlainDecorators (x.map f).toList [] := by
  cases x with
  | none => exact ⟨rfl, rfl⟩
  | some a => exact ⟨by simp [(h a).1], by simp [(h a).2]⟩

def patternNotes (schema : Json) : List String :=
  ((schema.string? "pattern").map fun p => "Pattern validation: " ++ p).toList

theorem plainDecorators_decorators (name : String) (schema : Json) :
    PlainDecorators (decorators name schema) (patternNotes schema) := by
  have description : PlainDecorators
      [.description ((schema.string? "description").getD ("Parameter for " ++ name))] [] :=
    ⟨rfl, rfl⟩
  have choices : PlainDecorators ((schema.array? "enum").map fun choices =>
      Decorator.allowed (choices.map Value.ofJson)).toList [] := by
    refine .optional _ fun choices => ?_
    have items := plain_ofItems choices
    rwa [ofItems_eq_map] at items
  have pattern : PlainDecorators ((schema.string? "pattern").map fun p =>
      Decorator.note ("Pattern validation: " ++ p)).toList (patternNotes schema) := by
    unfold patternNotes
    cases schema.string? "pattern" with
    | none => exact ⟨rfl, rfl⟩
    | some p => exact ⟨rfl, rfl⟩
  have secret : PlainDecorators (if isSensitive name then [.secure] else []) [] := by
    split_ifs <;> exact ⟨rfl, rfl⟩
  have minLength : PlainDecorators
      (((schema.get? "minLength").bind natural?).map .minLength).toList [] :=
    .optional _ fun _ => ⟨rfl, rfl⟩
  have maxLength : PlainDecorators
      (((schema.get? "maxLength").bind natural?).map .maxLength).toList [] :=
    .optional _ fun _ => ⟨rfl, rfl⟩
  have minValue : PlainDecorators ((bound? .up "minimum" schema).map .minValue).toList [] :=
    .optional _ fun _ => ⟨rfl, rfl⟩
  have maxValue : PlainDecorators ((bound? .down "maximum" schema).map .maxValue).toList [] :=
    .optional _ fun _ => ⟨rfl, rfl⟩
  have all := ((((((description.append minLength).append maxLength).append minValue).append
    maxValue).append choices).append pattern).append secret
  rw [List.append_nil] at all
  exact all

/-- A derived parameter writes the note about its pattern as it is, and nothing else. -/
theorem plain_parameterOfSchema {name : String} (h : isLine name = true) (schema : Json) :
    (parameterOfSchema name schema).Flat ∧
      (parameterOfSchema name schema).unescaped = patternNotes schema := by
  have plain := plainDecorators_decorators name schema
  cases hd : schema.get? "default" with
  | none =>
    refine ⟨⟨h, plain.flat, by simp [parameterOfSchema, hd]⟩, ?_⟩
    simpa [Param.unescaped, parameterOfSchema, hd] using plain.unescaped
  | some v =>
    have value := plain_ofJson v
    refine ⟨⟨h, plain.flat, by simp [parameterOfSchema, hd, value.1]⟩, ?_⟩
    simpa [Param.unescaped, parameterOfSchema, hd, value.2] using plain.unescaped

section Parameters

variable (registry : Registry) (config : Configuration) (schema : ResourceSchema) (type : String)

theorem isLine_of_isIdentifier {s : String} (h : Value.isIdentifier s = true) : isLine s = true :=
  isLine_of_isClean (isClean_of_isIdentifier h)

theorem flat_ownParameters : ∀ p ∈ ownParameters registry config schema type, p.Flat := by
  intro p hp
  unfold ownParameters at hp
  split at hp
  · rename_i own
    exact (plainParam_recipe own p hp).flat
  · obtain ⟨⟨name, property⟩, mem, rfl⟩ := List.mem_map.mp hp
    exact (plain_parameterOfSchema
      (isLine_of_isIdentifier (isIdentifier_of_mem_derivedProperties mem)) property).1

/-- The notes about patterns are all that the parameters write as it is. -/
theorem unescaped_ownParameters :
    (ownParameters registry config schema type).flatMap Param.unescaped =
      (generatedPatterns registry config schema type).map fun p => "Pattern validation: " ++ p := by
  unfold ownParameters
  split
  · rename_i own
    have none : derivedProperties registry config schema type = [] := by
      rw [derivedProperties, own]
    rw [generatedPatterns, none]
    exact List.flatMap_eq_nil_iff.mpr fun p hp => (plainParam_recipe own p hp).unescaped
  · rw [generatedPatterns, List.map_filterMap, List.filterMap_eq_flatMap_toList, List.flatMap_map]
    refine List.flatMap_congr fun p mem => ?_
    exact (plain_parameterOfSchema
      (isLine_of_isIdentifier (isIdentifier_of_mem_derivedProperties mem)) p.2).2

end Parameters

/-! ## Variables and outputs -/

theorem flat_baseVariables (type : String) (located : Bool) :
    ∀ v ∈ baseVariables type located, v.Flat := by
  have name : Variable.Flat
      ⟨"resourceNameFormatted", .expr "toLower(replace(resourceName, ' ', '-'))"⟩ :=
    ⟨line_lit rfl, line_lit rfl⟩
  cases located with
  | false =>
    simp only [baseVariables, Bool.false_eq_true, if_false, List.append_nil, List.forall_mem_cons]
    exact ⟨name, by simp⟩
  | true =>
    simp only [baseVariables, if_true, List.cons_append, List.nil_append, List.forall_mem_cons]
    exact ⟨name, ⟨line_lit rfl, rfl⟩, by simp⟩

theorem flat_recipeVars (kind : ResourceKind) : ∀ v ∈ (recipe kind).vars, v.Flat := by
  intro v hv
  have tame := tameVariable_recipe kind v hv
  exact ⟨isLine_of_isIdentifier tame.name, isFlat_of_tame _ tame.value⟩

theorem comments_vars (type : String) (located : Bool) (kind : ResourceKind) :
    (baseVariables type located ++ (recipe kind).vars).flatMap (·.value.comments) = [] := by
  cases located <;> cases kind <;> rfl

theorem solid_lit {cs : List Char} (h : endsSolid cs = true) :
    endsSolid (String.ofList cs).toList = true := by
  rwa [String.toList_ofList]

/-- An output of members behind a symbol. -/
theorem flat_path {name symbol path : String} {type : Ty} {description? : Option String}
    (hn : isLine name = true) (hs : isLine symbol = true) (hp : isLine path = true)
    (solid : endsSolid path.toList = true) :
    Output.Flat { name, type, value := .expr (symbol ++ path), description? } where
  name := hn
  value := isLine_append hs hp
  solid := by
    rw [Value.chars_expr, String.toList_append]
    exact endsSolid_append solid _

theorem endsSolid_interp (text : String) : endsSolid ((Value.interp text).chars 0) = true :=
  endsSolid_append (by decide) _

theorem flat_baseOutputs {symbol : String} (h : isLine symbol = true) (located : Bool) :
    ∀ o ∈ baseOutputs symbol located, o.Flat := by
  cases located with
  | false =>
    simp only [baseOutputs, Bool.false_eq_true, if_false, List.append_nil, List.forall_mem_cons]
    exact ⟨flat_path (line_lit rfl) h (line_lit rfl) (solid_lit rfl),
      flat_path (line_lit rfl) h (line_lit rfl) (solid_lit rfl), by simp⟩
  | true =>
    simp only [baseOutputs, if_true, List.cons_append, List.nil_append, List.forall_mem_cons]
    exact ⟨flat_path (line_lit rfl) h (line_lit rfl) (solid_lit rfl),
      flat_path (line_lit rfl) h (line_lit rfl) (solid_lit rfl),
      flat_path (line_lit rfl) h (line_lit rfl) (solid_lit rfl), by simp⟩

theorem flat_recipeOutputs {symbol : String} (h : isLine symbol = true) (kind : ResourceKind) :
    ∀ o ∈ (recipe kind).outputs symbol, o.Flat := by
  cases kind with
  | virtualNetwork =>
    simp only [recipe, virtualNetworkRecipe, List.forall_mem_cons]
    refine ⟨flat_path (line_lit rfl) h (line_lit rfl) (solid_lit rfl),
      ⟨line_lit rfl, ?_, endsSolid_append (by decide) _⟩, by simp⟩
    have source := isLine_append h (line_lit rfl : isLine ".properties.subnets" = true)
    rw [Value.isFlat, source, Bool.and_true]
    exact Bool.and_eq_true_iff.mpr ⟨line_lit rfl, by decide⟩
  | storageAccount =>
    simp only [recipe, storageAccountRecipe, List.forall_mem_cons]
    exact ⟨flat_path (line_lit rfl) h (line_lit rfl) (solid_lit rfl),
      flat_path (line_lit rfl) h (line_lit rfl) (solid_lit rfl),
      ⟨line_lit rfl, rfl, endsSolid_interp _⟩, by simp⟩
  | webSite =>
    simp only [recipe, webSiteRecipe, List.forall_mem_cons]
    exact ⟨flat_path (line_lit rfl) h (line_lit rfl) (solid_lit rfl),
      flat_path (line_lit rfl) h (line_lit rfl) (solid_lit rfl),
      ⟨line_lit rfl, rfl, endsSolid_interp _⟩, by simp⟩
  | virtualMachine =>
    have interface : isLine (networkInterfaceSymbol symbol) = true :=
      isLine_append h (line_lit rfl)
    simp only [recipe, virtualMachineRecipe, List.forall_mem_cons]
    exact ⟨flat_path (line_lit rfl) interface (line_lit rfl) (solid_lit rfl),
      flat_path (line_lit rfl) interface (line_lit rfl) (solid_lit rfl),
      flat_path (line_lit rfl) h (line_lit rfl) (solid_lit rfl),
      ⟨line_lit rfl, line_lit rfl, solid_lit rfl⟩,
      flat_path (line_lit rfl) h (line_lit rfl) (solid_lit rfl), by simp⟩
  | nestedDeployment | generic => simp [recipe]

theorem comments_outputs (symbol : String) (located : Bool) (kind : ResourceKind) :
    (baseOutputs symbol located ++ (recipe kind).outputs symbol).flatMap (·.value.comments) =
      [] := by
  cases located <;> cases kind <;> rfl

/-! ## Declarations -/

theorem isTidy_resourceSymbol (type : String) : isTidy (resourceSymbol type) = true := by
  have word : ∀ c ∈ (resourceSymbol type).toList, continuesName c = true :=
    fun c hc => Bool.or_eq_true_iff.mpr (.inl (isAlphanum_resourceSymbol type c hc))
  rw [isTidy, Bool.and_eq_true, decide_eq_true_eq]
  exact ⟨isSolid_of_ordinary
      (List.all_eq_true.mpr fun c hc => isOrdinary_of_continuesName (word c hc)),
    Balanced.of_notMem fun c hc => notMem_signs_of_continuesName (word c hc)⟩

/-- The comments that stand for settings that nothing is known of go on behind the type. -/
def openComment (type : String) : String :=
  "Refer to Azure documentation for " ++ type ++ " properties"

/-- Whether the settings of a resource stay open: its kind has no recipe for them, and no parameters
were derived from settings. -/
def staysOpen (kind : ResourceKind) (derived : DerivedParameters) : Bool :=
  (recipe kind).settings?.isNone && !(derived.nested && !derived.params.isEmpty)

theorem comments_bindings (params : List Param) : Value.commentsOfBody (bindings params) = [] := by
  induction params with
  | nil => rfl
  | cons p params ih => exact ih

theorem flat_bindings {params : List Param} (h : ∀ p ∈ params, isLine p.name = true) :
    Value.isFlatBody (bindings params) = true := by
  induction params with
  | nil => rfl
  | cons p params ih =>
    rw [List.forall_mem_cons] at h
    exact Bool.and_eq_true_iff.mpr ⟨h.1, ih h.2⟩

theorem comments_recipe {symbol : String} {config : Configuration} {kind : ResourceKind}
    {settings : String → Configuration → Body} (h : (recipe kind).settings? = some settings) :
    Value.commentsOfBody (settings symbol config) = [] := by
  cases kind with
  | virtualMachine =>
    obtain rfl := Option.some.inj h
    cases diagnostics : config.includeBootDiagnostics <;>
    · simp only [virtualMachineSettings, diagnostics]
      rfl
  | virtualNetwork | storageAccount | webSite | nestedDeployment =>
    obtain rfl := Option.some.inj h
    rfl
  | generic => cases h

section Declarations

variable {config : Configuration} {info : ResourceTypeInfo} {symbol apiVersion : String}
  {derived : DerivedParameters}

theorem plain_identity (kind : ResourceKind) (located : Bool) :
    Value.isFlatBody (identity (.expr (nameVariable kind)) located) = true ∧
      Value.commentsOfBody (identity (.expr (nameVariable kind)) located) = [] := by
  cases kind <;> cases located <;> exact ⟨rfl, rfl⟩

theorem flat_mainResource (hs : isTidy symbol = true)
    (params : ∀ p ∈ derived.params, isLine p.name = true) :
    (Declaration.resource (mainResource config info symbol apiVersion derived)).Flat where
  symbol := Value.isLine_of_isTidy hs
  body := by
    refine Value.isFlatBody_append (plain_identity info.kind info.supportsLocationAndTags).1 ?_
    cases own : (recipe info.kind).settings? with
    | some settings => exact isFlatBody_of_tame _ (tameBody_recipe hs own)
    | none =>
      have bound := flat_bindings params
      show Value.isFlatBody (genericSettings info.name derived) = true
      unfold genericSettings
      split_ifs
      · exact Bool.and_eq_true_iff.mpr ⟨bound, rfl⟩
      · exact Value.isFlatBody_append bound rfl

/-- The comments in a main resource are those for settings that stay open. -/
theorem comments_mainResource :
    Value.commentsOfBody (mainResource config info symbol apiVersion derived).body =
      if staysOpen info.kind derived then
        ["Configure properties based on your requirements", openComment info.name] else [] := by
  have front := (plain_identity info.kind info.supportsLocationAndTags).2
  rw [mainResource, Value.commentsOfBody_append, front, List.nil_append, staysOpen]
  cases own : (recipe info.kind).settings? with
  | some settings => exact comments_recipe own
  | none =>
    show Value.commentsOfBody (genericSettings info.name derived) = _
    unfold genericSettings
    by_cases bound : derived.nested ∧ !derived.params.isEmpty
    · have closed : (derived.nested && !derived.params.isEmpty) = true := by simpa using bound
      rw [if_pos bound, closed]
      exact (List.append_nil _).trans (comments_bindings derived.params)
    · have stays : (derived.nested && !derived.params.isEmpty) = false := by
        rwa [Bool.eq_false_iff, ne_eq, Bool.and_eq_true]
      rw [if_neg bound, stays, Value.commentsOfBody_append, comments_bindings]
      rfl

theorem plain_networkInterface (hs : isLine symbol = true) (located : Bool) :
    (Declaration.resource (networkInterface symbol apiVersion located)).Flat ∧
      Value.commentsOfBody (networkInterface symbol apiVersion located).body = [] := by
  have name : isLine (networkInterfaceSymbol symbol) = true := isLine_append hs (line_lit rfl)
  cases located <;> exact ⟨⟨name, rfl⟩, rfl⟩

end Declarations

/-! ## Documents -/

section Documents

variable (registry : Registry) (now : Instant) (config : Configuration) (schema : ResourceSchema)
  (type : String)

/-- The texts from a schema, its type and the registry that a generated document writes as they are:
the type in the header, the patterns in notes, the types of the declared resources with their
versions, and the type again where the settings of the main resource stay open. -/
def unescapedTexts : List String :=
  ["Resource Type: " ++ type] ++
    (generatedPatterns registry config schema type).map (fun p => "Pattern validation: " ++ p) ++
    (generateForType registry now config schema type).resources.map Resource.typeReference ++
    let info := registry.lookup type config.targetScope
    if staysOpen info.kind (derivedOf registry config schema type) then [openComment info.name]
    else []

def mainOf : Resource :=
  mainResource config (registry.lookup type config.targetScope) (resourceSymbol type)
    (registry.selectApiVersion schema type) (derivedOf registry config schema type)

theorem isLine_resourceSymbol : isLine (resourceSymbol type) = true :=
  Value.isLine_of_isTidy (isTidy_resourceSymbol type)

/-- A resource declared ahead of the main one is a network interface of its machine. -/
theorem exists_networkInterface {r : Resource} (h : r ∈ auxiliaryResources registry
    (registry.lookup type config.targetScope) (resourceSymbol type)) :
    ∃ version located, r = networkInterface (resourceSymbol type) version located := by
  obtain ⟨aux, -, made⟩ := List.mem_filterMap.mp h
  split_ifs at made
  exact ⟨_, _, (Option.some.inj made).symm⟩

theorem flat_generateForType : (generateForType registry now config schema type).Flat where
  metadata := by
    simp only [generateForType, List.forall_mem_cons]
    exact ⟨line_lit rfl, line_lit rfl, line_lit rfl, by simp⟩
  parameters := by
    rw [parameters_generateForType, List.forall_mem_append]
    exact ⟨fun p hp => (plainParam_baseParameters _ config p hp).flat,
      flat_ownParameters registry config schema type⟩
  vars := List.forall_mem_append.mpr ⟨flat_baseVariables type _, flat_recipeVars _⟩
  declarations := by
    rw [declarations_generateForType, List.forall_mem_append]
    constructor
    · rw [List.forall_mem_map]
      intro r hr
      obtain ⟨version, located, rfl⟩ := exists_networkInterface registry config type hr
      exact (plain_networkInterface (isLine_resourceSymbol type) located).1
    · rw [List.forall_mem_singleton]
      refine flat_mainResource (isTidy_resourceSymbol type) fun p hp => ?_
      exact (flat_ownParameters registry config schema type p
        (params_derivedOf_subset registry config schema type hp)).name
  outputs := by
    intro o ho
    simp only [generateForType] at ho
    split_ifs at ho
    · rcases List.mem_append.mp ho with ho | ho
      · exact flat_baseOutputs (isLine_resourceSymbol type) _ o ho
      · exact flat_recipeOutputs (isLine_resourceSymbol type) _ o ho
    · cases ho
  declares := by
    rw [declarations_generateForType]
    simp

theorem unescaped_parameters :
    (generateForType registry now config schema type).parameters.flatMap Param.unescaped =
      (generatedPatterns registry config schema type).map fun p => "Pattern validation: " ++ p := by
  have base : (baseParameters (registry.lookup type config.targetScope).supportsLocationAndTags
      config).flatMap Param.unescaped = [] :=
    List.flatMap_eq_nil_iff.mpr fun p hp => (plainParam_baseParameters _ config p hp).unescaped
  rw [parameters_generateForType, List.flatMap_append, base, unescaped_ownParameters,
    List.nil_append]

theorem resources_generateForType :
    (generateForType registry now config schema type).resources =
      auxiliaryResources registry (registry.lookup type config.targetScope) (resourceSymbol type) ++
        [mainOf registry config schema type] := by
  rw [Document.resources, declarations_generateForType, List.filterMap_append, List.filterMap_map]
  show List.filterMap some _ ++ [mainOf registry config schema type] = _
  rw [List.filterMap_some]

/-- Of the texts in declarations, only types with versions and the comment on open settings go on to
further lines. -/
theorem continuationsOf_declarations :
    continuationsOf ((generateForType registry now config schema type).declarations.flatMap
        Declaration.unescaped) =
      continuationsOf
        ((generateForType registry now config schema type).resources.map Resource.typeReference ++
          let info := registry.lookup type config.targetScope
          if staysOpen info.kind (derivedOf registry config schema type) then [openComment info.name]
          else []) := by
  have auxiliary : continuationsOf ((auxiliaryResources registry
        (registry.lookup type config.targetScope) (resourceSymbol type)).flatMap
          fun r => (Declaration.resource r).unescaped) =
      continuationsOf ((auxiliaryResources registry (registry.lookup type config.targetScope)
        (resourceSymbol type)).map Resource.typeReference) := by
    rw [List.map_eq_flatMap]
    refine continuationsOf_congr fun r hr => ?_
    obtain ⟨version, located, rfl⟩ := exists_networkInterface registry config type hr
    rw [Declaration.unescaped,
      (plain_networkInterface (isLine_resourceSymbol type) located).2, List.append_nil]
    exact continuationsOf_cons (line_lit rfl) _
  have main : continuationsOf (Declaration.resource (mainOf registry config schema type)).unescaped =
      continuationsOf ([(mainOf registry config schema type).typeReference] ++
        let info := registry.lookup type config.targetScope
        if staysOpen info.kind (derivedOf registry config schema type) then [openComment info.name]
        else []) := by
    have comment : continuationsOf (mainOf registry config schema type).comment?.toList = [] := by
      refine continuationsOf_of_isLine fun text mem => ?_
      simp only [mainOf, mainResource] at mem
      split_ifs at mem
      · rw [List.mem_singleton.mp mem]
        exact line_lit rfl
      · cases mem
    have first (texts : List String) :
        continuationsOf ("Configure properties based on your requirements" :: texts) =
          continuationsOf texts := continuationsOf_cons (line_lit rfl) texts
    rw [Declaration.unescaped, continuationsOf_append, continuationsOf_append, comment,
      List.nil_append, continuationsOf_append, mainOf, comments_mainResource]
    dsimp only
    split_ifs
    · rw [first]
    · rfl
  rw [declarations_generateForType, resources_generateForType, List.flatMap_append,
    List.flatMap_map, List.map_append, List.append_assoc, continuationsOf_append,
    continuationsOf_append, auxiliary, List.map_singleton, ← main, List.flatMap_singleton]
  rfl

theorem continuationsOf_generateForType :
    continuationsOf (generateForType registry now config schema type).unescapedTexts =
      continuationsOf (unescapedTexts registry now config schema type) := by
  have stamp : isLine ("Generated on: " ++ now.timestamp) = true :=
    isLine_append (line_lit rfl) (isLine_timestamp now)
  have header : continuationsOf (generateForType registry now config schema type).header =
      continuationsOf ["Resource Type: " ++ type] := by
    have behind := continuationsOf_of_isLine (List.forall_mem_singleton.mpr stamp)
    show continuationsOf (_ :: (["Resource Type: " ++ type] ++ ["Generated on: " ++ now.timestamp]))
      = _
    rw [continuationsOf_cons (line_lit rfl), continuationsOf_append, behind, List.append_nil]
  have vars : (generateForType registry now config schema type).vars.flatMap (·.value.comments) =
      [] := comments_vars type _ _
  have outputs : (generateForType registry now config schema type).outputs.flatMap
      (·.value.comments) = [] := by
    simp only [generateForType]
    split_ifs
    · exact comments_outputs _ _ _
    · rfl
  have notes : (generateForType registry now config schema type).titledNotes = [] := rfl
  rw [Document.unescapedTexts, notes, vars, outputs, unescaped_parameters, unescapedTexts]
  simp only [continuationsOf_append, List.append_nil, header,
    continuationsOf_declarations, List.append_assoc]

/-- The lines of a document that begin with a keyword are counted: as many as its declarations, and
those of the given texts behind their first lines. So there are as many as declarations exactly if no
such line begins with a keyword. -/
structure LinesCounted (d : Document) (texts : List String) : Prop where
  count : ∀ kind : SectionKind, kind.begun (Text.splitOn '\n' d.text.toList) =
    d.declared kind + kind.begun (continuationsOf texts)
  exact : (∀ kind : SectionKind, kind.begun (Text.splitOn '\n' d.text.toList) = d.declared kind) ↔
    ∀ kind : SectionKind, ∀ text ∈ texts, ∀ line ∈ continuations text.toList,
      kind.keyword.toList.isPrefixOf line = false

theorem linesCounted_generateForType :
    LinesCounted (generateForType registry now config schema type)
      (unescapedTexts registry now config schema type) := by
  have count (kind : SectionKind) :
      kind.begun (Text.splitOn '\n'
          (generateForType registry now config schema type).text.toList) =
        (generateForType registry now config schema type).declared kind +
          kind.begun (continuationsOf (unescapedTexts registry now config schema type)) := by
    rw [← continuationsOf_generateForType]
    exact begun_text (flat_generateForType registry now config schema type) kind
  refine ⟨count, forall_congr' fun kind => ?_⟩
  rw [count, Nat.add_eq_left, SectionKind.begun, List.countP_eq_zero]
  simp only [continuationsOf, List.mem_flatMap, forall_exists_index, and_imp, Bool.not_eq_true]
  exact ⟨fun h text mem line hl => h line text mem hl, fun h line text mem hl => h text mem line hl⟩

/-- Whatever a schema, its type, the configuration and the registry hold, the lines of a generated
document that begin with a keyword are its declarations, and lines of those few texts that are
written as they are. -/
theorem generate_lines :
    LinesCounted (generate registry now config schema)
        (unescapedTexts registry now config schema
          (schema.resourceType?.getD nestedDeploymentType)) ∧
      ∀ type, LinesCounted (generateForType registry now config schema type)
        (unescapedTexts registry now config schema type) :=
  ⟨linesCounted_generateForType .., fun _ => linesCounted_generateForType ..⟩

/-- The pattern of a property is written as it is behind the slashes of a note. With a line feed in it
a document has one parameter more in its text than it declares. -/
theorem pattern_declares :
    let schema : ResourceSchema := ⟨.obj [("properties", .obj
      [("type", .obj [("const", .str "Acme/gears")]),
       ("teeth", .obj
        [("type", .str "string"), ("pattern", .str "x\nparam ghost string")])])]⟩
    SectionKind.parameters.begun
        (Text.splitOn '\n' (generate .azure ⟨0⟩ {} schema).text.toList) =
      (generate .azure ⟨0⟩ {} schema).parameters.length + 1 := by
  intro schema
  have counted := linesCounted_generateForType .azure ⟨0⟩ {} schema
    (schema.resourceType?.getD nestedDeploymentType)
  have ghost : SectionKind.parameters.begun (continuationsOf (unescapedTexts .azure ⟨0⟩ {} schema
      (schema.resourceType?.getD nestedDeploymentType))) = 1 := by decide +kernel
  rw [← ghost]
  exact counted.count .parameters

end Documents

end BicepForge.Generation
