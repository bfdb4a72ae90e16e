import BicepForge.Generation.Generator
import BicepForge.Proofs.Check.Documents

/-!
# Recipes write tame declarations

What a recipe writes of its own accord is checked once and for all, kind of resource by kind; what
comes from a configuration or a schema is tame if the strings in it are clean. For values of a
schema that is an induction on the value.
-/

namespace BicepForge.Check

open Bicep Generation

/-! ## The strings that reach a declaration -/

mutual
/-- The strings and object keys of a JSON value. -/
def textsOf : Json → List String
  | .str s => [s]
  | .arr items => textsOfItems items
  | .obj entries => textsOfEntries entries
  | .null | .bool _ | .num _ => []
def textsOfItems : List Json → List String
  | [] => []
  | v :: vs => textsOf v ++ textsOfItems vs
/-- The keys of object entries, and the strings in their values. -/
def textsOfEntries : List (String × Json) → List String
  | [] => []
  | (k, v) :: es => k :: textsOf v ++ textsOfEntries es
end

/-- The strings of a property schema that reach the parameter derived from it, its pattern apart.
The name of the parameter is an identifier in any case. -/
def propertyTexts (schema : Json) : List String :=
  (schema.string? "description").toList ++
    ((schema.array? "enum").getD []).flatMap textsOf ++
    ((schema.get? "default").map textsOf).getD []

/-- The settings that a recipe writes as they are. -/
def recipeTexts (config : Configuration) : ResourceKind → List String
  | .virtualNetwork => [config.vnetAddressSpace, config.subnetAddressSpace]
  | .virtualMachine => [config.vmSize, config.adminUsername]
  | _ => []

/-! ## Literals from JSON -/

theorem opensQuietly_ofJson (v : Json) : opensQuietly (Value.ofJson v) = true := by
  cases v with
  | num n =>
    cases n with
    | int i =>
      rw [Value.ofJson, Value.ofNumber]
      by_cases h : Value.inIntRange i = true
      · rw [if_pos h]; rfl
      · rw [if_neg h]; exact opensQuietly_text (.int i)
    | float x => exact opensQuietly_text (.float x)
  | _ => rfl

theorem opensQuietly_ofItems (vs : List Json) : (Value.ofItems vs).all opensQuietly = true := by
  induction vs with
  | nil => rfl
  | cons v vs ih => rw [Value.ofItems, List.all_cons, opensQuietly_ofJson, ih]; rfl

mutual
/-- A literal is tame if the strings and keys in it are clean. -/
theorem tame_ofJson : ∀ v : Json, (∀ s ∈ textsOf v, isClean s = true) →
    tame (Value.ofJson v) = true
  | .null, _ => rfl
  | .bool _, _ => rfl
  | .num (.int i), _ => by
    rw [Value.ofJson, Value.ofNumber]
    by_cases h : Value.inIntRange i = true
    · rw [if_pos h]; rfl
    · rw [if_neg h]; exact isTidy_text (.int i)
  | .num (.float x), _ => isTidy_text (.float x)
  | .str s, h => h s (by simp [textsOf])
  | .arr items, h => by
    have each := tameItems_ofItems items fun s hs => h s (by rwa [textsOf])
    rw [Value.ofJson, tame, each, opensQuietly_ofItems, Bool.or_true]
    rfl
  | .obj entries, h => by
    rw [Value.ofJson, tame]
    exact tameBody_ofEntries entries fun s hs => h s (by rwa [textsOf])
theorem tameItems_ofItems : ∀ vs : List Json, (∀ s ∈ textsOfItems vs, isClean s = true) →
    tameItems (Value.ofItems vs) = true
  | [], _ => rfl
  | v :: vs, h => by
    have first := tame_ofJson v fun s hs => h s (by simp [textsOfItems, hs])
    have rest := tameItems_ofItems vs fun s hs => h s (by simp [textsOfItems, hs])
    rw [Value.ofItems, tameItems, first, rest]
    rfl
theorem tameBody_ofEntries : ∀ es : List (String × Json),
    (∀ s ∈ textsOfEntries es, isClean s = true) → tameBody (Value.ofEntries es) = true
  | [], _ => rfl
  | (k, v) :: es, h => by
    have key := h k (by simp [textsOfEntries])
    have value := tame_ofJson v fun s hs => h s (by simp [textsOfEntries, hs])
    have rest := tameBody_ofEntries es fun s hs => h s (by simp [textsOfEntries, hs])
    rw [Value.ofEntries, tameBody, tameEntry, key, value, rest]
    rfl
end

/-! ## Parameters -/

theorem isClean_of_isIdentifier {s : String} (h : Value.isIdentifier s = true) :
    isClean s = true := by
  obtain ⟨c, cs, hs, -, run⟩ := Value.exists_cons_of_isIdentifier h
  rw [isClean, hs, List.all_eq_true]
  intro d hd
  have name : continuesName d = true := run d hd
  have ordinary := isOrdinary_of_continuesName name
  simp only [isOrdinary, Bool.and_eq_true] at ordinary
  simp [isCleanChar, ordinary, notMem_signs_of_continuesName name]

theorem isLine_of_isClean {s : String} (h : isClean s = true) : isLine s = true := by
  rw [isLine, Bool.not_eq_true', List.contains_eq_mem, decide_eq_false_iff_not]
  intro feed
  exact (ne_of_isCleanChar (List.all_eq_true.mp h _ feed)).1 rfl

theorem isLine_append {s t : String} (hs : isLine s = true) (ht : isLine t = true) :
    isLine (s ++ t) = true := by
  simp only [isLine, Bool.not_eq_true', List.contains_eq_mem, decide_eq_false_iff_not,
    String.toList_append, List.mem_append, not_or] at hs ht ⊢
  exact ⟨hs, ht⟩

theorem ofItems_eq_map (vs : List Json) : Value.ofItems vs = vs.map Value.ofJson := by
  induction vs with
  | nil => rfl
  | cons v vs ih => rw [Value.ofItems, ih]; rfl

theorem textsOfItems_eq_flatMap (vs : List Json) : textsOfItems vs = vs.flatMap textsOf := by
  induction vs with
  | nil => rfl
  | cons v vs ih => rw [textsOfItems, ih]; rfl

theorem all_optional {α : Type} (x : Option α) {f : α → Decorator}
    (h : ∀ a, tameDecorator (f a) = true) : ((x.map f).toList).all tameDecorator = true := by
  cases x with
  | none => rfl
  | some a => simpa using h a

/-- The decorators of a derived parameter are tame. -/
theorem tameDecorator_decorators {name : String} {schema : Json}
    (hn : Value.isIdentifier name = true) (clean : ∀ s ∈ propertyTexts schema, isClean s = true)
    (pattern : ∀ p, schema.string? "pattern" = some p → isLine p = true) :
    (decorators name schema).all tameDecorator = true := by
  have description : isClean ((schema.string? "description").getD ("Parameter for " ++ name)) =
      true := by
    cases h : schema.string? "description" with
    | none =>
      have front : isClean "Parameter for " = true := by decide
      rw [Option.getD_none, isClean_append, front, isClean_of_isIdentifier hn]
      rfl
    | some text => exact clean text (by simp [propertyTexts, h])
  have choices : (((schema.array? "enum").map fun choices =>
      Decorator.allowed (choices.map Value.ofJson)).toList).all tameDecorator = true := by
    cases h : schema.array? "enum" with
    | none => rfl
    | some vs =>
      have items := tame_ofJson (.arr vs) fun s hs => clean s (by
        rw [textsOf, textsOfItems_eq_flatMap] at hs
        simp only [propertyTexts, h, Option.getD_some, List.mem_append]
        exact .inl (.inr hs))
      rw [Value.ofJson, ofItems_eq_map] at items
      simpa [tameDecorator] using items
  have patterns : (((schema.string? "pattern").map fun p =>
      Decorator.note ("Pattern validation: " ++ p)).toList).all tameDecorator = true := by
    cases h : schema.string? "pattern" with
    | none => rfl
    | some p =>
      have line : isLine ("Pattern validation: " ++ p) = true :=
        isLine_append (by decide) (pattern p h)
      simpa [tameDecorator] using line
  have secret : (if isSensitive name then [Decorator.secure] else []).all tameDecorator = true := by
    split_ifs <;> rfl
  simp only [decorators, List.all_append, choices, patterns, secret,
    all_optional _ fun _ : Nat => (rfl : tameDecorator (.minLength _) = true),
    all_optional _ fun _ : Nat => (rfl : tameDecorator (.maxLength _) = true),
    all_optional _ fun _ : Int => (rfl : tameDecorator (.minValue _) = true),
    all_optional _ fun _ : Int => (rfl : tameDecorator (.maxValue _) = true)]
  simpa [tameDecorator] using description

theorem tameParam_parameterOfSchema {name : String} {schema : Json}
    (hn : Value.isIdentifier name = true) (clean : ∀ s ∈ propertyTexts schema, isClean s = true)
    (pattern : ∀ p, schema.string? "pattern" = some p → isLine p = true) :
    TameParam (parameterOfSchema name schema) where
  name := hn
  decorators := tameDecorator_decorators hn clean pattern
  default := by
    cases h : schema.get? "default" with
    | none => simp [parameterOfSchema, h]
    | some v =>
      have value := tame_ofJson v fun s hs => clean s (by simp [propertyTexts, h, hs])
      simpa [parameterOfSchema, h] using value

theorem tame_texts {texts : List String} (h : ∀ s ∈ texts, isClean s = true) :
    tame (.array (texts.map .str)) = true := by
  have items : tameItems (texts.map .str) = true := by
    induction texts with
    | nil => rfl
    | cons s texts ih =>
      rw [List.map_cons, tameItems, tame, h s (by simp),
        ih fun t ht => h t (List.mem_cons_of_mem _ ht)]
      rfl
  have scalars : (texts.map Value.str).all Value.isScalar = true := by
    simp [Value.isScalar]
  rw [tame, items, scalars]
  rfl

theorem tameParam_choice {name description default : String} {choices : List String}
    (hn : Value.isIdentifier name = true) (hd : isClean description = true)
    (hc : ∀ s ∈ choices, isClean s = true) (clean : isClean default = true) :
    TameParam (choice name description choices default) where
  name := hn
  decorators := by
    have allowed := tame_texts hc
    simp [choice, Param.describe, Param.allow, Param.decorate, Param.withDefault, tameDecorator,
      hd, allowed]
  default := clean

theorem tameParam_switch {name description : String} {default : Bool}
    (hn : Value.isIdentifier name = true) (hd : isClean description = true) :
    TameParam (switch name description default) :=
  ⟨hn, by simpa [switch, Param.describe, Param.decorate, Param.withDefault, tameDecorator] using hd,
    rfl⟩

theorem tameParam_described {name description : String} {type : Ty} {default : Option Value}
    (hn : Value.isIdentifier name = true) (hd : isClean description = true)
    (hv : default.all tame = true) :
    TameParam { name, type, decorators := [.description description], default? := default } :=
  ⟨hn, by simpa [tameDecorator] using hd, hv⟩

/-! ## What the recipes write -/

/-- A hole is closed where it is opened. -/
theorem isTidyInterp_hole {e : String} (h : isTidyInterp e = true) :
    isTidyInterp (hole e) = true := by
  simp only [isTidyInterp, hole, Bool.and_eq_true, decide_eq_true_eq, String.toList_append,
    List.all_append] at h ⊢
  refine ⟨⟨⟨by decide, h.1⟩, by decide⟩, ?_⟩
  have dollar : Balanced ['$'] := by decide
  have opening : "$\x7b".toList = ['$', '\x7b'] := by decide
  have closing : "\x7d".toList = ['\x7d'] := by decide
  rw [opening, closing]
  exact dollar.append (h.2.enclose (.inl ⟨rfl, rfl⟩))

section Recipes

/- What a text is known to be is all that the recipes are asked for. -/
attribute [local irreducible] isClean isTidy isTidyInterp Value.isIdentifier

theorem isClean_defaultEnvironment (config : Configuration) :
    isClean (defaultEnvironment config) = true := by
  have known : ∀ s ∈ environments, isClean s = true := by
    simp only [environments, List.forall_mem_cons]
    exact ⟨clean_lit rfl, clean_lit rfl, clean_lit rfl, clean_lit rfl, by simp⟩
  rw [defaultEnvironment]
  split_ifs with h
  · exact known _ h
  · exact clean_lit rfl

theorem tameParam_baseParameters {located : Bool} {config : Configuration}
    (clean : located = true →
      ∀ s ∈ (Configuration.worded? config.location?).toList, isClean s = true) :
    ∀ p ∈ baseParameters located config, TameParam p := by
  have name : TameParam
      { name := "resourceName", type := .string
        decorators := [.description "The name of the resource", .minLength 1, .maxLength 80] } := by
    refine TameParam.of (name_lit rfl) ?_ rfl
    simp only [List.all_cons, List.all_nil, tameDecorator, Bool.and_true]
    exact clean_lit rfl
  have environment : TameParam (choice "environment" "Environment name (e.g., dev, test, prod)"
      environments (defaultEnvironment config)) := by
    refine tameParam_choice (name_lit rfl) (clean_lit rfl) ?_ (isClean_defaultEnvironment config)
    simp only [environments, List.forall_mem_cons]
    exact ⟨clean_lit rfl, clean_lit rfl, clean_lit rfl, clean_lit rfl, by simp⟩
  cases located with
  | false =>
    simp only [baseParameters, Bool.false_eq_true, if_false, List.append_nil, List.cons_append,
      List.nil_append, List.forall_mem_cons]
    exact ⟨name, environment, by simp⟩
  | true =>
    have location : tame (defaultLocation config) = true := by
      rw [defaultLocation]
      cases h : Configuration.worded? config.location? with
      | none => exact tidy_lit rfl
      | some text => exact clean rfl text (by simp [h])
    simp only [baseParameters, if_true, List.cons_append, List.nil_append, List.forall_mem_cons]
    refine ⟨name, tameParam_described (name_lit rfl) (clean_lit rfl) location, environment,
      tameParam_described (name_lit rfl) (clean_lit rfl) ?_, by simp⟩
    simp only [Option.all_some, tame, tameBody, tameEntry, Entry.ref, Entry.lit, generatorName,
      Bool.and_eq_true]
    exact ⟨⟨clean_lit rfl, tidy_lit rfl⟩, ⟨clean_lit rfl, clean_lit rfl⟩,
      ⟨clean_lit rfl, tidy_lit rfl⟩, trivial⟩

theorem tameVariable_baseVariables {type : String} (clean : isClean type = true) (located : Bool) :
    ∀ v ∈ baseVariables type located, TameVariable v := by
  have name : TameVariable
      ⟨"resourceNameFormatted", .expr "toLower(replace(resourceName, ' ', '-'))"⟩ :=
    TameVariable.of (name_lit rfl) (tidy_lit rfl)
  cases located with
  | false =>
    simp only [baseVariables, Bool.false_eq_true, if_false, List.append_nil, List.forall_mem_cons]
    exact ⟨name, by simp⟩
  | true =>
    simp only [baseVariables, if_true, List.cons_append, List.nil_append, List.forall_mem_cons]
    refine ⟨name, TameVariable.of (name_lit rfl) ?_, by simp⟩
    simp only [tame, tameItems, tameBody, tameEntry, Entry.lit, generatorName, Bool.and_eq_true]
    exact ⟨tidy_lit rfl, tidy_lit rfl, ⟨⟨clean_lit rfl, clean⟩, ⟨clean_lit rfl, clean_lit rfl⟩,
      trivial⟩, trivial⟩

/-- A path of members behind a symbol. -/
theorem tame_path {symbol path : String} (hs : isTidy symbol = true) (hp : isTidy path = true) :
    tame (.expr (symbol ++ path)) = true :=
  isTidy_append hs hp

theorem tameOutput_path {symbol path name description : String} {type : Ty}
    (hs : isTidy symbol = true) (hn : Value.isIdentifier name = true) (hp : isTidy path = true)
    (hd : isClean description = true) :
    TameOutput { name, type, value := .expr (symbol ++ path), description? := some description } :=
  TameOutput.of hn (tame_path hs hp) hd

theorem tameOutput_baseOutputs {symbol : String} (hs : isTidy symbol = true) (located : Bool) :
    ∀ o ∈ baseOutputs symbol located, TameOutput o := by
  cases located with
  | false =>
    simp only [baseOutputs, Bool.false_eq_true, if_false, List.append_nil, List.forall_mem_cons]
    exact ⟨tameOutput_path hs (name_lit rfl) (tidy_lit rfl) (clean_lit rfl),
      tameOutput_path hs (name_lit rfl) (tidy_lit rfl) (clean_lit rfl), by simp⟩
  | true =>
    simp only [baseOutputs, if_true, List.cons_append, List.nil_append, List.forall_mem_cons]
    exact ⟨tameOutput_path hs (name_lit rfl) (tidy_lit rfl) (clean_lit rfl),
      tameOutput_path hs (name_lit rfl) (tidy_lit rfl) (clean_lit rfl),
      tameOutput_path hs (name_lit rfl) (tidy_lit rfl) (clean_lit rfl), by simp⟩

/-! ### Virtual networks -/

theorem tameParam_virtualNetwork {config : Configuration}
    (vnet : isClean config.vnetAddressSpace = true)
    (subnet : isClean config.subnetAddressSpace = true) {parameters : Configuration → List Param}
    (h : virtualNetworkRecipe.parameters? = some parameters) :
    ∀ p ∈ parameters config, TameParam p := by
  obtain rfl := Option.some.inj h
  simp only [List.forall_mem_cons]
  refine ⟨tameParam_described (name_lit rfl) (clean_lit rfl) ?_,
    tameParam_described (name_lit rfl) (clean_lit rfl) ?_,
    tameParam_switch (name_lit rfl) (clean_lit rfl),
    tameParam_switch (name_lit rfl) (clean_lit rfl), by simp⟩
  · exact tame_texts (by simpa using vnet)
  · simp only [Option.all_some, tame, tameItems, tameBody, tameEntry, Entry.lit, List.all_cons,
      List.all_nil, opensQuietly, Bool.and_eq_true, Bool.and_true, Bool.or_true]
    and_intros <;> first | exact subnet | exact clean_lit rfl

theorem tameVariable_virtualNetwork : ∀ v ∈ virtualNetworkRecipe.vars, TameVariable v := by
  simp only [virtualNetworkRecipe, List.forall_mem_cons]
  refine ⟨TameVariable.of (name_lit rfl) ?_, by simp⟩
  have id {e : String} (h : isTidy e = true) : tame (optionalId e) = true := by
    simp only [optionalId, tame, tameBody, tameEntry, Entry.ref, Bool.and_eq_true]
    exact ⟨⟨isTidy_append h (tidy_lit rfl), ⟨clean_lit rfl, h⟩, trivial⟩, trivial⟩
  have group := id (tidy_lit rfl : isTidy "subnet.networkSecurityGroup" = true)
  have table := id (tidy_lit rfl : isTidy "subnet.routeTable" = true)
  simp only [tame, tameBody, tameEntry, Entry.ref, Entry.nest, group, table, Bool.and_eq_true]
  and_intros <;> first | exact clean_lit rfl | exact tidy_lit rfl | trivial

theorem tameBody_virtualNetwork {symbol : String} {config : Configuration}
    {settings : String → Configuration → Body}
    (h : virtualNetworkRecipe.settings? = some settings) :
    tameBody (settings symbol config) = true := by
  obtain rfl := Option.some.inj h
  simp only [tame, tameBody, tameEntry, Entry.ref, Entry.nest, Bool.and_eq_true]
  and_intros <;> first | exact clean_lit rfl | exact tidy_lit rfl | trivial

theorem tameOutput_virtualNetwork {symbol : String} (hs : isTidy symbol = true) :
    ∀ o ∈ virtualNetworkRecipe.outputs symbol, TameOutput o := by
  simp only [virtualNetworkRecipe, List.forall_mem_cons]
  refine ⟨tameOutput_path hs (name_lit rfl) (tidy_lit rfl) (clean_lit rfl),
    TameOutput.of (name_lit rfl) ?_ (clean_lit rfl),
    by simp⟩
  simp only [tame, tameBody, tameEntry, Entry.ref, Bool.and_eq_true]
  and_intros <;> first
    | exact clean_lit rfl
    | exact tidy_lit rfl
    | exact isTidy_append hs (tidy_lit rfl)
    | trivial

/-! ### Storage accounts -/

theorem tameParam_storageAccount {config : Configuration} {parameters : Configuration → List Param}
    (h : storageAccountRecipe.parameters? = some parameters) :
    ∀ p ∈ parameters config, TameParam p := by
  obtain rfl := Option.some.inj h
  simp only [List.forall_mem_cons]
  refine ⟨tameParam_choice (name_lit rfl) (clean_lit rfl) ?_ (clean_lit rfl),
    tameParam_choice (name_lit rfl) (clean_lit rfl) ?_ (clean_lit rfl),
    tameParam_choice (name_lit rfl) (clean_lit rfl) ?_ (clean_lit rfl),
    tameParam_switch (name_lit rfl) (clean_lit rfl),
    tameParam_switch (name_lit rfl) (clean_lit rfl), by simp⟩ <;>
  · simp only [List.forall_mem_cons]
    and_intros <;> first | exact clean_lit rfl | simp

theorem tameVariable_storageAccount : ∀ v ∈ storageAccountRecipe.vars, TameVariable v := by
  simp only [storageAccountRecipe, List.forall_mem_cons]
  refine ⟨TameVariable.of (name_lit rfl) (tidy_lit rfl), TameVariable.of (name_lit rfl) ?_, by simp⟩
  simp only [tame, tameBody, tameEntry, Entry.lit, Bool.and_eq_true]
  and_intros <;> first | exact clean_lit rfl | trivial

theorem tameBody_storageAccount {symbol : String} {config : Configuration}
    {settings : String → Configuration → Body}
    (h : storageAccountRecipe.settings? = some settings) :
    tameBody (settings symbol config) = true := by
  obtain rfl := Option.some.inj h
  have encrypted : tameBody encryptedService = true := by
    simp only [encryptedService, tame, tameBody, tameEntry, Entry.lit, Entry.flag,
      Bool.and_eq_true]
    and_intros <;> first | exact clean_lit rfl | trivial
  simp only [tame, tameBody, tameEntry, Entry.ref, Entry.lit, Entry.nest, encrypted,
    Bool.and_eq_true]
  and_intros <;> first | exact clean_lit rfl | exact tidy_lit rfl | trivial

/-- A path of members in a hole. -/
theorem isTidyInterp_path {symbol path : String} (hs : isTidyInterp symbol = true)
    (hp : isTidyInterp path = true) : isTidyInterp (hole (symbol ++ path)) = true :=
  isTidyInterp_hole (isTidyInterp_append hs hp)

theorem tameOutput_storageAccount {symbol : String} (hs : isTidy symbol = true)
    (hi : isTidyInterp symbol = true) :
    ∀ o ∈ storageAccountRecipe.outputs symbol, TameOutput o := by
  simp only [storageAccountRecipe, List.forall_mem_cons]
  refine ⟨tameOutput_path hs (name_lit rfl) (tidy_lit rfl) (clean_lit rfl),
    tameOutput_path hs (name_lit rfl) (tidy_lit rfl) (clean_lit rfl),
    TameOutput.of (name_lit rfl) ?_ (clean_lit rfl), by simp⟩
  exact isTidyInterp_append (isTidyInterp_append (isTidyInterp_append
    (isTidyInterp_append (interp_lit rfl) (isTidyInterp_path hi (interp_lit rfl))) (interp_lit rfl))
    (isTidyInterp_path hi (interp_lit rfl))) (interp_lit rfl)

/-! ### Web sites -/

theorem tameParam_webSite {config : Configuration} {parameters : Configuration → List Param}
    (h : webSiteRecipe.parameters? = some parameters) : ∀ p ∈ parameters config, TameParam p := by
  obtain rfl := Option.some.inj h
  simp only [List.forall_mem_cons]
  refine ⟨tameParam_described (name_lit rfl) (clean_lit rfl) rfl,
    tameParam_described (name_lit rfl) (clean_lit rfl) rfl,
    tameParam_described (name_lit rfl) (clean_lit rfl) rfl,
    tameParam_switch (name_lit rfl) (clean_lit rfl),
    tameParam_choice (name_lit rfl) (clean_lit rfl) ?_ (clean_lit rfl), by simp⟩
  simp only [List.forall_mem_cons]
  exact ⟨clean_lit rfl, clean_lit rfl, clean_lit rfl, clean_lit rfl, clean_lit rfl, by simp⟩

theorem tameVariable_webSite : ∀ v ∈ webSiteRecipe.vars, TameVariable v := by
  simp only [webSiteRecipe, List.forall_mem_cons]
  refine ⟨TameVariable.of (name_lit rfl) ?_, TameVariable.of (name_lit rfl) ?_, by simp⟩ <;>
  · simp only [tame, tameBody, tameEntry, Entry.ref, Bool.and_eq_true]
    and_intros <;> first | exact clean_lit rfl | exact tidy_lit rfl | trivial

theorem tameBody_webSite {symbol : String} {config : Configuration}
    {settings : String → Configuration → Body} (h : webSiteRecipe.settings? = some settings) :
    tameBody (settings symbol config) = true := by
  obtain rfl := Option.some.inj h
  simp only [tame, tameItems, tameBody, tameEntry, Entry.ref, Entry.lit, Entry.nest, List.all_cons,
    List.all_nil, opensQuietly, Bool.and_eq_true, Bool.and_true, Bool.or_true]
  and_intros <;> first | exact clean_lit rfl | exact tidy_lit rfl

theorem tameOutput_webSite {symbol : String} (hs : isTidy symbol = true)
    (hi : isTidyInterp symbol = true) : ∀ o ∈ webSiteRecipe.outputs symbol, TameOutput o := by
  simp only [webSiteRecipe, List.forall_mem_cons]
  refine ⟨tameOutput_path hs (name_lit rfl) (tidy_lit rfl) (clean_lit rfl),
    tameOutput_path hs (name_lit rfl) (tidy_lit rfl) (clean_lit rfl),
    TameOutput.of (name_lit rfl) ?_ (clean_lit rfl), by simp⟩
  exact isTidyInterp_append (interp_lit rfl) (isTidyInterp_path hi (interp_lit rfl))

/-! ### Virtual machines -/

theorem tameParam_virtualMachine {config : Configuration} (size : isClean config.vmSize = true)
    (admin : isClean config.adminUsername = true) {parameters : Configuration → List Param}
    (h : virtualMachineRecipe.parameters? = some parameters) :
    ∀ p ∈ parameters config, TameParam p := by
  obtain rfl := Option.some.inj h
  have os : isClean config.osType.name = true := by
    cases config.osType <;> exact clean_lit rfl
  have image : tame (.object (imageReference config.osType)) = true := by
    cases config.osType <;>
    · simp only [imageReference, tame, tameBody, tameEntry, Entry.lit, Bool.and_eq_true]
      and_intros <;> first | exact clean_lit rfl | trivial
  simp only [List.forall_mem_cons]
  refine ⟨tameParam_choice (name_lit rfl) (clean_lit rfl) ?_ size,
    TameParam.of (name_lit rfl) ?_ admin,
    TameParam.of (name_lit rfl) ?_ rfl, tameParam_choice (name_lit rfl) (clean_lit rfl) ?_ os,
    tameParam_choice (name_lit rfl) (clean_lit rfl) ?_ (clean_lit rfl),
    tameParam_described (name_lit rfl) (clean_lit rfl) rfl,
    tameParam_switch (name_lit rfl) (clean_lit rfl),
    tameParam_described (name_lit rfl) (clean_lit rfl) image, by simp⟩ <;>
  · simp only [List.forall_mem_cons, List.all_cons, List.all_nil, tameDecorator, Bool.and_eq_true]
    and_intros <;> first | exact clean_lit rfl | trivial

theorem tameBody_virtualMachine {symbol : String} (hs : isTidy symbol = true)
    {config : Configuration} {settings : String → Configuration → Body}
    (h : virtualMachineRecipe.settings? = some settings) :
    tameBody (settings symbol config) = true := by
  obtain rfl := Option.some.inj h
  have id : isTidy (networkInterfaceSymbol symbol ++ ".id") = true :=
    isTidy_append (isTidy_append hs (tidy_lit rfl)) (tidy_lit rfl)
  have os (os : OsType) : isTidy ("osType == '" ++ os.name ++ "'") = true := by
    cases os <;> decide +kernel
  have disk : isTidyInterp (hole "resourceNameFormatted" ++ "-osdisk") = true :=
    isTidyInterp_append (isTidyInterp_hole (interp_lit rfl)) (interp_lit rfl)
  simp only [virtualMachineSettings, Body.onlyIf, settingsFor, Entry.nest, Entry.ref, Entry.lit,
    Entry.flag, tame, tameItems, tameBody, tameEntry, id, os, disk, List.all_cons, List.all_nil,
    opensQuietly, List.cons_append, List.nil_append, Bool.and_eq_true, Bool.and_true, Bool.or_true]
  and_intros
  any_goals first | exact clean_lit rfl | exact tidy_lit rfl | trivial
  split_ifs
  · simp only [tame, tameBody, tameEntry, Bool.and_eq_true]
    and_intros <;> first | exact clean_lit rfl | trivial
  · rfl

theorem tameOutput_virtualMachine {symbol : String} (hs : isTidy symbol = true) :
    ∀ o ∈ virtualMachineRecipe.outputs symbol, TameOutput o := by
  have interface : isTidy (networkInterfaceSymbol symbol) = true := isTidy_append hs (tidy_lit rfl)
  simp only [virtualMachineRecipe, List.forall_mem_cons]
  exact ⟨tameOutput_path interface (name_lit rfl) (tidy_lit rfl) (clean_lit rfl),
    tameOutput_path interface (name_lit rfl) (tidy_lit rfl) (clean_lit rfl),
    tameOutput_path hs (name_lit rfl) (tidy_lit rfl) (clean_lit rfl),
    TameOutput.of (name_lit rfl) (tidy_lit rfl) (clean_lit rfl),
    tameOutput_path hs (name_lit rfl) (tidy_lit rfl) (clean_lit rfl), by simp⟩

/-! ### All kinds -/

theorem tameParam_recipe {config : Configuration} {kind : ResourceKind}
    (clean : ∀ s ∈ recipeTexts config kind, isClean s = true)
    {parameters : Configuration → List Param} (h : (recipe kind).parameters? = some parameters) :
    ∀ p ∈ parameters config, TameParam p := by
  cases kind with
  | virtualNetwork =>
    exact tameParam_virtualNetwork (clean _ (by simp [recipeTexts]))
      (clean _ (by simp [recipeTexts])) h
  | storageAccount => exact tameParam_storageAccount h
  | webSite => exact tameParam_webSite h
  | virtualMachine =>
    exact tameParam_virtualMachine (clean _ (by simp [recipeTexts]))
      (clean _ (by simp [recipeTexts])) h
  | nestedDeployment => cases h
  | generic => cases h

theorem tameVariable_recipe (kind : ResourceKind) : ∀ v ∈ (recipe kind).vars, TameVariable v := by
  cases kind with
  | virtualNetwork => exact tameVariable_virtualNetwork
  | storageAccount => exact tameVariable_storageAccount
  | webSite => exact tameVariable_webSite
  | virtualMachine => simp [recipe, virtualMachineRecipe]
  | nestedDeployment => simp [recipe]
  | generic => simp [recipe]

theorem tameBody_recipe {symbol : String} (hs : isTidy symbol = true) {config : Configuration}
    {kind : ResourceKind} {settings : String → Configuration → Body}
    (h : (recipe kind).settings? = some settings) : tameBody (settings symbol config) = true := by
  cases kind with
  | virtualNetwork => exact tameBody_virtualNetwork h
  | storageAccount => exact tameBody_storageAccount h
  | webSite => exact tameBody_webSite h
  | virtualMachine => exact tameBody_virtualMachine hs h
  | nestedDeployment =>
    obtain rfl := Option.some.inj h
    simp only [nestedDeploymentSettings, templateSchemaUri, tame, tameItems, tameBody, tameEntry,
      Entry.nest, Entry.lit, Bool.and_eq_true]
    and_intros <;> first | exact clean_lit rfl | trivial
  | generic => cases h

theorem tameOutput_recipe {symbol : String} (hs : isTidy symbol = true)
    (hi : isTidyInterp symbol = true) (kind : ResourceKind) :
    ∀ o ∈ (recipe kind).outputs symbol, TameOutput o := by
  cases kind with
  | virtualNetwork => exact tameOutput_virtualNetwork hs
  | storageAccount => exact tameOutput_storageAccount hs hi
  | webSite => exact tameOutput_webSite hs hi
  | virtualMachine => exact tameOutput_virtualMachine hs
  | nestedDeployment => simp [recipe]
  | generic => simp [recipe]

/-! ### The resources -/

theorem tameBody_append (xs ys : Body) :
    tameBody (xs ++ ys) = (tameBody xs && tameBody ys) := by
  induction xs with
  | nil => simp [tameBody]
  | cons e xs ih => simp [tameBody, ih, Bool.and_assoc]

theorem tameBody_identity {name : Value} (hn : tame name = true) (located : Bool) :
    tameBody (identity name located) = true := by
  cases located with
  | false =>
    simp only [identity, Body.onlyIf, Bool.false_eq_true, if_false, tameBody, tameEntry, hn,
      Bool.and_true]
    exact clean_lit rfl
  | true =>
    simp only [identity, Body.onlyIf, if_true, Entry.ref, tame, tameBody, tameEntry, hn,
      Bool.and_true, Bool.and_eq_true]
    and_intros <;> first | exact clean_lit rfl | exact tidy_lit rfl

theorem tameResource_networkInterface {symbol version : String}
    (hs : Value.isIdentifier (networkInterfaceSymbol symbol) = true)
    (hv : isClean version = true) (located : Bool) :
    TameResource (networkInterface symbol version located) where
  symbol := hs
  type := clean_lit rfl
  apiVersion := hv
  comment := rfl
  body := by
    have name : tame (.interp (hole "resourceNameFormatted" ++ "-nic")) = true :=
      isTidyInterp_append (isTidyInterp_hole (interp_lit rfl)) (interp_lit rfl)
    simp only [networkInterface, tameBody_append, tameBody_identity name, tame, tameItems, tameBody,
      tameEntry, Entry.nest, Entry.ref, Entry.lit, List.all_cons, List.all_nil, opensQuietly,
      Bool.and_eq_true, Bool.and_true, Bool.or_true, Bool.true_and]
    and_intros <;> first | exact clean_lit rfl | exact tidy_lit rfl

end Recipes

end BicepForge.Check
