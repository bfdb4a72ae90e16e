import BicepForge.Proofs.Bicep.DocumentPieces
import BicepForge.Proofs.Generation.Lines
import BicepForge.Proofs.References.Declared

/-!
# The open pieces of a generated document

Which holes a generated document opens: those of the templates that its recipe brings, those in the
types of its resources, which are written as they are, and those in the object keys of the choices
and defaults that a schema gives. No string of a schema or a configuration opens one.
-/

namespace BicepForge.Generation

open Bicep Bicep.Piece References

theorem opening_of_line {text : String} (h : Check.isLine text = true) :
    (Piece.comment text).opening = [] :=
  opening_comment (by simpa [Check.isLine] using h)

/-! ## Literals -/

/-- The pieces of those object keys that open a hole. -/
def openKeys (keys : List String) : List Piece :=
  keys.flatMap fun k => (Piece.key k).opening

theorem origins_openKeys (keys : List String) : Origins (openKeys keys) (keys.map .key) [] :=
  .map keys fun _ _ => Piece.noConfusion

theorem openKeys_append (xs ys : List String) : openKeys (xs ++ ys) = openKeys xs ++ openKeys ys :=
  List.flatMap_append

theorem openings_ofNumber (n : Number) : (Value.ofNumber n).openings = [] := by
  have text : (Value.expr n.text).openings = [] :=
    Piece.opening_code (Value.dollar_notMem_text n)
  cases n with
  | int i =>
    rw [Value.ofNumber]
    split
    · rfl
    · exact text
  | float x => exact text

mutual
/-- A literal opens the holes of its keys, and no others. -/
theorem openings_ofJson : ∀ v : Json, (Value.ofJson v).openings = openKeys (keysOf v)
  | .null | .bool _ | .str _ => rfl
  | .num n => openings_ofNumber n
  | .arr items => by
    rw [Value.ofJson, Value.openings, openings_ofItems, keysOf]
  | .obj entries => by
    rw [Value.ofJson, Value.openings, openings_ofEntries, keysOf]
theorem openings_ofItems : ∀ vs : List Json,
    Value.openingsOfItems (Value.ofItems vs) = openKeys (keysOfItems vs)
  | [] => rfl
  | v :: vs => by
    rw [Value.ofItems, Value.openingsOfItems, openings_ofJson, openings_ofItems, keysOfItems,
      openKeys_append]
theorem openings_ofEntries : ∀ es : List (String × Json),
    Value.openingsOfBody (Value.ofEntries es) = openKeys (keysOfEntries es)
  | [] => rfl
  | (k, v) :: es => by
    rw [Value.ofEntries, Value.openingsOfBody, Value.openingsOfEntry, openings_ofJson,
      openings_ofEntries, keysOfEntries, openKeys_append]
    rfl
end

theorem openings_strings (texts : List String) :
    Value.openingsOfItems (texts.map .str) = [] := by
  induction texts with
  | nil => rfl
  | cons s texts ih => exact ih

/-! ## Parameters -/

theorem openings_param {name : String} {type : Ty} {decorators : List Decorator}
    {default? : Option Value} (hn : '$' ∉ name.toList)
    (hd : decorators.flatMap Decorator.openings = [])
    (hv : (default?.map Value.openings).getD [] = []) :
    Param.openings { name, type, decorators, default? } = [] := by
  rw [Param.openings, hd, hv, Piece.opening_code hn]
  rfl

theorem openings_choice {name : String} (h : '$' ∉ name.toList) (description : String)
    (choices : List String) (default : String) :
    (choice name description choices default).openings = [] := by
  refine openings_param h ?_ rfl
  show [] ++ (Value.openingsOfItems (choices.map .str) ++ []) = []
  rw [openings_strings]
  rfl

theorem openings_switch {name : String} (h : '$' ∉ name.toList) (description : String)
    (default : Bool) : (switch name description default).openings = [] :=
  openings_param h rfl rfl

theorem openings_defaultLocation (config : Configuration) :
    (defaultLocation config).openings = [] := by
  unfold defaultLocation
  split <;> rfl

theorem openings_baseParameters (located : Bool) (config : Configuration) :
    ∀ p ∈ baseParameters located config, p.openings = [] := by
  have name : Param.openings { name := "resourceName", type := .string, decorators :=
      [.description "The name of the resource", .minLength 1, .maxLength 80] } = [] :=
    openings_param (dollar_lit rfl) rfl rfl
  have environment : (choice "environment" "Environment name (e.g., dev, test, prod)"
      environments (defaultEnvironment config)).openings = [] :=
    openings_choice (dollar_lit rfl) _ _ _
  cases located with
  | false =>
    simp only [baseParameters, Bool.false_eq_true, if_false, List.append_nil, List.cons_append,
      List.nil_append, List.forall_mem_cons]
    exact ⟨name, environment, by simp⟩
  | true =>
    have location := openings_defaultLocation config
    simp only [baseParameters, if_true, List.cons_append, List.nil_append, List.forall_mem_cons]
    exact ⟨name, openings_param (dollar_lit rfl) rfl location, environment,
      openings_param (dollar_lit rfl) rfl rfl, by simp⟩

theorem openings_recipeParameters {config : Configuration} {kind : ResourceKind}
    {parameters : Configuration → List Param} (h : (recipe kind).parameters? = some parameters) :
    ∀ p ∈ parameters config, p.openings = [] := by
  cases kind with
  | virtualNetwork =>
    obtain rfl := Option.some.inj h
    simp only [List.forall_mem_cons]
    exact ⟨openings_param (dollar_lit rfl) rfl rfl, openings_param (dollar_lit rfl) rfl rfl,
      openings_switch (dollar_lit rfl) _ _, openings_switch (dollar_lit rfl) _ _, by simp⟩
  | storageAccount =>
    obtain rfl := Option.some.inj h
    simp only [List.forall_mem_cons]
    exact ⟨openings_choice (dollar_lit rfl) _ _ _, openings_choice (dollar_lit rfl) _ _ _,
      openings_choice (dollar_lit rfl) _ _ _, openings_switch (dollar_lit rfl) _ _,
      openings_switch (dollar_lit rfl) _ _, by simp⟩
  | webSite =>
    obtain rfl := Option.some.inj h
    simp only [List.forall_mem_cons]
    exact ⟨openings_param (dollar_lit rfl) rfl rfl, openings_param (dollar_lit rfl) rfl rfl,
      openings_param (dollar_lit rfl) rfl rfl, openings_switch (dollar_lit rfl) _ _,
      openings_choice (dollar_lit rfl) _ _ _, by simp⟩
  | virtualMachine =>
    obtain rfl := Option.some.inj h
    have image : (Value.object (imageReference config.osType)).openings = [] := by
      cases config.osType <;> rfl
    simp only [List.forall_mem_cons]
    exact ⟨openings_choice (dollar_lit rfl) _ _ _, openings_param (dollar_lit rfl) rfl rfl,
      openings_param (dollar_lit rfl) rfl rfl, openings_choice (dollar_lit rfl) _ _ _,
      openings_choice (dollar_lit rfl) _ _ _, openings_param (dollar_lit rfl) rfl rfl,
      openings_switch (dollar_lit rfl) _ _, openings_param (dollar_lit rfl) rfl image, by simp⟩
  | nestedDeployment => cases h
  | generic => cases h

/-- The open pieces of what a property gives to a parameter: the keys in its choices, the note about
its pattern, and the keys in its default. -/
def propertyOpenings (schema : Json) : List Piece :=
  openKeys (keysOfItems ((schema.array? "enum").getD [])) ++
    (patternNotes schema).flatMap (fun text => (Piece.comment text).opening) ++
    openKeys (((schema.get? "default").map keysOf).getD [])

/-- What a property gives to a parameter besides string values: keys, and the note about its pattern. -/
def propertyPieces (schema : Json) : List Piece :=
  (keysOfItems ((schema.array? "enum").getD [])).map .key ++
    (patternNotes schema).map .comment ++
    (((schema.get? "default").map keysOf).getD []).map .key

theorem origins_propertyOpenings (schema : Json) :
    Origins (propertyOpenings schema) (propertyPieces schema) [] :=
  ((origins_openKeys _).append (.map (patternNotes schema) fun _ _ => Piece.noConfusion)).append
    (origins_openKeys _)

theorem openings_parameterOfSchema {name : String} (hn : '$' ∉ name.toList) (schema : Json) :
    (parameterOfSchema name schema).openings = propertyOpenings schema := by
  have quiet {α : Type} (x : Option α) {f : α → Decorator} (h : ∀ a, (f a).openings = []) :
      ((x.map f).toList).flatMap Decorator.openings = [] := by
    cases x with
    | none => rfl
    | some a => exact (List.append_nil _).trans (h a)
  have secret : (if isSensitive name then [Decorator.secure] else []).flatMap
      Decorator.openings = [] := by
    split <;> rfl
  have choices : (((schema.array? "enum").map fun choices =>
      Decorator.allowed (choices.map Value.ofJson)).toList).flatMap Decorator.openings =
      openKeys (keysOfItems ((schema.array? "enum").getD [])) := by
    cases schema.array? "enum" with
    | none => rfl
    | some vs =>
      rw [Option.getD_some, ← openings_ofItems, Check.ofItems_eq_map]
      exact List.append_nil _
  have default : (((schema.get? "default").map Value.ofJson).map Value.openings).getD [] =
      openKeys (((schema.get? "default").map keysOf).getD []) := by
    cases schema.get? "default" with
    | none => rfl
    | some v => exact openings_ofJson v
  have pattern : ((schema.string? "pattern").map fun p =>
      Decorator.note ("Pattern validation: " ++ p)).toList.flatMap Decorator.openings =
      (patternNotes schema).flatMap fun text => (Piece.comment text).opening := by
    unfold patternNotes
    cases schema.string? "pattern" <;> rfl
  have decorated : (decorators name schema).flatMap Decorator.openings =
      openKeys (keysOfItems ((schema.array? "enum").getD [])) ++
        (patternNotes schema).flatMap fun text => (Piece.comment text).opening := by
    have described (text : String) : [Decorator.description text].flatMap Decorator.openings = [] :=
      rfl
    simp only [decorators, List.flatMap_append, described, choices, pattern, secret,
      quiet _ fun _ : Nat => (rfl : (Decorator.minLength _).openings = []),
      quiet _ fun _ : Nat => (rfl : (Decorator.maxLength _).openings = []),
      quiet _ fun _ : Int => (rfl : (Decorator.minValue _).openings = []),
      quiet _ fun _ : Int => (rfl : (Decorator.maxValue _).openings = []), List.nil_append,
      List.append_nil]
  rw [Param.openings, parameterOfSchema, decorated, default, Piece.opening_code hn,
    List.append_nil, propertyOpenings]

/-! ## Variables -/

theorem openings_var {name : String} {value : Value} (hn : '$' ∉ name.toList)
    (hv : value.openings = []) : Variable.openings ⟨name, value⟩ = [] := by
  rw [Variable.openings, hv, Piece.opening_code hn]
  rfl

theorem openings_baseVariables (type : String) (located : Bool) :
    ∀ v ∈ baseVariables type located, v.openings = [] := by
  have name : Variable.openings ⟨"resourceNameFormatted",
      .expr "toLower(replace(resourceName, ' ', '-'))"⟩ = [] :=
    openings_var (dollar_lit rfl) (Piece.opening_code (dollar_lit rfl))
  cases located with
  | false =>
    simp only [baseVariables, Bool.false_eq_true, if_false, List.append_nil, List.forall_mem_cons]
    exact ⟨name, by simp⟩
  | true =>
    simp only [baseVariables, if_true, List.cons_append, List.nil_append, List.forall_mem_cons]
    exact ⟨name, openings_var (dollar_lit rfl) rfl, by simp⟩

theorem openings_recipeVars (kind : ResourceKind) : ∀ v ∈ (recipe kind).vars, v.openings = [] := by
  cases kind with
  | virtualNetwork =>
    simp only [recipe, virtualNetworkRecipe, List.forall_mem_cons]
    exact ⟨openings_var (dollar_lit rfl) rfl, by simp⟩
  | storageAccount =>
    simp only [recipe, storageAccountRecipe, List.forall_mem_cons]
    exact ⟨openings_var (dollar_lit rfl) (Piece.opening_code (dollar_lit rfl)), openings_var (dollar_lit rfl) rfl,
      by simp⟩
  | webSite =>
    simp only [recipe, webSiteRecipe, List.forall_mem_cons]
    exact ⟨openings_var (dollar_lit rfl) rfl, openings_var (dollar_lit rfl) rfl, by simp⟩
  | virtualMachine | nestedDeployment | generic =>
    intro v hv
    cases hv

/-! ## Resources -/

theorem openingsOfBody_append (xs ys : Body) :
    Value.openingsOfBody (xs ++ ys) = Value.openingsOfBody xs ++ Value.openingsOfBody ys := by
  induction xs with
  | nil => rfl
  | cons e xs ih =>
    rw [List.cons_append, Value.openingsOfBody, ih, Value.openingsOfBody, List.append_assoc]

theorem openings_nest {key : String} (hk : '$' ∉ key.toList) (body : Body) :
    Value.openingsOfBody [.nest key body] = Value.openingsOfBody body := by
  show (Piece.key key).opening ++ Value.openingsOfBody body ++ [] = _
  rw [Piece.opening_key hk, List.append_nil, List.nil_append]

/-- Properties that are bound to names open no holes. -/
theorem openings_refs {α : Type} {items : List α} {key name : α → String}
    (h : ∀ x ∈ items, '$' ∉ (key x).toList ∧ '$' ∉ (name x).toList) :
    Value.openingsOfBody (items.map fun x => .ref (key x) (name x)) = [] := by
  induction items with
  | nil => rfl
  | cons x items ih =>
    obtain ⟨first, others⟩ := List.forall_mem_cons.mp h
    rw [List.map_cons, Value.openingsOfBody, Entry.ref, Value.openingsOfEntry, Value.openings,
      Piece.opening_key first.1, Piece.opening_code first.2, ih others]
    rfl

/-- A declared symbol with a path of members opens no hole. -/
theorem openings_path {symbol path : String} (hs : '$' ∉ symbol.toList)
    (hp : '$' ∉ path.toList) : (Value.expr (symbol ++ path)).openings = [] :=
  opening_code (dollar_append hs hp)

theorem dollar_notMem_resourceSymbol (type : String) : '$' ∉ (resourceSymbol type).toList :=
  fun mem => absurd (isAlphanum_resourceSymbol type _ mem) (by decide)

theorem dollar_notMem_networkInterfaceSymbol {symbol : String} (hs : '$' ∉ symbol.toList) :
    '$' ∉ (networkInterfaceSymbol symbol).toList :=
  dollar_append hs (dollar_lit rfl)

def settingsTemplates : ResourceKind → List String
  | .virtualMachine => [hole "resourceNameFormatted" ++ "-osdisk"]
  | _ => []

theorem openings_virtualMachineSettings {symbol : String} (hs : '$' ∉ symbol.toList)
    (config : Configuration) :
    Value.openingsOfBody (virtualMachineSettings symbol config) =
      (settingsTemplates .virtualMachine).map .template := by
  have interface : (Piece.code (networkInterfaceSymbol symbol ++ ".id").toList).opening = [] :=
    openings_path (dollar_notMem_networkInterfaceSymbol hs) (dollar_lit rfl)
  have diagnostics : Value.openingsOfBody (Body.onlyIf config.includeBootDiagnostics
      [.nest "diagnosticsProfile" [.nest "bootDiagnostics" [.flag "enabled" true]]]) = [] := by
    cases config.includeBootDiagnostics <;> rfl
  rw [virtualMachineSettings, openingsOfBody_append, diagnostics]
  simp only [Value.openingsOfBody, Value.openingsOfEntry, Value.openings, Value.openingsOfItems,
    Entry.nest, Entry.ref, interface]
  rfl

/-- The settings that a recipe brings open their own templates. -/
theorem openings_recipeSettings {symbol : String} (hs : '$' ∉ symbol.toList)
    (config : Configuration) {kind : ResourceKind} {settings : String → Configuration → Body}
    (h : (recipe kind).settings? = some settings) :
    Value.openingsOfBody (settings symbol config) = (settingsTemplates kind).map .template := by
  cases kind with
  | virtualNetwork | storageAccount | webSite | nestedDeployment =>
    obtain rfl := Option.some.inj h
    rfl
  | virtualMachine =>
    obtain rfl := Option.some.inj h
    rw [openings_nest (dollar_lit rfl)]
    exact openings_virtualMachineSettings hs config
  | generic => cases h

theorem openings_identity {name : Value} (located : Bool) :
    Value.openingsOfBody (identity name located) = name.openings := by
  cases located with
  | false => exact List.append_nil _
  | true => exact List.append_nil _

/-- The name of a network interface. -/
def interfaceTemplate : String :=
  hole "resourceNameFormatted" ++ "-nic"

theorem openings_networkInterface (symbol apiVersion : String) (located : Bool) :
    Value.openingsOfBody (networkInterface symbol apiVersion located).body =
      [.template interfaceTemplate] := by
  rw [networkInterface, openingsOfBody_append, openings_identity, openings_nest (dollar_lit rfl)]
  rfl

/-- Only settings from a recipe have templates. -/
theorem settingsTemplates_of_none {kind : ResourceKind} (h : (recipe kind).settings? = none) :
    settingsTemplates kind = [] := by
  cases kind with
  | virtualMachine => cases h
  | _ => rfl

theorem openings_placeholder (name : String) :
    Value.openingsOfBody (placeholder name) = (Piece.comment (openComment name)).opening := by
  have first : (Piece.comment "Configure properties based on your requirements").opening = [] :=
    Piece.opening_comment (by decide)
  show (Piece.comment "Configure properties based on your requirements").opening ++
    ((Piece.comment (openComment name)).opening ++ []) = _
  rw [first, List.append_nil, List.nil_append]

/-- Bound parameters open nothing, so that only the comment about open settings may. -/
theorem openings_genericSettings {derived : DerivedParameters}
    (params : ∀ p ∈ derived.params, Value.isIdentifier p.name = true) (name : String) :
    Value.openingsOfBody (genericSettings name derived) =
      if !(derived.nested && !derived.params.isEmpty) then
        (Piece.comment (openComment name)).opening
      else [] := by
  have bound : Value.openingsOfBody (bindings derived.params) = [] :=
    openings_refs fun p hp => and_self_iff.mpr (Piece.dollar_notMem_of_isIdentifier (params p hp))
  unfold genericSettings
  split
  · rename_i nested
    rw [openings_nest (by decide), bound, if_neg (by simpa using nested)]
  · rename_i unnested
    rw [← Bool.and_eq_true, Bool.not_eq_true, ← Bool.not_eq_true'] at unnested
    rw [openingsOfBody_append, bound, openings_nest (by decide), openings_placeholder,
      if_pos unnested, List.nil_append]

/-! ## Outputs -/

theorem openings_output {name : String} {type : Ty} {value : Value} {description? : Option String}
    (hn : '$' ∉ name.toList) : Output.openings { name, type, value, description? } =
      value.openings := by
  rw [Output.openings, Piece.opening_code hn]
  rfl

theorem openings_pathOutput {name symbol path : String} {type : Ty} {description? : Option String}
    (hn : '$' ∉ name.toList) (hs : '$' ∉ symbol.toList) (hp : '$' ∉ path.toList) :
    Output.openings { name, type, value := .expr (symbol ++ path), description? } = [] :=
  (openings_output hn).trans (openings_path hs hp)

theorem openings_baseOutputs {symbol : String} (hs : '$' ∉ symbol.toList) (located : Bool) :
    ∀ o ∈ baseOutputs symbol located, o.openings = [] := by
  cases located with
  | false =>
    simp only [baseOutputs, Bool.false_eq_true, if_false, List.append_nil, List.forall_mem_cons]
    exact ⟨openings_pathOutput (dollar_lit rfl) hs (dollar_lit rfl),
      openings_pathOutput (dollar_lit rfl) hs (dollar_lit rfl), by simp⟩
  | true =>
    simp only [baseOutputs, if_true, List.cons_append, List.nil_append, List.forall_mem_cons]
    exact ⟨openings_pathOutput (dollar_lit rfl) hs (dollar_lit rfl),
      openings_pathOutput (dollar_lit rfl) hs (dollar_lit rfl),
      openings_pathOutput (dollar_lit rfl) hs (dollar_lit rfl), by simp⟩

def outputTemplates (symbol : String) : ResourceKind → List String
  | .storageAccount =>
    ["DefaultEndpointsProtocol=https;AccountName=" ++ hole (symbol ++ ".name") ++
      ";AccountKey=" ++ hole (symbol ++ ".listKeys().keys[0].value") ++
      ";EndpointSuffix=core.windows.net"]
  | .webSite => ["https://" ++ hole (symbol ++ ".properties.defaultHostName")]
  | _ => []

/-- A template is open with a hole in it. -/
theorem opening_hole (before expression after : String) :
    (Piece.template (before ++ hole expression ++ after)).opening =
      [.template (before ++ hole expression ++ after)] := by
  have opened : (Piece.template (before ++ hole expression ++ after)).isOpen = true := by
    rw [Piece.isOpen_template, Value.opensHole, Text.occursIn, Text.hasInfix_iff]
    refine ⟨before.toList, expression.toList ++ '\x7d' :: after.toList, ?_⟩
    simp [hole]
  rw [Piece.opening, opened]
  rfl

theorem openings_recipeOutputs {symbol : String} (hs : '$' ∉ symbol.toList) (kind : ResourceKind) :
    ((recipe kind).outputs symbol).flatMap Output.openings =
      (outputTemplates symbol kind).map .template := by
  cases kind with
  | virtualNetwork =>
    have source : (Piece.code (symbol ++ ".properties.subnets").toList).opening = [] :=
      openings_path hs (dollar_lit rfl)
    simp only [recipe, virtualNetworkRecipe, List.flatMap_cons]
    rw [openings_pathOutput (dollar_lit rfl) hs (dollar_lit rfl), openings_output (dollar_lit rfl),
      Value.openings, source]
    rfl
  | storageAccount =>
    simp only [recipe, storageAccountRecipe, List.flatMap_cons]
    rw [openings_pathOutput (dollar_lit rfl) hs (dollar_lit rfl),
      openings_pathOutput (dollar_lit rfl) hs (dollar_lit rfl), openings_output (dollar_lit rfl), Value.openings,
      opening_hole]
    rfl
  | webSite =>
    have url := opening_hole "https://" (symbol ++ ".properties.defaultHostName") ""
    rw [String.append_empty] at url
    simp only [recipe, webSiteRecipe, List.flatMap_cons]
    rw [openings_pathOutput (dollar_lit rfl) hs (dollar_lit rfl),
      openings_pathOutput (dollar_lit rfl) hs (dollar_lit rfl), openings_output (dollar_lit rfl), Value.openings,
      url]
    rfl
  | virtualMachine =>
    have interface := dollar_notMem_networkInterfaceSymbol hs
    refine List.flatMap_eq_nil_iff.mpr ?_
    simp only [recipe, virtualMachineRecipe, List.forall_mem_cons]
    exact ⟨openings_pathOutput (dollar_lit rfl) interface (dollar_lit rfl),
      openings_pathOutput (dollar_lit rfl) interface (dollar_lit rfl),
      openings_pathOutput (dollar_lit rfl) hs (dollar_lit rfl),
      (openings_output (dollar_lit rfl)).trans (Piece.opening_code (dollar_lit rfl)),
      openings_pathOutput (dollar_lit rfl) hs (dollar_lit rfl), by simp⟩
  | nestedDeployment | generic => rfl

section Documents

variable (registry : Registry) (now : Instant) (config : Configuration) (schema : ResourceSchema)
  (type : String)

theorem openings_ownParameters :
    (ownParameters registry config schema type).flatMap Param.openings =
      (derivedProperties registry config schema type).flatMap fun p =>
        propertyOpenings p.2 := by
  unfold ownParameters
  cases own : (recipe (registry.lookup type config.targetScope).kind).parameters? with
  | some parameters =>
    have none : derivedProperties registry config schema type = [] := by
      rw [derivedProperties, own]
    rw [none]
    exact List.flatMap_eq_nil_iff.mpr (openings_recipeParameters own)
  | none =>
    rw [List.flatMap_map]
    refine List.flatMap_congr fun p hp => ?_
    exact openings_parameterOfSchema
      (Piece.dollar_notMem_of_isIdentifier (isIdentifier_of_mem_derivedProperties hp)) p.2

theorem openingsOfBody_mainOf :
    let info := registry.lookup type config.targetScope
    Value.openingsOfBody (mainOf registry config schema type).body =
      (settingsTemplates info.kind).map .template ++
        if staysOpen info.kind (derivedOf registry config schema type) then
          (Piece.comment (openComment info.name)).opening
        else [] := by
  intro info
  have name : (Value.expr (nameVariable info.kind)).openings = [] := by
    cases info.kind <;> rfl
  rw [mainOf, mainResource, openingsOfBody_append, openings_identity, name, List.nil_append]
  cases settings : (recipe info.kind).settings? with
  | some make =>
    rw [staysOpen, settings]
    exact (openings_recipeSettings (dollar_notMem_resourceSymbol type) config settings).trans
      (List.append_nil _).symm
  | none =>
    have params : ∀ p ∈ (derivedOf registry config schema type).params,
        Value.isIdentifier p.name = true := by
      intro p hp
      rw [params_derivedOf] at hp
      obtain ⟨q, hq, rfl⟩ := List.mem_map.mp hp
      exact isIdentifier_of_mem_derivedProperties hq
    rw [settingsTemplates_of_none settings, staysOpen, settings]
    exact openings_genericSettings params info.name

theorem openings_mainResource :
    let info := registry.lookup type config.targetScope
    (Declaration.resource (mainOf registry config schema type)).openings =
      (Piece.reference (info.name ++ "@" ++ registry.selectApiVersion schema type)).opening ++
        (settingsTemplates info.kind).map .template ++
        (if staysOpen info.kind (derivedOf registry config schema type) then
          (Piece.comment (openComment info.name)).opening
        else []) := by
  intro info
  refine (Declaration.openings_of_symbol ?_ ?_).trans ?_
  · exact dollar_notMem_resourceSymbol type
  · intro text mem
    change text ∈ (if info.kind = .virtualMachine then some "Virtual Machine Resource" else none)
      at mem
    split_ifs at mem
    · cases mem
      decide
    · cases mem
  · rw [Declaration.body, openingsOfBody_mainOf, List.append_assoc]
    rfl

theorem openings_auxiliaryResources :
    ((auxiliaryResources registry (registry.lookup type config.targetScope)
      (resourceSymbol type)).map Declaration.resource).flatMap Declaration.openings =
      (auxiliaryResources registry (registry.lookup type config.targetScope)
        (resourceSymbol type)).flatMap
        fun r => (Piece.reference r.typeReference).opening ++ [.template interfaceTemplate] := by
  rw [List.flatMap_map]
  refine List.flatMap_congr fun r hr => ?_
  obtain ⟨version, located, rfl⟩ := exists_networkInterface registry config type hr
  refine (Declaration.openings_of_symbol ?_ ?_).trans ?_
  · exact dollar_notMem_networkInterfaceSymbol (dollar_notMem_resourceSymbol type)
  · intro text mem
    cases mem
    decide
  · rw [Declaration.body, openings_networkInterface]
    rfl

/-- The open pieces of a generated document: a type that goes on behind its comment, the properties of
derived parameters, the types of resources, the templates of the recipe, and the type again where the
settings stay open. -/
def generatedOpenings : List Piece :=
  let info := registry.lookup type config.targetScope
  let symbol := resourceSymbol type
  (Piece.comment ("Resource Type: " ++ type)).opening ++
    (derivedProperties registry config schema type).flatMap (fun p => propertyOpenings p.2) ++
    (auxiliaryResources registry info symbol).flatMap
      (fun r => (Piece.reference r.typeReference).opening ++ [.template interfaceTemplate]) ++
    (Piece.reference (info.name ++ "@" ++ registry.selectApiVersion schema type)).opening ++
    (settingsTemplates info.kind).map .template ++
    (if staysOpen info.kind (derivedOf registry config schema type) then
      (Piece.comment (openComment info.name)).opening
    else []) ++
    (if config.includeOutputs then (outputTemplates symbol info.kind).map .template else [])

theorem openings_generateForType :
    (generateForType registry now config schema type).openings =
      generatedOpenings registry config schema type := by
  let info := registry.lookup type config.targetScope
  let symbol := resourceSymbol type
  have hs : '$' ∉ symbol.toList := dollar_notMem_resourceSymbol type
  have header : (generateForType registry now config schema type).header.flatMap
      (fun text => (Piece.comment text).opening) =
      (Piece.comment ("Resource Type: " ++ type)).opening := by
    have maker : (Piece.comment "Generated Bicep template from JSON Schema").opening = [] :=
      opening_comment (by decide)
    have stamp : (Piece.comment ("Generated on: " ++ now.timestamp)).opening = [] :=
      opening_of_line (Check.isLine_append (line_lit rfl) (Check.isLine_timestamp now))
    simp only [generateForType, List.flatMap_cons, List.flatMap_nil, maker, stamp, List.nil_append,
      List.append_nil]
  have metadata : (generateForType registry now config schema type).metadata.flatMap
      (fun entry => (Piece.code entry.1.toList).opening) = [] := by
    simp only [generateForType, List.flatMap_cons, List.flatMap_nil]
    rfl
  have notes : (generateForType registry now config schema type).titledNotes = [] := rfl
  have parameters : (generateForType registry now config schema type).parameters.flatMap
      Param.openings = (derivedProperties registry config schema type).flatMap
        fun p => propertyOpenings p.2 := by
    rw [parameters_generateForType, List.flatMap_append, openings_ownParameters,
      List.flatMap_eq_nil_iff.mpr (openings_baseParameters _ config), List.nil_append]
  have vars : (generateForType registry now config schema type).vars.flatMap
      Variable.openings = [] :=
    List.flatMap_eq_nil_iff.mpr fun v hv =>
      (List.mem_append.mp hv).elim (openings_baseVariables _ _ v) (openings_recipeVars _ v)
  have outputs : (generateForType registry now config schema type).outputs.flatMap
      Output.openings =
      if config.includeOutputs then (outputTemplates symbol info.kind).map .template else [] := by
    simp only [generateForType]
    split
    · rw [List.flatMap_append, List.flatMap_eq_nil_iff.mpr (openings_baseOutputs hs _),
        openings_recipeOutputs hs]
      rfl
    · rfl
  rw [Document.openings, header, metadata, notes, parameters, vars, declarations_generateForType,
    outputs, List.flatMap_append, openings_auxiliaryResources, List.flatMap_singleton, ← mainOf,
    openings_mainResource]
  simp only [generatedOpenings, List.flatMap_nil, List.append_nil, List.append_assoc]
  rfl

/-- What a generated document takes from elsewhere besides string values: its type in a comment, the
properties of derived parameters, the types of resources, and the type again where the settings stay
open. -/
def foreignPieces : List Piece :=
  let info := registry.lookup type config.targetScope
  .comment ("Resource Type: " ++ type) ::
    (derivedProperties registry config schema type).flatMap (fun p => propertyPieces p.2) ++
    (auxiliaryResources registry info (resourceSymbol type)).map
      (fun r => .reference r.typeReference) ++
    .reference (info.name ++ "@" ++ registry.selectApiVersion schema type) ::
    (if staysOpen info.kind (derivedOf registry config schema type) then
      [.comment (openComment info.name)]
    else [])

/-- The templates of a generated document. -/
def ownTemplates : List String :=
  let info := registry.lookup type config.targetScope
  (auxiliaryResources registry info (resourceSymbol type)).map (fun _ => interfaceTemplate) ++
    settingsTemplates info.kind ++
    (if config.includeOutputs then outputTemplates (resourceSymbol type) info.kind else [])

theorem origins_generatedOpenings :
    Origins (generatedOpenings registry config schema type)
      (foreignPieces registry config schema type) (ownTemplates registry config type) := by
  let info := registry.lookup type config.targetScope
  have auxiliary : Origins ((auxiliaryResources registry info (resourceSymbol type)).flatMap
      fun r => (Piece.reference r.typeReference).opening ++ [.template interfaceTemplate])
      ((auxiliaryResources registry info (resourceSymbol type)).map
        fun r => .reference r.typeReference)
      ((auxiliaryResources registry info (resourceSymbol type)).map fun _ => interfaceTemplate) := by
    rw [List.map_eq_flatMap, List.map_eq_flatMap]
    exact .flatMap _ fun r =>
      (Origins.foreign fun _ => Piece.noConfusion).append (.templates [interfaceTemplate])
  have named : Origins (Piece.comment ("Resource Type: " ++ type)).opening
      [.comment ("Resource Type: " ++ type)] [] := .foreign fun _ => Piece.noConfusion
  have properties := Origins.each (derivedProperties registry config schema type)
    fun p => origins_propertyOpenings p.2
  have main := Origins.foreign (p := .reference (info.name ++ "@" ++
    registry.selectApiVersion schema type)) fun _ => Piece.noConfusion
  have stays := Origins.ite (staysOpen info.kind (derivedOf registry config schema type))
    (.foreign (p := .comment (openComment info.name)) fun _ => Piece.noConfusion)
  have outputs := Origins.ite config.includeOutputs
    (.templates (outputTemplates (resourceSymbol type) info.kind))
  have all := (((((named.append properties).append auxiliary).append main).append
    (.templates (settingsTemplates info.kind))).append stays).append outputs
  unfold generatedOpenings foreignPieces ownTemplates
  simpa only [ite_self, List.append_nil, List.nil_append, List.append_assoc, List.cons_append] using
    all

theorem opens_generateForType :
    (generateForType registry now config schema type).Opens
      (foreignPieces registry config schema type) (ownTemplates registry config type) := by
  apply Document.opens_of_origins
  rw [openings_generateForType]
  exact origins_generatedOpenings registry config schema type

end Documents

end BicepForge.Generation
