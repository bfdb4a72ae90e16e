import BicepForge.Proofs.Assembly.References
import BicepForge.Proofs.Bicep.Templates
import BicepForge.Proofs.Generation.Openings

/-!
# The open pieces of an assembly

Which holes the documents of an assembly open. String values that a user gives open none. The name of
a deployed resource has the prefix and the environment in holes, and the id between them is read as
text exactly if it opens none; object keys that a user gives, types and the paths of modules are
written with their holes.
-/

namespace BicepForge.Assembly

open Bicep Bicep.Literal Bicep.Piece Generation References

/-! ## Names of resources -/

/-- The text that the name of a deployed resource is made from. -/
def nameTemplate (id : String) : String :=
  hole "resourcePrefix" ++ "-" ++ id ++ "-" ++ hole "environment"

/-- A hole with a name in it. -/
def holeTokens (name : String) : List Token :=
  .opens :: name.toList.map .code ++ [.closes]

/-- The name of a deployed resource as it is meant: the prefix, the id and the environment with
hyphens between them. -/
def nameTokens (id : String) : List Token :=
  holeTokens "resourcePrefix" ++
    (('-' :: id.toList ++ ['-']).map .text ++ holeTokens "environment")

theorem opening_nameTemplate (id : String) :
    (Piece.template (nameTemplate id)).opening = [.template (nameTemplate id)] := by
  have parts : nameTemplate id = "" ++ hole "resourcePrefix" ++
      ("-" ++ id ++ "-" ++ hole "environment") := by
    rw [nameTemplate, String.empty_append]
    simp only [String.append_assoc]
  rw [parts]
  exact opening_hole _ _ _

/-- A hyphen on either side of a text opens no hole. -/
theorem hasInfix_hyphens (cs : List Char) :
    Text.hasInfix holeOpening ('-' :: cs ++ ['-']) = Text.hasInfix holeOpening cs := by
  have behind : Text.hasInfix holeOpening (cs ++ ['-']) = Text.hasInfix holeOpening cs := by
    induction cs with
    | nil => rfl
    | cons c cs ih =>
      have here : holeOpening.isPrefixOf (c :: (cs ++ ['-'])) = holeOpening.isPrefixOf (c :: cs) := by
        cases cs with
        | nil => simp [holeOpening, List.isPrefixOf]
        | cons d ds => rfl
      rw [List.cons_append, Text.hasInfix, Text.hasInfix, here, ih]
  exact behind

theorem behindTokens_eq_some_iff {front ts : List Token} {rest : List Char}
    {read : Option (List Token × List Char)} :
    behindTokens front read = some (front ++ ts, rest) ↔ read = some (ts, rest) := by
  cases read with
  | none => exact iff_of_false (by rintro ⟨⟩) (by rintro ⟨⟩)
  | some found => simp [behindTokens, Prod.ext_iff]

/-- The name of a deployed resource is read as it is meant exactly if its id opens no hole. -/
theorem tokens?_nameTemplate (id : String) (rest : List Char) :
    tokens? false (Value.escape (nameTemplate id).toList ++ '\'' :: rest) =
        some (nameTokens id, rest) ↔
      Value.opensHole id = false := by
  have environment : tokens? false ('$' :: '\x7b' :: "environment".toList ++
      '\x7d' :: '\'' :: rest) = some (holeTokens "environment", rest) := by
    rw [tokens?_hole (by decide)]
    rfl
  have text : Value.escape (nameTemplate id).toList ++ '\'' :: rest =
      '$' :: '\x7b' :: "resourcePrefix".toList ++ '\x7d' ::
        (Value.escape ('-' :: id.toList ++ ['-']) ++
          ('$' :: '\x7b' :: "environment".toList ++ '\x7d' :: '\'' :: rest)) := by
    simp only [nameTemplate, String.toList_append, Value.escape, List.flatMap_append,
      List.append_assoc]
    rfl
  have last : ('-' :: id.toList ++ ['-']).getLast? = some '$' →
      ('$' :: '\x7b' :: "environment".toList ++ '\x7d' :: '\'' :: rest).head? ≠ some '\x7b' := by
    intro _ same
    cases same
  rw [text, tokens?_hole (by decide), nameTokens, ← holeTokens, behindTokens_eq_some_iff,
    tokens?_escape_iff environment last, hasInfix_hyphens]
  rfl

/-! ## Symbols -/

theorem dollar_notMem_symbolOf (id : String) : '$' ∉ (symbolOf id).toList :=
  fun mem => absurd (isAlphanum_symbolOf id _ mem) (by decide)

theorem dollar_notMem_moduleSymbol (m : Member) : '$' ∉ m.moduleSymbol.toList :=
  dollar_append (dollar_notMem_symbolOf m.id) (dollar_lit rfl)

section Batch

variable {b : Batch} {m : Member}

/-! ## Bodies -/

/-- The object keys in the settings that a user gives for a member. -/
def Batch.givenKeys (b : Batch) (m : Member) : List String :=
  ((b.givenSettings? m).map keysOf).getD []

/-- The settings of a member open the holes of the keys that are given, and no others. -/
theorem openings_settingsOf (plan? : Option Member) :
    Value.openingsOfBody (b.settingsOf m plan?) = openKeys (b.givenKeys m) := by
  unfold Batch.settingsOf Batch.givenKeys
  cases b.givenSettings? m with
  | some given =>
    show (Piece.key "properties").opening ++ (Value.ofJson given).openings ++ [] = _
    rw [openings_ofJson, List.append_nil]
    rfl
  | none =>
    show Value.openingsOfBody (Batch.defaultSettings b.config (b.kind m) plan?) = []
    cases b.kind m with
    | webSite =>
      have plan : Value.openingsOfBody
          (plan?.map fun plan => Entry.ref "serverFarmId" (plan.symbol ++ ".id")).toList = [] := by
        cases plan? with
        | none => rfl
        | some p =>
          have id : (Piece.code (p.symbol ++ ".id").toList).opening = [] :=
            openings_path (dollar_notMem_symbolOf p.id) (dollar_lit rfl)
          show (Piece.key "serverFarmId").opening ++ (Piece.code (p.symbol ++ ".id").toList).opening ++
            [] = []
          rw [id]
          rfl
      rw [Batch.defaultSettings, openings_nest (dollar_lit rfl), openingsOfBody_append, plan]
      rfl
    | virtualNetwork | storageAccount | nestedDeployment | virtualMachine | generic => rfl

theorem openings_waiting {symbols : List String} (h : ∀ s ∈ symbols, '$' ∉ s.toList) :
    Value.openingsOfBody (Batch.waiting symbols) = [] := by
  have items : Value.openingsOfItems (symbols.map .expr) = [] := by
    induction symbols with
    | nil => rfl
    | cons s symbols ih =>
      obtain ⟨first, others⟩ := List.forall_mem_cons.mp h
      rw [List.map_cons, Value.openingsOfItems, Value.openings, Piece.opening_code first, ih others]
      rfl
  unfold Batch.waiting
  split
  · rfl
  · show (Piece.key "dependsOn").opening ++ Value.openingsOfItems (symbols.map .expr) ++ [] = []
    rw [items]
    rfl

/-- The settings of a member that are bound to parameters of its own. -/
theorem openings_ownBindings :
    Value.openingsOfBody ((b.ownParameters m).map fun p => .ref p.property p.param.name) = [] := by
  refine openings_refs fun p hp => ?_
  obtain ⟨named, identifier⟩ := name_ownParameter hp
  have name := Piece.dollar_notMem_of_isIdentifier identifier
  refine ⟨?_, name⟩
  rw [named] at name
  exact dollar_of_append name

/-- A body that begins with the name of a resource. -/
theorem openings_named (id : String) {body : Body} (h : Value.openingsOfBody body = []) :
    Value.openingsOfBody (.property "name" (Batch.resourceName id) :: body) =
      [.template (nameTemplate id)] := by
  have name : (Batch.resourceName id).openings = [.template (nameTemplate id)] :=
    opening_nameTemplate id
  rw [Value.openingsOfBody, Value.openingsOfEntry, opening_key (by decide), name, h]
  rfl

theorem openings_inlineResource :
    Value.openingsOfBody (b.inlineResource m).body =
      .template (nameTemplate m.id) :: openKeys (b.givenKeys m) := by
  have waiting : Value.openingsOfBody (Batch.waiting ((b.dependencies m).map Member.symbol)) = [] :=
    openings_waiting (List.forall_mem_map.mpr fun other _ => dollar_notMem_symbolOf other.id)
  have located : Value.openingsOfBody (Body.onlyIf (b.isLocated m)
      [.ref "location" "location", .ref "tags" "commonTags"]) = [] := by
    cases b.isLocated m <;> rfl
  rw [Batch.inlineResource, openingsOfBody_append, openingsOfBody_append, openingsOfBody_append,
    openings_named m.id located, openings_ownBindings, openings_settingsOf, waiting, List.append_nil,
    List.append_nil]
  rfl

theorem openings_moduleDeclaration :
    Value.openingsOfBody (b.moduleDeclaration m).body = [] := by
  have waiting : Value.openingsOfBody
      (Batch.waiting ((b.dependencies m).map Member.moduleSymbol)) = [] :=
    openings_waiting (List.forall_mem_map.mpr fun other _ => dollar_notMem_moduleSymbol other)
  rw [Batch.moduleDeclaration, openingsOfBody_append, waiting]
  rfl

end Batch

/-! ## Documents -/

theorem openings_commonParameters (config : Configuration) :
    ∀ p ∈ Batch.commonParameters config, p.openings = [] := by
  simp only [Batch.commonParameters, List.forall_mem_cons]
  exact ⟨openings_param (dollar_lit rfl) rfl (openings_defaultLocation config),
    openings_param (dollar_lit rfl) rfl rfl, openings_param (dollar_lit rfl) rfl rfl, by simp⟩

/-- The properties that parameters of a member's own are made from. -/
def Batch.ownProperties (b : Batch) (m : Member) : List (String × Json) :=
  if b.config.includeParameters ∧ b.kind m = .generic then
    (m.schema.properties?.getD []).filter fun p => (Batch.ownParameter? m.id p.1 p.2).isSome
  else []

theorem openings_ownParameter {id property : String} {schema : Json} {p : Batch.OwnParameter}
    (h : Batch.ownParameter? id property schema = some p) :
    p.param.openings = propertyOpenings schema := by
  obtain ⟨-, -, identifier, rfl⟩ := Batch.ownParameter?_eq_some_iff.mp h
  have name := Piece.dollar_notMem_of_isIdentifier identifier
  have foreign : '$' ∉ property.toList := dollar_of_append name
  have derived := openings_parameterOfSchema foreign schema
  rw [Param.openings, parameterOfSchema, Piece.opening_code foreign] at derived
  rw [Param.openings, Piece.opening_code name]
  exact derived

/-- The parameters of a member's own open the holes of the keys in their choices and defaults. -/
theorem openings_ownParameters (b : Batch) (m : Member) :
    ((b.ownParameters m).map (·.param)).flatMap Param.openings =
      (b.ownProperties m).flatMap fun p => propertyOpenings p.2 := by
  unfold Batch.ownParameters Batch.ownProperties
  split
  · induction m.schema.properties?.getD [] with
    | nil => rfl
    | cons p ps ih =>
      obtain ⟨property, schema⟩ := p
      cases made : Batch.ownParameter? m.id property schema with
      | none =>
        rw [List.filter_cons_of_neg (by simp [made]), List.filterMap_cons]
        simp only [made]
        exact ih
      | some own =>
        rw [List.filter_cons_of_pos (by simp [made]), List.filterMap_cons]
        simp only [made, List.map_cons, List.flatMap_cons, openings_ownParameter made, ih]
  · rfl

theorem openings_outputsOf (b : Batch) (m : Member) : ∀ o ∈ b.outputsOf m, o.openings = [] := by
  have output {what symbol path : String} (hw : '$' ∉ what.toList) (hs : '$' ∉ symbol.toList)
      (hp : '$' ∉ path.toList) : Output.openings
        { name := m.symbol ++ what, type := .string, value := .expr (symbol ++ path) } = [] :=
    openings_pathOutput (dollar_append (dollar_notMem_symbolOf m.id) hw) hs hp
  have id : '$' ∉ "Id".toList := by decide
  have name : '$' ∉ "Name".toList := by decide
  have i : '$' ∉ ".id".toList := by decide
  have n : '$' ∉ ".name".toList := by decide
  have oi : '$' ∉ ".outputs.resourceId".toList := by decide
  have on : '$' ∉ ".outputs.resourceName".toList := by decide
  unfold Batch.outputsOf
  split
  · have symbol := dollar_notMem_moduleSymbol m
    simp only [List.forall_mem_cons]
    refine ⟨?_, ?_, ?_⟩
    · exact output id symbol oi
    · exact output name symbol on
    · simp
  · have symbol := dollar_notMem_symbolOf m.id
    simp only [List.forall_mem_cons]
    refine ⟨?_, ?_, ?_⟩
    · exact output id symbol i
    · exact output name symbol n
    · simp

/-- A resource of an assembly opens the holes of its type, its name and the keys of its settings. -/
def Batch.resourceOpenings (b : Batch) (m : Member) : List Piece :=
  (Piece.reference (m.type ++ "@" ++ m.apiVersion)).opening ++
    .template (nameTemplate m.id) :: openKeys (b.givenKeys m)

section Documents

variable (b : Batch) (now : Instant) (names warnings : List String)

theorem openings_header :
    (Batch.header now names).flatMap (fun text => (Piece.comment text).opening) =
      (Piece.comment ("Resources: " ++ String.intercalate ", " names)).opening := by
  have title : (Piece.comment "Multi-Resource Azure Deployment Template").opening = [] :=
    opening_of_line (line_lit rfl)
  have maker : (Piece.comment ("Generated by " ++ generatorName)).opening = [] :=
    opening_of_line (by decide)
  have stamp : (Piece.comment ("Generated on: " ++ now.timestamp)).opening = [] :=
    opening_of_line (Check.isLine_append (line_lit rfl) (Check.isLine_timestamp now))
  simp only [Batch.header, List.flatMap_cons, List.flatMap_nil, title, maker, stamp,
    List.nil_append, List.append_nil]

theorem openings_warnings :
    (b.mainDocument now names warnings).titledNotes.flatMap
      (fun text => (Piece.comment text).opening) =
      warnings.flatMap fun text => (Piece.comment text).opening := by
  have title : (Piece.comment Batch.warningsTitle).opening = [] :=
    opening_of_line (line_lit rfl)
  show (if warnings.isEmpty then [] else [Batch.warningsTitle] ++ warnings).flatMap _ = _
  split
  · rename_i none
    rw [List.isEmpty_iff.mp none]
  · rw [List.flatMap_append, List.flatMap_singleton, title, List.nil_append]

theorem openings_moduleDeclarations :
    (b.members.map fun m => Declaration.module (b.moduleDeclaration m)).flatMap
      Declaration.openings =
      b.members.flatMap fun m => (Piece.reference (Batch.modulePath m.id)).opening := by
  rw [List.flatMap_map]
  refine List.flatMap_congr fun m _ => ?_
  refine (Declaration.openings_of_symbol ?_ ?_).trans ?_
  · exact dollar_notMem_moduleSymbol m
  · intro text mem
    cases mem
  · rw [Declaration.body, openings_moduleDeclaration, List.append_nil]
    rfl

theorem openings_inlineResources :
    (b.members.map fun m => Declaration.resource (b.inlineResource m)).flatMap
      Declaration.openings = b.members.flatMap b.resourceOpenings := by
  rw [List.flatMap_map]
  refine List.flatMap_congr fun m _ => ?_
  refine (Declaration.openings_of_symbol ?_ ?_).trans ?_
  · exact dollar_notMem_symbolOf m.id
  · intro text mem
    cases mem
  · rw [Declaration.body, openings_inlineResource]
    rfl

/-- The open pieces of the main document: names and warnings that go on behind their comments, and
the paths of its modules, if there are any, or else its resources and the properties that become
parameters. -/
def Batch.mainOpenings : List Piece :=
  (Piece.comment ("Resources: " ++ String.intercalate ", " names)).opening ++
    warnings.flatMap (fun text => (Piece.comment text).opening) ++
    if b.config.generateModules then
      b.members.flatMap fun m => (Piece.reference (Batch.modulePath m.id)).opening
    else
      (b.members.flatMap fun m => (b.ownProperties m).flatMap fun p => propertyOpenings p.2) ++
        b.members.flatMap b.resourceOpenings

theorem openings_mainDocument :
    (b.mainDocument now names warnings).openings = b.mainOpenings names warnings := by
  have header : (b.mainDocument now names warnings).header = Batch.header now names := rfl
  have metadata : (b.mainDocument now names warnings).metadata = [] := rfl
  have common := List.flatMap_eq_nil_iff.mpr (openings_commonParameters b.config)
  have parameters : (b.mainDocument now names warnings).parameters.flatMap Param.openings =
      if b.config.generateModules then []
      else b.members.flatMap fun m => (b.ownProperties m).flatMap fun p => propertyOpenings p.2 := by
    simp only [Batch.mainDocument, List.flatMap_append, common, List.nil_append]
    split
    · rfl
    · rw [List.flatMap_assoc]
      exact List.flatMap_congr fun m _ => openings_ownParameters b m
  have vars : (b.mainDocument now names warnings).vars.flatMap Variable.openings = [] := by
    simp only [Batch.mainDocument]
    split <;> rfl
  have outputs : (b.mainDocument now names warnings).outputs.flatMap Output.openings = [] := by
    simp only [Batch.mainDocument]
    split
    · rw [List.flatMap_assoc]
      exact List.flatMap_eq_nil_iff.mpr fun m _ =>
        List.flatMap_eq_nil_iff.mpr (openings_outputsOf b m)
    · rfl
  rw [Document.openings, header, openings_header, metadata, openings_warnings, parameters, vars,
    outputs, Batch.mainOpenings]
  cases mode : b.config.generateModules with
  | true =>
    rw [declarations_modules b now names warnings mode, openings_moduleDeclarations]
    simp only [if_true, List.flatMap_nil, List.append_nil]
  | false =>
    rw [declarations_inline b now names warnings mode, openings_inlineResources]
    simp only [Bool.false_eq_true, if_false, List.flatMap_nil, List.append_nil, List.append_assoc]

/-- The open pieces of a module document: an id that goes on behind its comment, and the resource. -/
def Batch.moduleOpenings (m : Member) : List Piece :=
  (Piece.comment (m.id ++ " module")).opening ++ b.resourceOpenings m

theorem openings_moduleDocument (m : Member) :
    (b.moduleDocument m).openings = b.moduleOpenings m := by
  have symbol := dollar_notMem_symbolOf m.id
  have parameters : (b.moduleDocument m).parameters.flatMap Param.openings = [] := by
    refine List.flatMap_eq_nil_iff.mpr ?_
    simp only [Batch.moduleDocument, List.forall_mem_cons]
    exact ⟨openings_param (dollar_lit rfl) rfl rfl, openings_param (dollar_lit rfl) rfl rfl,
      openings_param (dollar_lit rfl) rfl rfl, by simp⟩
  have located : Value.openingsOfBody (Body.onlyIf (b.isLocated m)
      [.ref "location" "location"]) = [] := by
    cases b.isLocated m <;> rfl
  have resource : (b.moduleDocument m).declarations.flatMap Declaration.openings =
      b.resourceOpenings m := by
    rw [Batch.moduleDocument, List.flatMap_singleton]
    refine (Declaration.openings_of_symbol ?_ ?_).trans ?_
    · exact symbol
    · intro text mem
      cases mem
    · rw [Declaration.body, openingsOfBody_append, openings_named m.id located,
        openings_settingsOf]
      rfl
  have outputs : (b.moduleDocument m).outputs.flatMap Output.openings = [] :=
    List.flatMap_eq_nil_iff.mpr (openings_baseOutputs symbol false)
  have header : (b.moduleDocument m).header.flatMap (fun text => (Piece.comment text).opening) =
      (Piece.comment (m.id ++ " module")).opening := List.append_nil _
  have others : (b.moduleDocument m).metadata = [] ∧ (b.moduleDocument m).titledNotes = [] ∧
      (b.moduleDocument m).vars = [] := ⟨rfl, rfl, rfl⟩
  rw [Document.openings, header, others.1, others.2.1, others.2.2, parameters, resource, outputs,
    Batch.moduleOpenings]
  simp only [List.flatMap_nil, List.append_nil]

/-! ### Where they come from -/

/-- What a resource of an assembly takes from elsewhere besides string values: its type, and the
object keys of given settings. -/
def Batch.resourcePieces (b : Batch) (m : Member) : List Piece :=
  .reference (m.type ++ "@" ++ m.apiVersion) :: (b.givenKeys m).map .key

theorem origins_resourceOpenings (m : Member) :
    Origins (b.resourceOpenings m) (b.resourcePieces m) [nameTemplate m.id] :=
  (Origins.foreign (p := .reference (m.type ++ "@" ++ m.apiVersion)) fun _ =>
    Piece.noConfusion).append ((Origins.templates [nameTemplate m.id]).append
      (origins_openKeys (b.givenKeys m)))

/-- What the main document takes from elsewhere besides string values: names and warnings in
comments, and the paths of its modules, if there are any, or else what its parameters and resources
take. -/
def Batch.mainPieces : List Piece :=
  .comment ("Resources: " ++ String.intercalate ", " names) :: warnings.map .comment ++
    if b.config.generateModules then
      b.members.map fun m => .reference (Batch.modulePath m.id)
    else
      (b.members.flatMap fun m => (b.ownProperties m).flatMap fun p => propertyPieces p.2) ++
        b.members.flatMap b.resourcePieces

/-- The templates of the main document: the names of the resources that it declares in place. -/
def Batch.mainTemplates (b : Batch) : List String :=
  if b.config.generateModules then [] else b.members.map fun m => nameTemplate m.id

theorem opens_mainDocument :
    (b.mainDocument now names warnings).Opens (b.mainPieces names warnings) b.mainTemplates := by
  have title := Origins.foreign (p := .comment ("Resources: " ++ String.intercalate ", " names))
    fun _ => Piece.noConfusion
  have notes : Origins (warnings.flatMap fun text => (Piece.comment text).opening)
      (warnings.map .comment) [] := .map warnings fun _ _ => Piece.noConfusion
  apply Document.opens_of_origins
  rw [openings_mainDocument, Batch.mainOpenings, Batch.mainPieces, Batch.mainTemplates]
  refine (title.append notes).append ?_
  cases b.config.generateModules with
  | true => exact .map b.members fun _ _ => Piece.noConfusion
  | false =>
    have own := Origins.each b.members fun m =>
      Origins.each (b.ownProperties m) fun p => origins_propertyOpenings p.2
    have resources := Origins.flatMap b.members (origins_resourceOpenings b)
    rw [← List.map_eq_flatMap] at resources
    exact own.append resources

theorem opens_moduleDocument (m : Member) :
    (b.moduleDocument m).Opens (.comment (m.id ++ " module") :: b.resourcePieces m)
      [nameTemplate m.id] := by
  have header := Origins.foreign (p := .comment (m.id ++ " module")) fun _ => Piece.noConfusion
  apply Document.opens_of_origins
  rw [openings_moduleDocument]
  exact header.append (origins_resourceOpenings b m)

end Documents

/-- Which holes are open in generated and assembled documents: those of their own templates, and of
foreign pieces, which are types, the paths of modules, lines that texts in comments go on with, and
the object keys in given settings and in the choices and defaults of parameters. So only the own
templates are open exactly if no foreign piece opens a hole. A string value never opens one and is
read as its text. An object key is read as its text, and the name of a resource as the prefix, the id
and the environment with hyphens between them, exactly if the key or the id opens no hole. -/
theorem opens_documents (registry : Registry) (now : Instant) (config : Configuration)
    (schema : ResourceSchema) (type : String) (b : Batch) (names warnings : List String)
    (m : Member) (text : String) (rest : List Char) :
    (generateForType registry now config schema type).Opens
        (foreignPieces registry config schema type) (ownTemplates registry config type) ∧
      (b.mainDocument now names warnings).Opens (b.mainPieces names warnings) b.mainTemplates ∧
      (b.moduleDocument m).Opens (.comment (m.id ++ " module") :: b.resourcePieces m)
        [nameTemplate m.id] ∧
      ((Piece.literal text).isOpen = false ∧
        tokens? false (Value.escapeLiteral text.toList ++ '\'' :: rest) =
          some (text.toList.map .text, rest)) ∧
      ((Piece.key text).isOpen = Value.opensHole text ∧
        (tokens? false (Value.escape text.toList ++ '\'' :: rest) =
          some (text.toList.map .text, rest) ↔ Value.opensHole text = false)) ∧
      ((Piece.template (nameTemplate m.id)).chars = (Batch.resourceName m.id).chars 0 ∧
        (tokens? false (Value.escape (nameTemplate m.id).toList ++ '\'' :: rest) =
          some (nameTokens m.id, rest) ↔ Value.opensHole m.id = false)) := by
  have closing : tokens? false ('\'' :: rest) = some ([], rest) := rfl
  have apart : text.toList.getLast? = some '$' → ('\'' :: rest).head? ≠ some '\x7b' := by
    intro _ brace
    cases brace
  have key := tokens?_escape_iff closing apart
  rw [List.append_nil] at key
  exact ⟨opens_generateForType registry now config schema type,
    opens_mainDocument b now names warnings, opens_moduleDocument b m,
    ⟨Piece.isOpen_literal text, tokens?_escapeLiteral _ rest⟩, ⟨Piece.isOpen_key text, key⟩,
    rfl, tokens?_nameTemplate m.id rest⟩

/-- A batch with one member, whose id has a hole. -/
def ghostBatch : Batch where
  registry := .azure
  config := {}
  settings := []
  members := [⟨⟨"$\x7bghost\x7d", "Ghost", "ghost"⟩, "Acme/gears", "2024-01-01", ⟨.obj []⟩, .offline⟩]

/-- The key of a default interpolates, and so does an id in the name of its resource: it is not read
as the id. -/
theorem ghost_opens :
    Piece.key "$\x7bghost\x7d" ∈
      (generateForType .azure ⟨0⟩ {} ghostSchema "Acme/gears").pieces.filter Piece.isOpen ∧
    Piece.template (nameTemplate "$\x7bghost\x7d") ∈
      (ghostBatch.mainDocument ⟨0⟩ ["Ghost"] []).pieces.filter Piece.isOpen ∧
    tokens? false (Value.escape (nameTemplate "$\x7bghost\x7d").toList ++ ['\'']) ≠
      some (nameTokens "$\x7bghost\x7d", []) := by
  refine ⟨?_, ?_, ?_⟩
  · rw [Document.filter_pieces, openings_generateForType]
    decide +kernel
  · rw [Document.filter_pieces, openings_mainDocument]
    decide +kernel
  · rw [Ne, tokens?_nameTemplate]
    decide

end BicepForge.Assembly
