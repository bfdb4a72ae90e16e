import BicepForge.Proofs.Assembly.Members
import BicepForge.Proofs.References.Declared

/-!
# The references of an assembly

The documents of an assembly write expressions where they speak of their own declarations; what
comes from a user stands in literals. Every name in an expression is declared in the same document,
and the name of a resource reads the common parameters whatever its id is.
-/

namespace BicepForge.Assembly

open Bicep Generation References

/-- The reading that passes over all texts between quotes. -/
def unread : Reading :=
  fun _ => []

def expressionNames (d : Document) : List String :=
  referredNames d unread

theorem keyNames_unread (key : String) : keyNames key unread = [] := by
  unfold keyNames
  split <;> rfl

theorem quiet_unread : unread.Quiet :=
  fun _ => rfl

theorem flatMap_keyNames_unread (keys : List String) :
    keys.flatMap (keyNames · unread) = [] :=
  List.flatMap_eq_nil_iff.mpr fun key _ => keyNames_unread key

/-- A literal holds no expressions. -/
theorem namesOf_literal (v : Json) : namesOf (Value.ofJson v) unread = [] := by
  rw [namesOf_ofJson quiet_unread, flatMap_keyNames_unread]

section Entries

variable {names : List String}

/-- An entry refers to what its value refers to. -/
theorem entryNames_property {key : String} {v : Value} (h : namesOf v unread ⊆ names) :
    namesOfEntry (.property key v) unread ⊆ names := by
  rw [namesOfEntry, keyNames_unread]
  exact h

theorem bodyNames_subset_iff {body : Body} :
    namesOfBody body unread ⊆ names ↔ ∀ e ∈ body, namesOfEntry e unread ⊆ names := by
  induction body with
  | nil => simp [namesOfBody]
  | cons e body ih => rw [namesOfBody, List.append_subset, ih, List.forall_mem_cons]

theorem entryNames_nest {key : String} {body : Body}
    (h : ∀ e ∈ body, namesOfEntry e unread ⊆ names) :
    namesOfEntry (.nest key body) unread ⊆ names :=
  entryNames_property (bodyNames_subset_iff.mpr h)

theorem entryNames_lit (key text : String) : namesOfEntry (.lit key text) unread ⊆ names :=
  entryNames_property (List.nil_subset _)

theorem entryNames_flag (key : String) (value : Bool) :
    namesOfEntry (.flag key value) unread ⊆ names :=
  entryNames_property (List.nil_subset _)

theorem entryNames_ref {key symbol : String} (hs : isWord symbol = true) (mem : symbol ∈ names) :
    namesOfEntry (.ref key symbol) unread ⊆ names :=
  entryNames_property (List.Subset.trans (namesIn_word hs)
    (List.cons_subset.mpr ⟨mem, List.nil_subset _⟩))

end Entries

/-! ## Symbols -/

theorem isAlphanum_symbolOf (id : String) : ∀ c ∈ (symbolOf id).toList, c.isAlphanum = true := by
  rw [symbolOf, String.toList_ofList]
  exact isAlphanum_of_mem_alphanumerics

theorem isWord_symbolOf (id : String) : isWord (symbolOf id) = true :=
  isWord_of_isAlphanum (isAlphanum_symbolOf id)

theorem isWord_moduleSymbol (m : Member) : isWord m.moduleSymbol = true :=
  isWord_append (isWord_symbolOf m.id) (by decide)

/-! ## Parameters of an assembly -/

section Batch

variable {b : Batch} {m : Member} {names : List String}

/-- A parameter of a member's own has a name that can be written as it is, and no expressions. -/
theorem ownParameter_spec {p : Batch.OwnParameter} (h : p ∈ b.ownParameters m) :
    isWord p.param.name = true ∧ paramNames p.param unread = [] := by
  obtain ⟨-, property, schema, -, made⟩ := Batch.mem_ownParameters_iff.mp h
  obtain ⟨-, -, name, rfl⟩ := Batch.ownParameter?_eq_some_iff.mp made
  have derived := paramNames_parameterOfSchema quiet_unread property schema
  rw [flatMap_keyNames_unread] at derived
  exact ⟨isWord_of_isIdentifier name, derived⟩

/-- A parameter of a member's own is named for the member and the property. -/
theorem name_ownParameter {p : Batch.OwnParameter} (h : p ∈ b.ownParameters m) :
    p.param.name = m.id ++ "_" ++ p.property ∧ Value.isIdentifier p.param.name = true := by
  obtain ⟨-, property, schema, -, made⟩ := Batch.mem_ownParameters_iff.mp h
  obtain ⟨-, -, name, rfl⟩ := Batch.ownParameter?_eq_some_iff.mp made
  exact ⟨rfl, name⟩

theorem paramNames_common (config : Configuration) :
    ∀ p ∈ Batch.commonParameters config, paramNames p unread ⊆ names := by
  have location : namesOf (defaultLocation config) unread = [] := by
    unfold defaultLocation
    split
    · rfl
    · decide +kernel
  have plain {name text : String} {v : Value} (h : namesOf v unread = []) :
      paramNames { name, type := .string, decorators := [.description text], default? := some v }
        unread ⊆ names := by
    show [] ++ [] ++ namesOf v unread ⊆ names
    rw [h]
    exact List.nil_subset _
  simp only [Batch.commonParameters, List.forall_mem_cons]
  exact ⟨plain location, plain rfl, plain rfl, by simp⟩

theorem varNames_commonTags (common : ["location", "environment", "resourcePrefix"] ⊆ names) :
    namesOf Batch.commonTags.value unread ⊆ names := by
  simp only [List.cons_subset] at common
  obtain ⟨-, environment, resourcePrefix, -⟩ := common
  refine bodyNames_subset_iff.mpr ?_
  simp only [List.forall_mem_cons]
  exact ⟨entryNames_ref (by decide) environment, entryNames_ref (by decide) resourcePrefix,
    entryNames_property (List.nil_subset _), by simp⟩

/-! ## Bodies -/

/-- The settings of a kind refer to the plan that is given to them, if to anything. -/
theorem bodyNames_defaultSettings (config : Configuration) (kind : ResourceKind)
    {plan? : Option Member} (plan : ∀ p, plan? = some p → p.symbol ∈ names) :
    namesOfBody (Batch.defaultSettings config kind plan?) unread ⊆ names := by
  refine bodyNames_subset_iff.mpr ?_
  cases kind with
  | virtualNetwork =>
    simp only [Batch.defaultSettings, List.forall_mem_cons]
    refine ⟨entryNames_nest ?_, by simp⟩
    simp only [List.forall_mem_cons]
    refine ⟨entryNames_nest ?_, entryNames_property ?_, by simp⟩
    · simp only [List.forall_mem_cons]
      exact ⟨entryNames_property (List.nil_subset _), by simp⟩
    · exact List.nil_subset _
  | storageAccount =>
    simp only [Batch.defaultSettings, List.forall_mem_cons]
    refine ⟨entryNames_nest ?_, entryNames_lit _ _, entryNames_nest ?_, by simp⟩
    · simp only [List.forall_mem_cons]
      exact ⟨entryNames_lit _ _, by simp⟩
    · simp only [List.forall_mem_cons]
      exact ⟨entryNames_lit _ _, entryNames_flag _ _, entryNames_flag _ _, entryNames_lit _ _,
        by simp⟩
  | webSite =>
    simp only [Batch.defaultSettings, List.forall_mem_cons]
    refine ⟨entryNames_nest ?_, by simp⟩
    simp only [List.forall_mem_append, List.forall_mem_cons]
    refine ⟨?_, entryNames_flag _ _, entryNames_nest ?_, by simp⟩
    · intro e he
      obtain ⟨p, found, rfl⟩ := Option.map_eq_some_iff.mp (Option.mem_toList.mp he)
      exact entryNames_property (path_subset (isWord_symbolOf p.id) (path_lit rfl) (plan p found))
    · simp only [List.forall_mem_cons]
      exact ⟨entryNames_lit _ _, by simp⟩
  | nestedDeployment =>
    simp only [Batch.defaultSettings, List.forall_mem_cons]
    refine ⟨entryNames_nest ?_, by simp⟩
    simp only [nestedDeploymentSettings, List.forall_mem_cons]
    exact ⟨entryNames_lit _ _, entryNames_property (List.nil_subset _), by simp⟩
  | virtualMachine | generic =>
    simp only [Batch.defaultSettings, List.forall_mem_cons]
    exact ⟨entryNames_nest (by simp [namesOfEntry]), by simp⟩

/-- The settings of a member refer to the plan beside it, if to anything. -/
theorem bodyNames_settingsOf {plan? : Option Member}
    (plan : ∀ p, plan? = some p → p.symbol ∈ names) :
    namesOfBody (b.settingsOf m plan?) unread ⊆ names := by
  unfold Batch.settingsOf
  split
  · rename_i given _
    refine bodyNames_subset_iff.mpr ?_
    rw [List.forall_mem_cons]
    refine ⟨entryNames_property ?_, by simp⟩
    rw [namesOf_literal]
    exact List.nil_subset _
  · exact bodyNames_defaultSettings b.config (b.kind m) plan

/-- Waiting refers to the symbols of the others. -/
theorem bodyNames_waiting {symbols : List String} (words : ∀ s ∈ symbols, isWord s = true)
    (h : symbols ⊆ names) : namesOfBody (Batch.waiting symbols) unread ⊆ names := by
  have items : namesOfItems (symbols.map .expr) unread ⊆ names := by
    induction symbols with
    | nil => exact List.nil_subset _
    | cons s symbols ih =>
      rw [List.forall_mem_cons] at words
      rw [List.cons_subset] at h
      refine List.append_subset.mpr ⟨?_, ih words.2 h.2⟩
      exact List.Subset.trans (namesIn_word words.1)
        (List.cons_subset.mpr ⟨h.1, List.nil_subset _⟩)
  unfold Batch.waiting
  split_ifs
  · exact List.nil_subset _
  · refine bodyNames_subset_iff.mpr ?_
    rw [List.forall_mem_cons]
    exact ⟨entryNames_property items, by simp⟩

/-- A member waits for members only. -/
theorem dependencies_subset : b.dependencies m ⊆ b.members := by
  intro other h
  unfold Batch.dependencies at h
  split_ifs at h
  · obtain ⟨id, -, found⟩ := List.mem_filterMap.mp h
    exact List.mem_of_find?_eq_some found
  · cases h

/-- The names are those that the main document of a batch declares, and possibly more. -/
structure Batch.Declared (b : Batch) (names : List String) : Prop where
  common : ["location", "environment", "resourcePrefix"] ⊆ names
  modules : b.config.generateModules = true → ∀ m ∈ b.members, m.moduleSymbol ∈ names
  resources : b.config.generateModules = false → ∀ m ∈ b.members, m.symbol ∈ names
  tags : b.config.generateModules = false → ∀ m ∈ b.members, b.isLocated m = true →
    "commonTags" ∈ names
  own : b.config.generateModules = false → ∀ m ∈ b.members, ∀ p ∈ b.ownParameters m,
    p.param.name ∈ names

theorem bodyNames_inlineResource (h : b.Declared names) (mode : b.config.generateModules = false)
    (hm : m ∈ b.members) : namesOfBody (b.inlineResource m).body unread ⊆ names := by
  have settings : namesOfBody (b.settingsOf m (b.member? "appplan")) unread ⊆ names :=
    bodyNames_settingsOf fun p found =>
      h.resources mode p (List.mem_of_find?_eq_some found)
  have waits : namesOfBody (Batch.waiting ((b.dependencies m).map Member.symbol)) unread ⊆
      names := by
    refine bodyNames_waiting (List.forall_mem_map.mpr fun other _ => isWord_symbolOf other.id) ?_
    intro s hs
    obtain ⟨other, ho, rfl⟩ := List.mem_map.mp hs
    exact h.resources mode other (dependencies_subset ho)
  rw [bodyNames_subset_iff] at settings waits ⊢
  simp only [Batch.inlineResource, List.forall_mem_append, List.forall_mem_cons]
  refine ⟨⟨⟨⟨entryNames_property (List.nil_subset _), ?_⟩, ?_⟩, settings⟩, waits⟩
  · unfold Body.onlyIf
    split_ifs with located
    · have common := h.common
      rw [List.cons_subset] at common
      simp only [List.forall_mem_cons]
      exact ⟨entryNames_ref (by decide) common.1,
        entryNames_ref (by decide) (h.tags mode m hm located), by simp⟩
    · simp
  · intro e he
    obtain ⟨p, hp, rfl⟩ := List.mem_map.mp he
    exact entryNames_ref (ownParameter_spec hp).1 (h.own mode m hm p hp)

theorem bodyNames_moduleDeclaration (h : b.Declared names)
    (mode : b.config.generateModules = true) :
    namesOfBody (b.moduleDeclaration m).body unread ⊆ names := by
  have waits : namesOfBody (Batch.waiting ((b.dependencies m).map Member.moduleSymbol)) unread ⊆
      names := by
    refine bodyNames_waiting (List.forall_mem_map.mpr fun other _ => isWord_moduleSymbol other) ?_
    intro s hs
    obtain ⟨other, ho, rfl⟩ := List.mem_map.mp hs
    exact h.modules mode other (dependencies_subset ho)
  have common := h.common
  simp only [List.cons_subset] at common
  obtain ⟨location, environment, resourcePrefix, -⟩ := common
  rw [bodyNames_subset_iff] at waits ⊢
  simp only [Batch.moduleDeclaration, List.forall_mem_append, List.forall_mem_cons]
  refine ⟨⟨entryNames_property (List.nil_subset _), entryNames_nest ?_, by simp⟩, waits⟩
  simp only [List.forall_mem_cons]
  exact ⟨entryNames_ref (by decide) location, entryNames_ref (by decide) environment,
    entryNames_ref (by decide) resourcePrefix, by simp⟩

theorem outputNames_outputsOf (h : b.Declared names) (hm : m ∈ b.members) :
    ∀ o ∈ b.outputsOf m, outputNames o unread ⊆ names := by
  have member {name symbol path : String} (hs : isWord symbol = true)
      (hp : isPath path.toList = true) (mem : symbol ∈ names) :
      outputNames { name, type := .string, value := .expr (symbol ++ path) } unread ⊆
        names := by
    refine outputNames_subset quiet_unread ?_
    rw [namesOf]
    exact path_subset hs hp mem
  unfold Batch.outputsOf
  split_ifs with mode
  · have mem := h.modules mode m hm
    simp only [List.forall_mem_cons]
    exact ⟨member (isWord_moduleSymbol m) (path_lit rfl) mem,
      member (isWord_moduleSymbol m) (path_lit rfl) mem, by simp⟩
  · have mem := h.resources (by simpa using mode) m hm
    simp only [List.forall_mem_cons]
    exact ⟨member (isWord_symbolOf m.id) (path_lit rfl) mem,
      member (isWord_symbolOf m.id) (path_lit rfl) mem, by simp⟩

end Batch

/-! ## Documents of an assembly -/

section Documents

variable (b : Batch) (now : Instant) (names warnings : List String)

theorem declarations_modules (mode : b.config.generateModules = true) :
    (b.mainDocument now names warnings).declarations =
      b.members.map fun m => .module (b.moduleDeclaration m) :=
  if_pos mode

theorem declarations_inline (mode : b.config.generateModules = false) :
    (b.mainDocument now names warnings).declarations =
      b.members.map fun m => .resource (b.inlineResource m) :=
  if_neg (by simp [mode])

theorem declared_mainDocument : b.Declared (declaredNames (b.mainDocument now names warnings)) where
  common := by
    intro n hn
    refine List.mem_append_left _ (List.mem_append_left _ ?_)
    rw [Batch.mainDocument, List.map_append]
    exact List.mem_append_left _ hn
  modules := by
    intro mode m hm
    refine List.mem_append_right _ (List.mem_map.mpr ⟨.module (b.moduleDeclaration m), ?_, rfl⟩)
    rw [declarations_modules b now names warnings mode]
    exact List.mem_map_of_mem hm
  resources := by
    intro mode m hm
    refine List.mem_append_right _ (List.mem_map.mpr ⟨.resource (b.inlineResource m), ?_, rfl⟩)
    rw [declarations_inline b now names warnings mode]
    exact List.mem_map_of_mem hm
  tags := by
    intro mode m hm located
    have any : b.members.any b.isLocated = true := List.any_eq_true.mpr ⟨m, hm, located⟩
    refine List.mem_append_left _ (List.mem_append_right _ ?_)
    rw [Batch.mainDocument, mode, any]
    exact List.mem_singleton_self _
  own := by
    intro mode m hm p hp
    refine List.mem_append_left _ (List.mem_append_left _ ?_)
    rw [Batch.mainDocument, if_neg (by simp [mode])]
    refine List.mem_map_of_mem (List.mem_append_right _ ?_)
    exact List.mem_flatMap.mpr ⟨m, hm, List.mem_map_of_mem hp⟩

theorem paramNames_mainDocument :
    ∀ p ∈ (b.mainDocument now names warnings).parameters,
      paramNames p unread ⊆ declaredNames (b.mainDocument now names warnings) := by
  intro p hp
  rcases List.mem_append.mp hp with hp | hp
  · exact paramNames_common b.config p hp
  · split_ifs at hp
    · cases hp
    · obtain ⟨m, -, hp⟩ := List.mem_flatMap.mp hp
      obtain ⟨own, ho, rfl⟩ := List.mem_map.mp hp
      rw [(ownParameter_spec ho).2]
      exact List.nil_subset _

theorem varNames_mainDocument :
    ∀ v ∈ (b.mainDocument now names warnings).vars,
      namesOf v.value unread ⊆ declaredNames (b.mainDocument now names warnings) := by
  intro v hv
  have common := (declared_mainDocument b now names warnings).common
  simp only [Batch.mainDocument] at hv
  split_ifs at hv
  · rw [List.mem_singleton.mp hv]
    exact varNames_commonTags common
  · cases hv

theorem declarationNames_mainDocument :
    ∀ d ∈ (b.mainDocument now names warnings).declarations,
      declarationNames d unread ⊆ declaredNames (b.mainDocument now names warnings) := by
  intro d hd
  have declared := declared_mainDocument b now names warnings
  simp only [Batch.mainDocument] at hd
  split_ifs at hd with mode
  · obtain ⟨m, -, rfl⟩ := List.mem_map.mp hd
    exact List.append_subset.mpr ⟨List.nil_subset _, bodyNames_moduleDeclaration declared mode⟩
  · obtain ⟨m, hm, rfl⟩ := List.mem_map.mp hd
    exact List.append_subset.mpr ⟨List.nil_subset _,
      bodyNames_inlineResource declared (by simpa using mode) hm⟩

theorem outputNames_mainDocument :
    ∀ o ∈ (b.mainDocument now names warnings).outputs,
      outputNames o unread ⊆ declaredNames (b.mainDocument now names warnings) := by
  intro o ho
  have declared := declared_mainDocument b now names warnings
  simp only [Batch.mainDocument] at ho
  split_ifs at ho
  · obtain ⟨m, hm, ho⟩ := List.mem_flatMap.mp ho
    exact outputNames_outputsOf declared hm o ho
  · cases ho

/-- Every expression of the main document speaks of what the document declares. -/
theorem expressionNames_mainDocument :
    expressionNames (b.mainDocument now names warnings) ⊆
      declaredNames (b.mainDocument now names warnings) := by
  simp only [expressionNames, referredNames, List.append_subset]
  refine ⟨⟨⟨⟨List.nil_subset _, ?_⟩, ?_⟩, ?_⟩, ?_⟩
  · exact flatMap_subset (paramNames_mainDocument b now names warnings)
  · exact flatMap_subset (varNames_mainDocument b now names warnings)
  · exact flatMap_subset (declarationNames_mainDocument b now names warnings)
  · exact flatMap_subset (outputNames_mainDocument b now names warnings)

end Documents

/-! ## Names of resources -/

/-- The end of a resource name reads the environment, and ends a word before it like a quote
does. -/
theorem scan_environment (s : Scanner) :
    scan s (Value.escape ("-" ++ hole "environment").toList ++ ['\'']) =
      scan s ['\''] ++ ["environment".toList] := by
  have text : Value.escape ("-" ++ hole "environment").toList ++ ['\''] =
      '-' :: (['$', '\x7b'] ++ ("environment".toList ++ ['\x7d', '\''])) := by decide +kernel
  have word : ∀ c ∈ "environment".toList, Check.continuesName c = true := by decide +kernel
  have name : ({ word := "environment".toList } : Scanner).name false = ["environment".toList] := by
    decide +kernel
  -- wherever the text stands, its brace opens a hole
  obtain ⟨places, opened, quiet⟩ : ∃ places,
      behind (s.next '-') ['$', '\x7b'] = { places := .hole :: places } ∧
        passed (s.next '-') ['$', '\x7b'] = [] := by
    obtain ⟨_ | ⟨_ | _ | _ | _, outer⟩, word, member⟩ := s <;> exact ⟨_, rfl, rfl⟩
  have closed : scan { places := .hole :: places, word := "environment".toList } ['\x7d', '\''] =
      ["environment".toList] := by
    have rest : scan { places } ['\''] = [] := by
      cases places with
      | nil => rfl
      | cons place outer => cases place <;> rfl
    show ({ word := "environment".toList } : Scanner).name false ++ scan { places } ['\''] = _
    rw [name, rest, List.append_nil]
  have quote : scan (s.next '\'') [] = [] := by
    obtain ⟨_ | ⟨_ | _ | _ | _, outer⟩, word, member⟩ := s <;> rfl
  have same : s.ended '-' = s.ended '\'' := rfl
  rw [text, scan, scan_append, quiet, opened, List.nil_append, scan_append, passed_word word,
    behind_word rfl word, List.nil_append, List.nil_append, closed, same, scan, quote,
    List.append_nil]

/-- The name of a resource reads two of the parameters that all resources share, and what the
holes of the id say. -/
theorem namesOf_resourceName (id : String) :
    namesOf (Batch.resourceName id) =
      "resourcePrefix" :: quotedNames id ++ ["environment"] := by
  have front : passed (quotedAt []) (Value.escape (hole "resourcePrefix" ++ "-").toList) =
        ["resourcePrefix".toList] ∧
      behind (quotedAt []) (Value.escape (hole "resourcePrefix" ++ "-").toList) = quotedAt [] := by
    decide +kernel
  have parts : hole "resourcePrefix" ++ "-" ++ id ++ "-" ++ hole "environment" =
      hole "resourcePrefix" ++ "-" ++ id ++ ("-" ++ hole "environment") := String.append_assoc
  have whole : Value.escape (hole "resourcePrefix" ++ "-" ++ id ++ "-" ++
        hole "environment").toList ++ ['\''] =
      Value.escape (hole "resourcePrefix" ++ "-").toList ++ (Value.escape id.toList ++
        (Value.escape ("-" ++ hole "environment").toList ++ ['\''])) := by
    rw [parts, String.toList_append, String.toList_append, escape_append, escape_append,
      List.append_assoc, List.append_assoc]
  rw [Batch.resourceName, namesOf, quotedNames, namesIn, scan_inQuotes, whole, scan_append,
    front.1, front.2, scan_append, scan_environment, ← List.append_assoc (passed _ _),
    ← scan_append, List.map_append, List.map_append, quotedNames, namesIn, scan_inQuotes]
  rfl

end BicepForge.Assembly
