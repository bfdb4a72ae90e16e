import BicepForge.Proofs.Json.Keys

/-!
# Replaced API versions

A schema with an object for its `apiVersion` property can be given other API versions. They are what
it offers then, and the rest of the document stays: what stands under other keys, and the order of
keys in every object but that one.
-/

namespace BicepForge

/-! ## Paths -/

namespace Json

/-- The keys of the object that is reached by following keys, in their order. -/
def keysAt? (path : List String) (v : Json) : Option (List String) :=
  ((v.path? path).bind asObject?).map Entries.keys

theorem path?_nil (v : Json) : v.path? [] = some v := rfl

theorem path?_cons (key : String) (path : List String) (v : Json) :
    v.path? (key :: path) = (v.get? key).bind (path? path) := by
  have lost (path : List String) :
      path.foldl (fun found key => found.bind (get? key)) none = none := by
    induction path with
    | nil => rfl
    | cons key path ih => exact ih
  show path.foldl _ (v.get? key) = _
  cases v.get? key with
  | none => exact lost path
  | some w => rfl

theorem eq_obj_of_asObject? {v : Json} {entries : List (String × Json)}
    (h : v.asObject? = some entries) : v = .obj entries := by
  cases v with
  | obj es => rw [Option.some.inj h]
  | null | bool _ | num _ | str _ | arr _ => cases h

theorem exists_of_get? {key : String} {v w : Json} (h : v.get? key = some w) :
    ∃ entries, v = .obj entries := by
  cases v with
  | obj entries => exact ⟨entries, rfl⟩
  | null | bool _ | num _ | str _ | arr _ => cases h

section Put

variable (key : String) (v : Json) (entries : List (String × Json)) (path : List String)

theorem path?_put_self :
    (Json.obj (Entries.put key v entries)).path? (key :: path) = v.path? path := by
  rw [path?_cons, get?, Entries.lookup_put_self]
  rfl

/-- What is put under one key changes nothing under another. -/
theorem path?_put_of_ne {other : String} (h : other ≠ key) :
    (Json.obj (Entries.put key v entries)).path? (other :: path) =
      (Json.obj entries).path? (other :: path) := by
  rw [path?_cons, path?_cons, get?, get?, Entries.lookup_put_of_ne h]

end Put

end Json

/-- The keys that lead to the API versions in a schema. -/
def apiVersionPath : List String := ["properties", "apiVersion"]

/-- Whether a path leads to, or into, one of the keywords by which a schema says its API
versions. -/
def LeadsToVersions (path : List String) : Prop :=
  apiVersionPath ++ ["const"] <+: path ∨ apiVersionPath ++ ["enum"] <+: path

/-- A document with other API versions: they are its choices in place of any constant, all values
that do not hold these keywords are the same, and so is the order of keys in all other objects. -/
structure VersionsReplaced (versions : List String) (before after : Json) : Prop where
  choices : after.path? (apiVersionPath ++ ["enum"]) = some (.arr (versions.map .str))
  constant : after.path? (apiVersionPath ++ ["const"]) = none
  values : ∀ path, ¬ path <+: apiVersionPath → ¬ LeadsToVersions path →
    after.path? path = before.path? path
  order : ∀ path, path ≠ apiVersionPath → ¬ LeadsToVersions path →
    after.keysAt? path = before.keysAt? path

namespace ResourceSchema

/-- The objects on the way to the API versions of a schema. -/
structure Way (s : ResourceSchema) (top properties keywords : List (String × Json)) : Prop where
  whole : s.document = .obj top
  inTop : top.lookup "properties" = some (.obj properties)
  inProperties : properties.lookup "apiVersion" = some (.obj keywords)

/-- The keywords of a property with other choices. -/
def chooseAmong (versions : List String) (keywords : List (String × Json)) :
    List (String × Json) :=
  Entries.put "enum" (.arr (versions.map .str)) (Entries.swapRemove "const" keywords)

/-- The document with other choices of API versions. -/
def rebuilt (versions : List String) (top properties keywords : List (String × Json)) : Json :=
  .obj (Entries.put "properties"
    (.obj (Entries.put "apiVersion" (.obj (chooseAmong versions keywords)) properties)) top)

variable {s t : ResourceSchema} {versions : List String}

/-! ## Where API versions can be replaced -/

/-- API versions are replaced where there is a way to them, and only there. -/
theorem withApiVersions?_eq_some_iff :
    s.withApiVersions? versions = some t ↔
      ∃ top properties keywords, s.Way top properties keywords ∧
        t = ⟨rebuilt versions top properties keywords⟩ := by
  constructor
  · intro made
    unfold withApiVersions? at made
    split at made
    · rename_i top whole
      split at made
      · rename_i properties inTop
        split at made
        · rename_i keywords inProperties
          exact ⟨top, properties, keywords, ⟨whole, inTop, inProperties⟩,
            (Option.some.inj made).symm⟩
        · cases made
      · cases made
    · cases made
  · rintro ⟨top, properties, keywords, way, rfl⟩
    simp only [withApiVersions?, way.whole, way.inTop, way.inProperties]
    rfl

section Way

variable {top properties keywords : List (String × Json)} (way : s.Way top properties keywords)
include way

theorem Way.path?_properties (path : List String) :
    s.document.path? ("properties" :: path) = (Json.obj properties).path? path := by
  rw [way.whole, Json.path?_cons, Json.get?, way.inTop]
  rfl

theorem Way.path?_apiVersion (path : List String) :
    (Json.obj properties).path? ("apiVersion" :: path) = (Json.obj keywords).path? path := by
  rw [Json.path?_cons, Json.get?, way.inProperties]
  rfl

end Way

/-- There is a way exactly to where an object is found. -/
theorem exists_way_iff {keywords : List (String × Json)} :
    (∃ top properties, s.Way top properties keywords) ↔
      s.document.path? apiVersionPath = some (.obj keywords) := by
  constructor
  · rintro ⟨top, properties, way⟩
    rw [apiVersionPath, way.path?_properties, way.path?_apiVersion, Json.path?_nil]
  · intro found
    rw [apiVersionPath, Json.path?_cons, Option.bind_eq_some_iff] at found
    obtain ⟨inner, inTop, found⟩ := found
    rw [Json.path?_cons, Option.bind_eq_some_iff] at found
    obtain ⟨w, inProperties, same⟩ := found
    obtain rfl := Option.some.inj same
    obtain ⟨top, whole⟩ := Json.exists_of_get? inTop
    obtain ⟨properties, rfl⟩ := Json.exists_of_get? inProperties
    rw [whole] at inTop
    exact ⟨top, properties, whole, inTop, inProperties⟩

/-- API versions can be replaced exactly if there is an object for them. -/
theorem isSome_withApiVersions?_iff :
    (s.withApiVersions? versions).isSome = true ↔
      ∃ keywords, s.document.path? apiVersionPath = some (.obj keywords) := by
  rw [Option.isSome_iff_exists]
  constructor
  · rintro ⟨t, made⟩
    obtain ⟨top, properties, keywords, way, -⟩ := withApiVersions?_eq_some_iff.mp made
    exact ⟨keywords, exists_way_iff.mp ⟨top, properties, way⟩⟩
  · rintro ⟨keywords, found⟩
    obtain ⟨top, properties, way⟩ := exists_way_iff.mpr found
    exact ⟨_, withApiVersions?_eq_some_iff.mpr ⟨top, properties, keywords, way, rfl⟩⟩

/-- A schema that offers a version has an object to offer it in. -/
theorem isSome_withApiVersions?_of_offers (offers : s.apiVersions ≠ []) :
    (s.withApiVersions? versions).isSome = true := by
  rw [isSome_withApiVersions?_iff]
  unfold apiVersions at offers
  split at offers
  · exact absurd rfl offers
  · rename_i v found
    have reached : s.document.path? apiVersionPath = some v := by
      obtain ⟨properties, object, inProperties⟩ := Option.bind_eq_some_iff.mp found
      obtain ⟨w, inTop, entries⟩ := Option.bind_eq_some_iff.mp object
      obtain rfl := Json.eq_obj_of_asObject? entries
      rw [apiVersionPath, Json.path?_cons, inTop, Option.bind_some, Json.path?_cons, Json.get?,
        inProperties]
      rfl
    cases v with
    | obj keywords => exact ⟨keywords, reached⟩
    | null | bool _ | num _ | str _ | arr _ => exact absurd rfl offers

/-! ## What a schema with other API versions says -/

section Replaced

variable (made : s.withApiVersions? versions = some t)
include made

/-- The properties of the new schema are the old ones, but for one. -/
theorem exists_properties_of_replaced :
    ∃ properties keywords, s.properties? = some properties ∧
      t.properties? = some (Entries.put "apiVersion" (.obj (chooseAmong versions keywords))
        properties) := by
  obtain ⟨top, properties, keywords, way, rfl⟩ := withApiVersions?_eq_some_iff.mp made
  refine ⟨properties, keywords, ?_, ?_⟩
  · rw [properties?, Json.object?, way.whole, Json.get?, way.inTop]
    rfl
  · rw [properties?, Json.object?, rebuilt, Json.get?, Entries.lookup_put_self]
    rfl

theorem property?_of_replaced {name : String} (h : name ≠ "apiVersion") :
    t.property? name = s.property? name := by
  obtain ⟨properties, keywords, old, new⟩ := exists_properties_of_replaced made
  rw [property?, property?, old, new]
  exact Entries.lookup_put_of_ne h _ _

theorem resourceType?_of_replaced : t.resourceType? = s.resourceType? := by
  rw [resourceType?, resourceType?, property?_of_replaced made (by decide)]

theorem settings?_of_replaced : t.settings? = s.settings? := by
  rw [settings?, settings?, property?_of_replaced made (by decide)]

/-- The new schema offers the new versions. -/
theorem apiVersions_of_replaced : t.apiVersions = versions := by
  obtain ⟨properties, keywords, -, new⟩ := exists_properties_of_replaced made
  have property : t.property? "apiVersion" = some (.obj (chooseAmong versions keywords)) := by
    rw [property?, new]
    exact Entries.lookup_put_self _ _ _
  have choices : (Json.obj (chooseAmong versions keywords)).array? "enum" =
      some (versions.map .str) := by
    rw [Json.array?, Json.get?, chooseAmong, Entries.lookup_put_self]
    rfl
  simp only [apiVersions, property, choices, List.filterMap_map]
  exact List.filterMap_some

end Replaced

/-! ## What stays -/

section Kept

variable {top properties keywords : List (String × Json)} (way : s.Way top properties keywords)
  (distinct : s.document.hasDistinctKeys = true)
include way distinct

/-- No object on the way has a key twice. -/
theorem Way.distinct_objects :
    Json.Distinct top ∧ Json.Distinct properties ∧ Json.Distinct keywords := by
  rw [way.whole, Json.hasDistinctKeys_obj_iff] at distinct
  have inner := (Json.hasDistinctKeys_obj_iff properties).mp (distinct.lookup way.inTop)
  have words := (Json.hasDistinctKeys_obj_iff keywords).mp (inner.lookup way.inProperties)
  exact ⟨distinct, inner, words⟩

theorem Way.hasDistinctKeys_rebuilt :
    (rebuilt versions top properties keywords).hasDistinctKeys = true := by
  obtain ⟨outer, inner, words⟩ := way.distinct_objects distinct
  have strings : (Json.arr (versions.map Json.str)).hasDistinctKeys = true := by
    rw [Json.hasDistinctKeys_arr_iff, List.forall_mem_map]
    exact fun _ _ => rfl
  refine (Json.hasDistinctKeys_obj_iff _).mpr (outer.put ?_ _)
  refine (Json.hasDistinctKeys_obj_iff _).mpr (inner.put ?_ _)
  exact (Json.hasDistinctKeys_obj_iff _).mpr ((words.swapRemove _).put strings _)

/-- A path that leaves the way to the versions reaches what it reached before. -/
theorem Way.path?_rebuilt {path : List String} (outside : ¬ path <+: apiVersionPath)
    (apart : ¬ LeadsToVersions path) :
    (rebuilt versions top properties keywords).path? path = s.document.path? path := by
  obtain ⟨-, -, words⟩ := way.distinct_objects distinct
  -- it leaves the way at one of the three objects
  rcases path with _ | ⟨first, path⟩
  · exact absurd List.nil_prefix outside
  rcases ne_or_eq first "properties" with other | rfl
  · rw [rebuilt, Json.path?_put_of_ne _ _ _ _ other, way.whole]
  rw [rebuilt, Json.path?_put_self, way.path?_properties]
  rcases path with _ | ⟨second, path⟩
  · exact absurd (by decide) outside
  rcases ne_or_eq second "apiVersion" with other | rfl
  · rw [Json.path?_put_of_ne _ _ _ _ other]
  rw [Json.path?_put_self, way.path?_apiVersion, chooseAmong]
  rcases path with _ | ⟨third, path⟩
  · exact absurd (by decide) outside
  have notConst : third ≠ "const" := by
    rintro rfl
    exact apart (.inl ⟨path, rfl⟩)
  have notEnum : third ≠ "enum" := by
    rintro rfl
    exact apart (.inr ⟨path, rfl⟩)
  rw [Json.path?_put_of_ne _ _ _ _ notEnum, Json.path?_cons, Json.path?_cons, Json.get?, Json.get?,
    Entries.lookup_swapRemove_of_ne words.keys "const" notConst]

omit distinct in
/-- The objects on the way keep their keys in order, up to the one with the versions. -/
theorem Way.keysAt?_rebuilt {path : List String} (inside : path <+: apiVersionPath)
    (other : path ≠ apiVersionPath) :
    (rebuilt versions top properties keywords).keysAt? path = s.document.keysAt? path := by
  have cases : path = [] ∨ path = ["properties"] := by
    rcases path with _ | ⟨first, _ | ⟨second, path⟩⟩
    · exact .inl rfl
    · rw [apiVersionPath, List.cons_prefix_cons] at inside
      exact .inr (congrArg ([·]) inside.1)
    · rw [apiVersionPath, List.cons_prefix_cons, List.cons_prefix_cons, List.prefix_nil] at inside
      obtain ⟨rfl, rfl, rfl⟩ := inside
      exact absurd rfl other
  rcases cases with rfl | rfl
  · have mem := List.mem_map_of_mem (f := Prod.fst) (Entries.mem_of_lookup way.inTop)
    show some (Entries.keys _) = _
    rw [Entries.keys_put_of_mem mem, way.whole]
    rfl
  · have mem := List.mem_map_of_mem (f := Prod.fst) (Entries.mem_of_lookup way.inProperties)
    rw [Json.keysAt?, Json.keysAt?, rebuilt, Json.path?_put_self, way.path?_properties]
    show some (Entries.keys _) = _
    rw [Entries.keys_put_of_mem mem]
    rfl

theorem Way.versionsReplaced :
    VersionsReplaced versions s.document (rebuilt versions top properties keywords) where
  choices := by
    rw [rebuilt, apiVersionPath, List.cons_append, Json.path?_put_self, List.cons_append,
      Json.path?_put_self, List.nil_append, chooseAmong, Json.path?_put_self, Json.path?_nil]
  constant := by
    obtain ⟨-, -, words⟩ := way.distinct_objects distinct
    rw [rebuilt, apiVersionPath, List.cons_append, Json.path?_put_self, List.cons_append,
      Json.path?_put_self, List.nil_append, chooseAmong, Json.path?_put_of_ne _ _ _ _ (by decide),
      Json.path?_cons, Json.get?, Entries.lookup_swapRemove_self words.keys]
    rfl
  values path outside apart := way.path?_rebuilt distinct outside apart
  order path other apart := by
    by_cases inside : path <+: apiVersionPath
    · exact way.keysAt?_rebuilt inside other
    · rw [Json.keysAt?, way.path?_rebuilt distinct inside apart, Json.keysAt?]

end Kept

section Distinct

variable (distinct : s.document.hasDistinctKeys = true)
  (made : s.withApiVersions? versions = some t)
include distinct made

/-- A schema with other API versions has distinct keys as well. -/
theorem hasDistinctKeys_withApiVersions? : t.document.hasDistinctKeys = true := by
  obtain ⟨top, properties, keywords, way, rfl⟩ := withApiVersions?_eq_some_iff.mp made
  exact way.hasDistinctKeys_rebuilt distinct

/-- Nothing but the API versions is replaced. -/
theorem versionsReplaced : VersionsReplaced versions s.document t.document := by
  obtain ⟨top, properties, keywords, way, rfl⟩ := withApiVersions?_eq_some_iff.mp made
  exact way.versionsReplaced distinct

end Distinct

end ResourceSchema

end BicepForge
