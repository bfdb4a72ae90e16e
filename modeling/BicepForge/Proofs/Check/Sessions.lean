import BicepForge.Proofs.Check.Consultation

/-!
# Sessions of checks

In a session types are checked and schemas are scaffolded, the cache is cleared, photographed and
restored, and the provider and the time may become anything in between. Main statement: whatever is
done in a session that begins with an empty cache, the cache stays sound, so the last version of a
live result is the greatest; and a live result is repeated, without a question, until its answer is
cleared or restored.
-/

namespace BicepForge

/-- What surrounds a run and may change at any time: the provider, if there is one, and the time. -/
structure Surroundings where
  provider? : Option Provider
  now : Instant

/-- The context with other surroundings. -/
def Context.within (c : Context) (s : Surroundings) : Context :=
  { c with provider? := s.provider?, now := s.now }

namespace Check

/-- What may be done in a session. -/
inductive Action where
  | check (type : String) (schema : ResourceSchema)
  | scaffold (type : String)
  | clear
  | snapshot
  /-- Restores the snapshot of a number, the first one being number zero. -/
  | restore (number : Nat)
  | change (surroundings : Surroundings)

/-- A context with the snapshots that were taken of its cache. -/
structure Session where
  context : Context
  snapshots : List (List CachedType)

namespace Session

def start (c : Context) : Session :=
  ⟨{ c with cache := .empty }, []⟩

def withCache (s : Session) (cache : Cache) : Session :=
  { s with context := { s.context with cache } }

/-- The session after an action. A number without a snapshot restores nothing. -/
def act (s : Session) : Action → Session
  | .check type schema => { s with context := (checkType s.context type schema).2 }
  | .scaffold type => { s with context := (Scaffold.run s.context type).2 }
  | .clear => s.withCache .empty
  | .snapshot => { s with snapshots := s.snapshots ++ [s.context.cache.snapshot] }
  | .restore number =>
    match s.snapshots[number]? with
    | none => s
    | some infos => s.withCache (s.context.cache.restore infos)
  | .change surroundings => { s with context := s.context.within surroundings }

def run (s : Session) (actions : List Action) : Session :=
  actions.foldl act s

/-- An action neither clears nor overwrites what is kept about a type. -/
def Spares (s : Session) (type : String) : Action → Prop
  | .clear => False
  | .restore number => ∀ infos, s.snapshots[number]? = some infos → ∀ info ∈ infos, info.type ≠ type
  | _ => True

/-- None of several actions clears or overwrites what is kept about a type. -/
def SparesThroughout (s : Session) (type : String) : List Action → Prop
  | [] => True
  | action :: rest => s.Spares type action ∧ (s.act action).SparesThroughout type rest

end Session

/-! ## Checks and the cache -/

section Checks

variable {c : Context} {type : String} {info : CachedType}

/-- A check leaves a sound cache sound, whatever the provider says. -/
theorem sound_cache_checkType (h : c.cache.Sound) (type : String) (schema : ResourceSchema) :
    (checkType c type schema).2.cache.Sound := by
  cases way c type with
  | unasked none =>
    rw [checkType_unasked none]
    exact h
  | kept p ask info kept =>
    rw [checkType_kept ask kept]
    exact h
  | failed p ask missing e fails =>
    rw [checkType_failed ask missing fails]
    exact h
  | learned p ask missing a answers =>
    rw [checkType_learned ask missing answers]
    exact h.insert (answers.sound c.now)

/-- A check never touches an answer that is kept. -/
theorem get?_cache_checkType (found : c.cache.get? type = some info) (other : String)
    (schema : ResourceSchema) : (checkType c other schema).2.cache.get? type = some info := by
  cases way c other with
  | unasked none =>
    rw [checkType_unasked none]
    exact found
  | kept p ask info kept =>
    rw [checkType_kept ask kept]
    exact found
  | failed p ask missing e fails =>
    rw [checkType_failed ask missing fails]
    exact found
  | learned p ask missing a answers =>
    rw [checkType_learned ask missing answers]
    have different : type ≠ other := by
      rintro rfl
      exact Cache.get?_ne_none found missing
    exact (Cache.get?_insert_of_ne c.cache different).trans found

/-- What a live result says is kept after the check. -/
theorem exists_get?_of_live {schema : ResourceSchema}
    (live : (checkType c type schema).1.source = .live) :
    ∃ info, (checkType c type schema).2.cache.get? type = some info ∧
      info.present = (checkType c type schema).1.known ∧
      info.apiVersions = (checkType c type schema).1.available := by
  cases way c type with
  | unasked none =>
    rw [checkType_unasked none] at live
    cases live
  | kept p ask info kept =>
    rw [checkType_kept ask kept]
    exact ⟨info, kept, rfl, rfl⟩
  | failed p ask missing e fails =>
    rw [checkType_failed ask missing fails] at live
    cases live
  | learned p ask missing a answers =>
    rw [checkType_learned ask missing answers]
    exact ⟨_, Cache.get?_insert_self _ _, rfl, rfl⟩

end Checks

/-! ## Sound sessions -/

/-- The cache of a session is sound, and so is all that can be restored. -/
structure Session.Sound (s : Session) : Prop where
  cache : s.context.cache.Sound
  snapshots : ∀ infos ∈ s.snapshots, ∀ info ∈ infos, info.Sound

namespace Session

variable {s : Session} {type : String} {info : CachedType}

theorem sound_start (c : Context) : (start c).Sound where
  cache := Cache.sound_empty
  snapshots := by
    intro infos mem
    cases mem

/-- Every action leaves a sound session sound. -/
theorem Sound.act (h : s.Sound) (action : Action) : (s.act action).Sound := by
  cases action with
  | check type schema => exact ⟨sound_cache_checkType h.cache type schema, h.snapshots⟩
  | scaffold type =>
    refine ⟨?_, h.snapshots⟩
    show (Scaffold.run s.context type).2.cache.Sound
    rw [cache_scaffold]
    exact h.cache
  | clear => exact ⟨Cache.sound_empty, h.snapshots⟩
  | snapshot =>
    refine ⟨h.cache, ?_⟩
    intro infos mem
    rcases List.mem_append.mp mem with mem | mem
    · exact h.snapshots infos mem
    · rw [List.mem_singleton.mp mem]
      exact h.cache.snapshot
  | restore number =>
    rw [Session.act]
    split
    · exact h
    · rename_i infos found
      have taken := List.mem_of_getElem? found
      exact ⟨h.cache.restore (h.snapshots infos taken), h.snapshots⟩
  | change surroundings => exact ⟨h.cache, h.snapshots⟩

/-- So do several. -/
theorem Sound.run (h : s.Sound) (actions : List Action) : (s.run actions).Sound := by
  -- the snapshots are part of what is carried along, since any later action may restore one
  induction actions generalizing s with
  | nil => exact h
  | cons action actions ih => exact ih (h.act action)

/-! ## Answers that stay -/

/-- An answer that an action spares is still kept after it. -/
theorem get?_act (found : s.context.cache.get? type = some info) {action : Action}
    (spared : s.Spares type action) : (s.act action).context.cache.get? type = some info := by
  cases action with
  | check other schema => exact get?_cache_checkType found other schema
  | scaffold other =>
    show (Scaffold.run s.context other).2.cache.get? type = some info
    rw [cache_scaffold]
    exact found
  | clear => cases spared
  | snapshot => exact found
  | restore number =>
    rw [Session.act]
    split
    · exact found
    · rename_i infos taken
      exact (Cache.get?_restore_of_forall_ne (spared infos taken)).trans found
  | change surroundings => exact found

/-- It stays as long as every action spares it. -/
theorem get?_run (found : s.context.cache.get? type = some info) {actions : List Action}
    (spared : s.SparesThroughout type actions) :
    (s.run actions).context.cache.get? type = some info := by
  induction actions generalizing s with
  | nil => exact found
  | cons action actions ih => exact ih (get?_act found spared.1) spared.2

end Session

/-! ## What a session can rely on -/

/-- What can be relied on at every moment of a session. -/
structure Dependable (s : Session) : Prop where
  /-- Every answer stands under its own type, with its versions in the order of their bytes, and
  with none if the type does not exist. -/
  entries : ∀ e ∈ s.context.cache.entries, e.1 = e.2.type ∧ Text.Sorted e.2.apiVersions ∧
    (e.2.present = false → e.2.apiVersions = [])
  /-- The last version of a live result is its greatest. -/
  latest : ∀ type schema, let result := (checkType s.context type schema).1
    result.source = .live → ∀ version,
      result.latest? = some version ↔ IsGreatest {v | v ∈ result.available} version
  /-- After a live result, and whatever is done then that spares its answer, a check of the type
  asks nobody and repeats the result for any schema, whatever has become of the provider, as long
  as there is one that could be asked. -/
  repeats : ∀ type schema actions p later,
    let first := (checkType s.context type schema).1
    let context := ((s.act (.check type schema)).run actions).context
    first.source = .live → (s.act (.check type schema)).SparesThroughout type actions →
      context.CanAsk p →
        (checkType context type later).2 = context ∧
          (checkType context type later).1.source = first.source ∧
          (checkType context type later).1.known = first.known ∧
          (checkType context type later).1.available = first.available
  /-- An empty cache that takes the snapshot has the same entries and answers alike. -/
  restores : (Cache.empty.restore s.context.cache.snapshot).entries.Perm s.context.cache.entries ∧
    ∀ type, (Cache.empty.restore s.context.cache.snapshot).get? type = s.context.cache.get? type

variable {s : Session}

theorem latest?_eq_some_iff (h : s.Sound) {type : String} {schema : ResourceSchema}
    (live : (checkType s.context type schema).1.source = .live) {version : String} :
    (checkType s.context type schema).1.latest? = some version ↔
      IsGreatest {v | v ∈ (checkType s.context type schema).1.available} version := by
  obtain ⟨info, found, -, same⟩ := exists_get?_of_live live
  have after := sound_cache_checkType h.cache type schema
  have sorted : Text.Sorted (checkType s.context type schema).1.available :=
    same ▸ (after.of_get? found).2.sorted
  exact sorted.getLast?_eq_some_iff

/-- Whatever is done in a session that begins with an empty cache, it can be relied on. -/
theorem run_dependable (c : Context) (actions : List Action) :
    Dependable ((Session.start c).run actions) := by
  have sound : ((Session.start c).run actions).Sound := (Session.sound_start c).run actions
  have perm := sound.cache.perm_restore_snapshot
  refine ⟨?_, ?_, ?_, perm, Cache.get?_eq_of_perm sound.cache.distinct perm⟩
  · intro e mem
    have info := sound.cache.sound e mem
    exact ⟨sound.cache.keyed e mem, info.sorted, info.vacant⟩
  · intro type schema result live version
    exact latest?_eq_some_iff sound live
  · intro type schema later p other first context live spared ask
    obtain ⟨info, found, present, versions⟩ := exists_get?_of_live live
    have kept : context.cache.get? type = some info := Session.get?_run found spared
    rw [checkType_kept ask kept, live]
    exact ⟨rfl, rfl, present, versions⟩

end Check

end BicepForge
