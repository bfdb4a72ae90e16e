import BicepForge.Metadata
import BicepForge.Proofs.Text.ByteOrder

/-!
# Sound caches

A sound answer names its API versions in order and names none for a type that does not exist. A
cache is sound if all its answers are and each stands under the type it is about, with no type
twice. Keeping a sound answer and restoring sound answers leave a cache sound, and what a sound
cache holds is all in its snapshot.
-/

namespace BicepForge

/-- An answer that may be kept. -/
structure CachedType.Sound (info : CachedType) : Prop where
  sorted : Text.Sorted info.apiVersions
  vacant : info.present = false → info.apiVersions = []

/-- A cache that holds sound answers, each under its own type. -/
structure Cache.Sound (c : Cache) : Prop where
  keyed : ∀ e ∈ c.entries, e.1 = e.2.type
  distinct : (Entries.keys c.entries).Nodup
  sound : ∀ e ∈ c.entries, e.2.Sound

namespace Cache

variable {c : Cache} {info : CachedType} {infos : List CachedType} {type : String}

theorem sound_empty : Cache.empty.Sound where
  keyed := by
    intro e he
    cases he
  distinct := List.nodup_nil
  sound := by
    intro e he
    cases he

theorem get?_ne_none (kept : c.get? type = some info) : c.get? type ≠ none :=
  Option.ne_none_iff_exists'.mpr ⟨info, kept⟩

/-! ## Keeping answers -/

/-- A new answer is added at the end and changes no other. -/
theorem entries_insert_of_get?_eq_none (h : c.get? info.type = none) :
    (c.insert info).entries = c.entries ++ [(info.type, info)] :=
  Entries.put_of_notMem (Entries.lookup_eq_none_iff.mp h) info

theorem Sound.insert (h : c.Sound) (hi : info.Sound) : (c.insert info).Sound where
  keyed := by
    intro e he
    rcases Entries.mem_of_mem_put he with rfl | he
    · rfl
    · exact h.keyed e he
  distinct := Entries.nodup_keys_put h.distinct info.type info
  sound := by
    intro e he
    rcases Entries.mem_of_mem_put he with rfl | he
    · exact hi
    · exact h.sound e he

theorem Sound.of_get? (h : c.Sound) (found : c.get? type = some info) :
    info.type = type ∧ info.Sound := by
  have mem : (type, info) ∈ c.entries := Entries.mem_of_lookup found
  exact ⟨(h.keyed _ mem).symm, h.sound _ mem⟩

/-! ## Snapshots -/

theorem perm_snapshot (c : Cache) : c.snapshot.Perm (c.entries.map (·.2)) :=
  List.mergeSort_perm _ _

theorem Sound.snapshot (h : c.Sound) : ∀ info ∈ c.snapshot, info.Sound := by
  intro info mem
  obtain ⟨e, he, rfl⟩ := List.mem_map.mp (c.perm_snapshot.mem_iff.mp mem)
  exact h.sound e he

theorem Sound.restore (h : c.Sound) (hi : ∀ info ∈ infos, info.Sound) :
    (c.restore infos).Sound := by
  induction infos generalizing c with
  | nil => exact h
  | cons info infos ih =>
    rw [List.forall_mem_cons] at hi
    exact ih (h.insert hi.1) hi.2

/-- Restoring answers about other types does not touch what is kept about a type. -/
theorem get?_restore_of_forall_ne (h : ∀ info ∈ infos, info.type ≠ type) :
    (c.restore infos).get? type = c.get? type := by
  induction infos generalizing c with
  | nil => rfl
  | cons info infos ih =>
    rw [List.forall_mem_cons] at h
    exact (ih h.2).trans (get?_insert_of_ne c (Ne.symm h.1))

/-- Answers about different new types are restored one after the other. -/
theorem entries_restore (distinct : (infos.map (·.type)).Nodup)
    (new : ∀ info ∈ infos, info.type ∉ Entries.keys c.entries) :
    (c.restore infos).entries = c.entries ++ infos.map fun info => (info.type, info) := by
  induction infos generalizing c with
  | nil => exact (List.append_nil _).symm
  | cons info infos ih =>
    rw [List.map_cons, List.nodup_cons] at distinct
    rw [List.forall_mem_cons] at new
    have added : (c.insert info).entries = c.entries ++ [(info.type, info)] :=
      Entries.put_of_notMem new.1 info
    -- the rest is new to the cache as it has become, too, since no type comes twice
    have later : ∀ other ∈ infos, other.type ∉ Entries.keys (c.insert info).entries := by
      intro other ho mem
      rw [added, Entries.keys, List.map_append, List.mem_append] at mem
      rcases mem with mem | mem
      · exact new.2 other ho mem
      · rw [List.map_singleton, List.mem_singleton] at mem
        have same : other.type = info.type := mem
        exact distinct.1 (same ▸ List.mem_map_of_mem ho)
    calc (c.restore (info :: infos)).entries
        = (c.insert info).entries ++ infos.map fun info => (info.type, info) := ih distinct.2 later
      _ = c.entries ++ (info :: infos).map fun info => (info.type, info) := by
        rw [added, List.append_assoc, List.map_cons, List.singleton_append]

/-- An empty cache takes all that a snapshot of a sound cache holds, and nothing else. -/
theorem Sound.perm_restore_snapshot (h : c.Sound) :
    (empty.restore c.snapshot).entries.Perm c.entries := by
  have own : c.entries.map (fun e => (e.2.type, e.2)) = c.entries := by
    conv => rhs; rw [← List.map_id c.entries]
    refine List.map_congr_left fun e he => Prod.ext ?_ rfl
    exact (h.keyed e he).symm
  have types : (c.entries.map (·.2)).map (·.type) = Entries.keys c.entries := by
    rw [List.map_map]
    exact List.map_congr_left fun e he => (h.keyed e he).symm
  have distinct : (c.snapshot.map (·.type)).Nodup := by
    rw [(c.perm_snapshot.map (·.type)).nodup_iff, types]
    exact h.distinct
  have restored := entries_restore (c := empty) distinct fun _ _ mem => by cases mem
  rw [restored]
  have same := c.perm_snapshot.map fun info => (info.type, info)
  rw [List.map_map] at same
  exact same.trans (List.Perm.of_eq own)

/-- Caches with the same entries answer alike. -/
theorem get?_eq_of_perm {other : Cache} (distinct : (Entries.keys c.entries).Nodup)
    (h : other.entries.Perm c.entries) (type : String) : other.get? type = c.get? type := by
  have keys : (Entries.keys other.entries).Perm (Entries.keys c.entries) :=
    h.map Prod.fst
  have too : (Entries.keys other.entries).Nodup := keys.nodup_iff.mpr distinct
  refine Option.ext fun info => ?_
  rw [get?, get?, Entries.lookup_eq_some_iff too, Entries.lookup_eq_some_iff distinct, h.mem_iff]

end Cache

end BicepForge
