/-!
# Entry lists

Values under text keys, in the order in which the keys first came. They hold the entries of JSON
objects and of every table that is looked up by name. Main statements: what is put in is found
again, and no other key is touched.
-/

namespace BicepForge

/-- Values under keys, in order; looking up finds the first entry of a key. -/
abbrev Entries (α : Type) := List (String × α)

namespace Entries

variable {α : Type}

/-- Binds `key` to `value`: a key that is there keeps its place, a new one goes to the end. -/
def put (key : String) (value : α) : Entries α → Entries α
  | [] => [(key, value)]
  | (k, v) :: rest => if k = key then (key, value) :: rest else (k, v) :: put key value rest

/-- Removes `key`; the last entry moves into the gap. -/
def swapRemove (key : String) (entries : Entries α) : Entries α :=
  match entries.span (fun e => e.1 != key) with
  | (_, []) => entries
  | (front, _ :: back) =>
    match back.getLast? with
    | none => front
    | some last => front ++ last :: back.dropLast

def keys (entries : Entries α) : List String :=
  entries.map (·.1)

@[simp] theorem lookup_put_self (key : String) (value : α) (entries : Entries α) :
    (put key value entries).lookup key = some value := by
  induction entries with
  | nil => simp [put]
  | cons e rest ih =>
    obtain ⟨k, v⟩ := e
    by_cases h : k = key
    · simp [put, h]
    · have h' : (key == k) = false := by simpa using fun e => h e.symm
      simp [put, h, List.lookup_cons, h', ih]

theorem lookup_put_of_ne {key other : String} (h : other ≠ key) (value : α)
    (entries : Entries α) : (put key value entries).lookup other = entries.lookup other := by
  induction entries with
  | nil =>
    have h' : (other == key) = false := by simpa using h
    simp [put, List.lookup_cons, h']
  | cons e rest ih =>
    obtain ⟨k, v⟩ := e
    by_cases hk : k = key
    · subst hk
      have h' : (other == k) = false := by simpa using h
      simp [put, List.lookup_cons, h']
    · by_cases ho : other = k
      · subst ho
        simp [put, hk]
      · have h' : (other == k) = false := by simpa using ho
        simp [put, hk, List.lookup_cons, h', ih]

/-- A key that is not there is put at the end. -/
theorem put_of_notMem {key : String} {entries : Entries α} (h : key ∉ keys entries) (value : α) :
    put key value entries = entries ++ [(key, value)] := by
  induction entries with
  | nil => rfl
  | cons e rest ih =>
    obtain ⟨k, v⟩ := e
    have notMem : key ≠ k ∧ key ∉ keys rest := not_or.mp (mt List.mem_cons.mpr h)
    rw [put, if_neg (Ne.symm notMem.1), ih notMem.2, List.cons_append]

/-- A key that is there stays where it is. -/
theorem keys_put_of_mem {key : String} {entries : Entries α} (h : key ∈ keys entries) (value : α) :
    keys (put key value entries) = keys entries := by
  induction entries with
  | nil => cases h
  | cons e rest ih =>
    obtain ⟨k, v⟩ := e
    by_cases hk : k = key
    · simp [put, keys, hk]
    · have mem : key ∈ keys rest := (List.mem_cons.mp h).resolve_left (Ne.symm hk)
      rw [put, if_neg hk]
      exact congrArg (k :: ·) (ih mem)

theorem nodup_keys_put {entries : Entries α} (h : (keys entries).Nodup) (key : String)
    (value : α) : (keys (put key value entries)).Nodup := by
  by_cases mem : key ∈ keys entries
  · rw [keys_put_of_mem mem]
    exact h
  · rw [put_of_notMem mem, keys, List.map_append, List.nodup_append]
    refine ⟨h, by simp, ?_⟩
    intro k hk other ho
    obtain rfl := List.mem_singleton.mp ho
    rintro rfl
    exact mem hk

/-- Putting adds at most the entry that is put. -/
theorem mem_of_mem_put {key : String} {value : α} {entries : Entries α} {e : String × α}
    (h : e ∈ put key value entries) : e = (key, value) ∨ e ∈ entries := by
  induction entries with
  | nil => exact .inl (List.mem_singleton.mp h)
  | cons first rest ih =>
    obtain ⟨k, v⟩ := first
    rw [put] at h
    split at h
    · rcases List.mem_cons.mp h with rfl | h
      · exact .inl rfl
      · exact .inr (List.mem_cons_of_mem _ h)
    · rcases List.mem_cons.mp h with rfl | h
      · exact .inr List.mem_cons_self
      · exact (ih h).imp_right (List.mem_cons_of_mem _)

theorem lookup_eq_none_iff {key : String} {entries : Entries α} :
    entries.lookup key = none ↔ key ∉ keys entries := by
  rw [List.lookup_eq_none_iff, keys, List.mem_map]
  constructor
  · rintro h ⟨e, he, rfl⟩
    simpa using h e he
  · intro h e he
    rw [bne_iff_ne]
    rintro rfl
    exact h ⟨e, he, rfl⟩

theorem mem_of_lookup {key : String} {value : α} {entries : Entries α}
    (h : entries.lookup key = some value) : (key, value) ∈ entries := by
  obtain ⟨front, back, rfl, -⟩ := List.lookup_eq_some_iff.mp h
  exact List.mem_append_right _ List.mem_cons_self

/-- Where no key comes twice, every entry is found. -/
theorem lookup_eq_some_iff {entries : Entries α} (h : (keys entries).Nodup) {key : String}
    {value : α} : entries.lookup key = some value ↔ (key, value) ∈ entries := by
  constructor
  · exact mem_of_lookup
  · intro mem
    obtain ⟨front, back, rfl⟩ := List.append_of_mem mem
    refine List.lookup_eq_some_iff.mpr ⟨front, back, rfl, ?_⟩
    intro e he
    rw [keys, List.map_append, List.nodup_append] at h
    rw [bne_iff_ne]
    exact Ne.symm (h.2.2 e.1 (List.mem_map_of_mem he) key List.mem_cons_self)

end Entries

end BicepForge
