import BicepForge.Document.ResourceSchema
import BicepForge.Json.Reader
import Mathlib.Data.List.Basic
import Mathlib.Data.List.Nodup
import Mathlib.Data.List.TakeDrop
import Mathlib.Data.List.TakeWhile

/-!
# Distinct keys

In a JSON document no object has a key twice. Entry lists could say otherwise, but what is read from
a text never does.
-/

namespace BicepForge

/-! ## Lists without two of a key -/

section Search

variable {α : Type} {key : α → String} {xs ys : List α} {k : String}

/-- Where no key comes twice, a search for a key finds its only holder. -/
theorem find?_eq_some_iff (distinct : (xs.map key).Nodup) {x : α} :
    xs.find? (key · == k) = some x ↔ x ∈ xs ∧ key x = k := by
  constructor
  · intro found
    exact ⟨List.mem_of_find?_eq_some found, by simpa using List.find?_some found⟩
  · rintro ⟨mem, rfl⟩
    have holder : (xs.find? (key · == key x)).isSome := by
      rw [List.isSome_find?, List.any_eq_true]
      exact ⟨x, mem, beq_self_eq_true _⟩
    obtain ⟨y, found⟩ := Option.isSome_iff_exists.mp holder
    have same : key y = key x := by simpa using List.find?_some found
    rw [found, List.inj_on_of_nodup_map distinct (List.mem_of_find?_eq_some found) mem same]

/-- So the order of the list makes no difference. -/
theorem find?_eq_of_perm (h : xs.Perm ys) (distinct : (xs.map key).Nodup) (k : String) :
    xs.find? (key · == k) = ys.find? (key · == k) := by
  have too : (ys.map key).Nodup := (h.map key).nodup_iff.mp distinct
  refine Option.ext fun x => ?_
  rw [find?_eq_some_iff distinct, find?_eq_some_iff too, h.mem_iff]

end Search

/-! ## Entries without two of a key -/

namespace Entries

variable {α : Type}

/-- Removing a key removes its first entry, and changes the order of the others at most. -/
theorem perm_swapRemove (key : String) (entries : Entries α) :
    (swapRemove key entries).Perm (entries.eraseP (·.1 == key)) := by
  have joined : (entries.takeWhile fun e => e.1 != key) ++
      (entries.dropWhile fun e => e.1 != key) = entries := List.takeWhile_append_dropWhile
  have passed : ∀ e ∈ entries.takeWhile fun e => e.1 != key, ¬ (e.1 == key) = true :=
    fun e mem => by simpa using List.mem_takeWhile_imp mem
  have found := List.head?_dropWhile_not (fun e : String × α => e.1 != key) entries
  unfold swapRemove
  rw [List.span_eq_takeWhile_dropWhile]
  generalize entries.takeWhile (fun e => e.1 != key) = front at joined passed
  cases rest : entries.dropWhile fun e => e.1 != key with
  | nil =>
    rw [rest, List.append_nil] at joined
    rw [← joined, List.eraseP_of_forall_not passed]
  | cons removed back =>
    rw [rest] at joined found
    have same : (removed.1 == key) = true := by simpa using found
    have kept : entries.eraseP (·.1 == key) = front ++ back := by
      rw [← joined, List.eraseP_append_right _ passed,
        List.eraseP_cons_of_pos (p := fun e : String × α => e.1 == key) same]
    rw [kept]
    dsimp only
    cases ends : back.getLast? with
    | none => rw [List.getLast?_eq_none_iff.mp ends, List.append_nil]
    | some last =>
      refine List.Perm.append_left front ?_
      have moved := (List.perm_append_singleton last back.dropLast).symm
      rwa [List.dropLast_append_getLast? last ends] at moved

section SwapRemove

variable {entries : Entries α} (distinct : (keys entries).Nodup) (key : String)
include distinct

theorem nodup_keys_swapRemove : (keys (swapRemove key entries)).Nodup := by
  have same : (keys (swapRemove key entries)).Perm (keys (entries.eraseP (·.1 == key))) :=
    (perm_swapRemove key entries).map _
  exact same.nodup_iff.mpr (distinct.sublist (List.eraseP_sublist.map _))

/-- What stands under other keys is still found, though it may have moved. -/
theorem lookup_swapRemove_of_ne {other : String} (h : other ≠ key) :
    (swapRemove key entries).lookup other = entries.lookup other := by
  refine Option.ext fun v => ?_
  have kept : ¬ (((other, v).1 == key) = true) := by simpa using h
  rw [lookup_eq_some_iff (nodup_keys_swapRemove distinct key), lookup_eq_some_iff distinct,
    (perm_swapRemove key entries).mem_iff,
    List.mem_eraseP_of_neg (p := fun e : String × α => e.1 == key) kept]

theorem lookup_swapRemove_self : (swapRemove key entries).lookup key = none := by
  have erased : keys (entries.eraseP (·.1 == key)) = (keys entries).erase key := by
    rw [keys, keys, List.erase_eq_eraseP', List.eraseP_map]
    rfl
  rw [lookup_eq_none_iff, keys, ((perm_swapRemove key entries).map (·.1)).mem_iff, ← keys, erased]
  exact distinct.not_mem_erase

end SwapRemove

end Entries

namespace Json

/-! ## Values -/

mutual
/-- Whether no object in a value has a key twice. -/
def hasDistinctKeys : Json → Bool
  | .null | .bool _ | .num _ | .str _ => true
  | .arr items => itemsHaveDistinctKeys items
  | .obj entries => decide (Entries.keys entries).Nodup && entriesHaveDistinctKeys entries
def itemsHaveDistinctKeys : List Json → Bool
  | [] => true
  | v :: vs => hasDistinctKeys v && itemsHaveDistinctKeys vs
/-- Whether no object in the values of entries has a key twice. -/
def entriesHaveDistinctKeys : List (String × Json) → Bool
  | [] => true
  | (_, v) :: es => hasDistinctKeys v && entriesHaveDistinctKeys es
end

/-- Entries of an object in which no key comes twice, not even in their values. -/
structure Distinct (entries : List (String × Json)) : Prop where
  keys : (Entries.keys entries).Nodup
  values : ∀ e ∈ entries, hasDistinctKeys e.2 = true

theorem itemsHaveDistinctKeys_iff (items : List Json) :
    itemsHaveDistinctKeys items = true ↔ ∀ v ∈ items, hasDistinctKeys v = true := by
  induction items with
  | nil => simp [itemsHaveDistinctKeys]
  | cons v vs ih => rw [itemsHaveDistinctKeys, Bool.and_eq_true, ih, List.forall_mem_cons]

theorem entriesHaveDistinctKeys_iff (entries : List (String × Json)) :
    entriesHaveDistinctKeys entries = true ↔ ∀ e ∈ entries, hasDistinctKeys e.2 = true := by
  induction entries with
  | nil => simp [entriesHaveDistinctKeys]
  | cons e es ih => rw [entriesHaveDistinctKeys, Bool.and_eq_true, ih, List.forall_mem_cons]

theorem hasDistinctKeys_arr_iff (items : List Json) :
    hasDistinctKeys (.arr items) = true ↔ ∀ v ∈ items, hasDistinctKeys v = true :=
  itemsHaveDistinctKeys_iff items

theorem hasDistinctKeys_obj_iff (entries : List (String × Json)) :
    hasDistinctKeys (.obj entries) = true ↔ Distinct entries := by
  rw [hasDistinctKeys, Bool.and_eq_true, decide_eq_true_eq, entriesHaveDistinctKeys_iff]
  exact ⟨fun h => ⟨h.1, h.2⟩, fun h => ⟨h.keys, h.values⟩⟩

namespace Distinct

variable {entries : List (String × Json)}

theorem nil : Distinct [] :=
  ⟨List.nodup_nil, by simp⟩

theorem put (h : Distinct entries) {v : Json} (hv : v.hasDistinctKeys = true) (key : String) :
    Distinct (Entries.put key v entries) where
  keys := Entries.nodup_keys_put h.keys key v
  values := by
    intro e he
    rcases Entries.mem_of_mem_put he with rfl | he
    · exact hv
    · exact h.values e he

theorem swapRemove (h : Distinct entries) (key : String) :
    Distinct (Entries.swapRemove key entries) where
  keys := Entries.nodup_keys_swapRemove h.keys key
  values := fun e he =>
    h.values e (List.mem_of_mem_eraseP ((Entries.perm_swapRemove key entries).subset he))

theorem lookup (h : Distinct entries) {key : String} {v : Json}
    (found : entries.lookup key = some v) : v.hasDistinctKeys = true :=
  h.values _ (Entries.mem_of_lookup found)

end Distinct

theorem hasDistinctKeys_get? {v w : Json} (h : v.hasDistinctKeys = true) {key : String}
    (found : v.get? key = some w) : w.hasDistinctKeys = true := by
  cases v with
  | obj entries => exact ((hasDistinctKeys_obj_iff entries).mp h).lookup found
  | null | bool _ | num _ | str _ | arr _ => cases found

theorem distinct_object? {v : Json} (h : v.hasDistinctKeys = true) {key : String}
    {entries : List (String × Json)} (found : v.object? key = some entries) : Distinct entries := by
  obtain ⟨w, value, object⟩ := Option.bind_eq_some_iff.mp found
  cases w with
  | obj es =>
    obtain rfl := Option.some.inj object
    exact (hasDistinctKeys_obj_iff es).mp (hasDistinctKeys_get? h value)
  | null | bool _ | num _ | str _ | arr _ => cases object

/-! ## Reading -/

namespace Reader

/-- What a step of a successful reading gave to the next one. -/
theorem exists_of_bind {α β : Type} {x : Step α} {f : α → Step β} {r : β}
    (h : (x >>= f) = .ok r) : ∃ a, x = .ok a ∧ f a = .ok r := by
  cases x with
  | error e => cases h
  | ok a => exact ⟨a, rfl, h⟩

theorem eq_of_word {α : Type} {value v : α} {cs s rest : List Char}
    (h : word value cs s = .ok (v, rest)) : v = value := by
  induction cs generalizing s with
  | nil => exact (Prod.mk.inj (Except.ok.inj h)).1.symm
  | cons c cs ih =>
    cases s with
    | nil => cases h
    | cons d ds =>
      rw [word] at h
      split at h
      · exact ih h
      · cases h

/-- Whatever is read within a number of steps has distinct keys; entries are put behind those that
were read before. -/
structure ReadsDistinct (fuel : Nat) : Prop where
  value : ∀ {depth s v rest}, value fuel depth s = .ok (v, rest) → v.hasDistinctKeys = true
  items : ∀ {depth s vs rest}, items fuel depth s = .ok (vs, rest) →
    ∀ v ∈ vs, v.hasDistinctKeys = true
  entries : ∀ {depth before s es rest}, entries fuel depth before s = .ok (es, rest) →
    Distinct before → Distinct es

namespace ReadsDistinct

variable {fuel : Nat} (ih : ReadsDistinct fuel)
include ih

theorem value_succ {depth : Nat} {s rest : List Char} {v : Json}
    (h : Reader.value (fuel + 1) depth s = .ok (v, rest)) : v.hasDistinctKeys = true := by
  rw [Reader.value] at h
  split at h
  · cases h
  · rw [eq_of_word h]; rfl
  · rw [eq_of_word h]; rfl
  · rw [eq_of_word h]; rfl
  · obtain ⟨⟨text, left⟩, -, made⟩ := exists_of_bind h
    rw [← (Prod.mk.inj (Except.ok.inj made)).1]; rfl
  · obtain ⟨⟨n, left⟩, -, made⟩ := exists_of_bind h
    rw [← (Prod.mk.inj (Except.ok.inj made)).1]; rfl
  · -- an array, which may be empty
    split at h
    · cases h
    · split at h
      · cases h
      · rw [← (Prod.mk.inj (Except.ok.inj h)).1]; rfl
      · obtain ⟨⟨vs, left⟩, read, made⟩ := exists_of_bind h
        rw [← (Prod.mk.inj (Except.ok.inj made)).1, hasDistinctKeys_arr_iff]
        exact ih.items read
  · -- an object, which may be empty
    split at h
    · cases h
    · split at h
      · cases h
      · rw [← (Prod.mk.inj (Except.ok.inj h)).1]; rfl
      · obtain ⟨⟨es, left⟩, read, made⟩ := exists_of_bind h
        rw [← (Prod.mk.inj (Except.ok.inj made)).1, hasDistinctKeys_obj_iff]
        exact ih.entries read .nil
  · split at h
    · obtain ⟨⟨n, left⟩, -, made⟩ := exists_of_bind h
      rw [← (Prod.mk.inj (Except.ok.inj made)).1]; rfl
    · cases h

theorem items_succ {depth : Nat} {s rest : List Char} {vs : List Json}
    (h : Reader.items (fuel + 1) depth s = .ok (vs, rest)) :
    ∀ v ∈ vs, v.hasDistinctKeys = true := by
  rw [Reader.items] at h
  obtain ⟨⟨v, left⟩, read, h⟩ := exists_of_bind h
  have first := ih.value read
  dsimp only at h
  split at h
  · cases h
  · rw [← (Prod.mk.inj (Except.ok.inj h)).1]
    exact List.forall_mem_singleton.mpr first
  · split at h
    · cases h
    · cases h
    · obtain ⟨⟨more, left⟩, read, made⟩ := exists_of_bind h
      rw [← (Prod.mk.inj (Except.ok.inj made)).1]
      exact List.forall_mem_cons.mpr ⟨first, ih.items read⟩
  · cases h

theorem entries_succ {depth : Nat} {before es : List (String × Json)} {s rest : List Char}
    (h : Reader.entries (fuel + 1) depth before s = .ok (es, rest)) (distinct : Distinct before) :
    Distinct es := by
  unfold Reader.entries at h
  split at h
  · obtain ⟨⟨key, left⟩, -, h⟩ := exists_of_bind h
    dsimp only at h
    split at h
    · cases h
    · obtain ⟨⟨v, left⟩, read, h⟩ := exists_of_bind h
      have more := distinct.put (ih.value read) key
      dsimp only at h
      split at h
      · cases h
      · rw [← (Prod.mk.inj (Except.ok.inj h)).1]
        exact more
      · split at h
        · cases h
        · cases h
        · exact ih.entries h more
      · cases h
    · cases h
  · cases h

end ReadsDistinct

theorem readsDistinct (fuel : Nat) : ReadsDistinct fuel := by
  induction fuel with
  | zero =>
    exact
      { value := fun h => by cases h
        items := fun h => by cases h
        entries := fun h => by cases h }
  | succ fuel ih => exact ⟨ih.value_succ, ih.items_succ, ih.entries_succ⟩

end Reader

/-- What is read from a text has distinct keys. -/
theorem hasDistinctKeys_of_parse {text : String} {v : Json} (h : parse text = .ok v) :
    v.hasDistinctKeys = true := by
  unfold parse Reader.document at h
  cases read : Reader.leadingValue text.toList with
  | error e =>
    rw [read] at h
    cases h
  | ok result =>
    rw [read] at h
    dsimp only at h
    cases rest : Reader.skip result.2 with
    | nil =>
      rw [rest] at h
      obtain rfl := Except.ok.inj h
      exact (Reader.readsDistinct _).value read
    | cons c cs =>
      rw [rest] at h
      cases h

end Json

/-! ## Schemas -/

namespace ResourceSchema

variable {s : ResourceSchema} (h : s.document.hasDistinctKeys = true)
include h

theorem distinct_properties? {properties : List (String × Json)}
    (found : s.properties? = some properties) : Json.Distinct properties :=
  Json.distinct_object? h found

theorem distinct_settings? {settings : List (String × Json)}
    (found : s.settings? = some settings) : Json.Distinct settings := by
  obtain ⟨property, value, object⟩ := Option.bind_eq_some_iff.mp found
  obtain ⟨properties, top, looked⟩ := Option.bind_eq_some_iff.mp value
  exact Json.distinct_object? ((distinct_properties? h top).lookup looked) object

end ResourceSchema

end BicepForge
