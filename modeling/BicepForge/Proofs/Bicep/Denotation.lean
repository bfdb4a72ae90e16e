import BicepForge.Bicep.Value
import BicepForge.Proofs.Json.Keys
import Mathlib.Data.List.Induction

/-!
# What literals stand for

A literal stands for a JSON value, and that is its JSON form; an expression stands for none, and one
expression at any depth leaves the whole value without a form. The literal of a JSON value stands
for that value, unless a number in it is no integer of 64 bits: such a number is written as an
expression.
-/

namespace BicepForge

/-! ## Keys that come again -/

namespace Entries

variable {α : Type}

/-- What remains of entries among which a key may come again: it stands where it came first and has
the value that came last. -/
structure Merged (all entries : Entries α) : Prop where
  keys : keys entries = (keys all).eraseDups
  values : ∀ key, entries.lookup key = all.reverse.lookup key

/-- Entries that are put one after the other. -/
def putAll (before all : Entries α) : Entries α :=
  all.foldl (fun entries e => put e.1 e.2 entries) before

theorem merged_putAll (all : Entries α) : Merged all (putAll [] all) := by
  induction all using List.reverseRecOn with
  | nil => exact ⟨rfl, fun _ => rfl⟩
  | append_singleton all e ih =>
    have last : putAll [] (all ++ [e]) = put e.1 e.2 (putAll [] all) := by
      rw [putAll, List.foldl_append]
      rfl
    rw [last]
    constructor
    · rw [keys, keys, List.map_append, List.eraseDups_append, ← keys, ← keys, ← ih.keys]
      by_cases known : e.1 ∈ keys (putAll [] all)
      · have old : [e.1].removeAll (keys all) = [] := by
          rw [ih.keys, List.mem_eraseDups] at known
          simp [List.removeAll, known]
        rw [keys_put_of_mem known, List.map_singleton, old, List.eraseDups_nil, List.append_nil]
      · have new : [e.1].removeAll (keys all) = [e.1] := by
          rw [ih.keys, List.mem_eraseDups] at known
          simp [List.removeAll, known]
        rw [put_of_notMem known, List.map_singleton, new, keys, List.map_append]
        rfl
    · intro key
      rw [List.reverse_append, List.reverse_singleton, List.singleton_append]
      by_cases own : key = e.1
      · rw [own, lookup_put_self, List.lookup_cons, beq_self_eq_true]
      · rw [lookup_put_of_ne own, ih.values, List.lookup_cons, beq_eq_false_iff_ne.mpr own]

theorem nodup_keys_putAll {before : Entries α} (h : (keys before).Nodup) (all : Entries α) :
    (keys (putAll before all)).Nodup := by
  induction all generalizing before with
  | nil => exact h
  | cons e all ih => exact ih (nodup_keys_put h e.1 e.2)

/-- Entries without two of a key are told by their keys and by what is found under them. -/
theorem ext_of_lookup {xs ys : Entries α} (distinct : (keys xs).Nodup) (same : keys xs = keys ys)
    (found : ∀ key, xs.lookup key = ys.lookup key) : xs = ys := by
  induction xs generalizing ys with
  | nil => exact (List.map_eq_nil_iff.mp same.symm).symm
  | cons x xs ih =>
    cases ys with
    | nil => cases same
    | cons y ys =>
      obtain ⟨k, v⟩ := x
      obtain ⟨l, w⟩ := y
      obtain ⟨rfl, rest⟩ : k = l ∧ keys xs = keys ys := List.cons.inj same
      obtain ⟨free, distinct⟩ : k ∉ keys xs ∧ (keys xs).Nodup := List.nodup_cons.mp distinct
      have values : v = w := by
        have first := found k
        rw [List.lookup_cons, List.lookup_cons, beq_self_eq_true] at first
        exact Option.some.inj first
      have others : xs = ys := by
        refine ih distinct rest fun key => ?_
        by_cases own : key = k
        · rw [own, lookup_eq_none_iff.mpr free, lookup_eq_none_iff.mpr (rest ▸ free)]
        · have second := found key
          rwa [List.lookup_cons, List.lookup_cons, beq_eq_false_iff_ne.mpr own] at second
      rw [values, others]

theorem putAll_eq_iff_merged {all entries : Entries α} :
    putAll [] all = entries ↔ Merged all entries := by
  constructor
  · rintro rfl
    exact merged_putAll all
  · intro merged
    have own := merged_putAll all
    have empty : (keys ([] : Entries α)).Nodup := List.nodup_nil
    have distinct := nodup_keys_putAll empty all
    refine ext_of_lookup distinct ?_ fun key => ?_
    · rw [own.keys, merged.keys]
    · rw [own.values, merged.values]

/-- Entries that are put behind others, none of which shares a key with another one, stay as they
are. -/
theorem putAll_of_nodup (before : Entries α) {all : Entries α}
    (h : (keys (before ++ all)).Nodup) : putAll before all = before ++ all := by
  induction all generalizing before with
  | nil => exact (List.append_nil before).symm
  | cons e all ih =>
    have free : e.1 ∉ keys before := by
      rw [keys, List.map_append, List.nodup_append] at h
      exact fun mem => h.2.2 e.1 mem e.1 List.mem_cons_self rfl
    have step : putAll before (e :: all) = putAll (before ++ [e]) all := by
      rw [← put_of_notMem free]
      rfl
    rw [step, ih (before ++ [e]) (by rwa [List.append_assoc]), List.append_assoc]
    rfl

end Entries

/-! ## Numbers -/

/-- Whether a number is an integer of 64 bits with a sign. -/
def Number.isInteger : Number → Bool
  | .int i => Bicep.Value.inIntRange i
  | .float _ => false

mutual
/-- The numbers in a JSON value, at any depth. -/
def Json.numbers : Json → List Number
  | .num n => [n]
  | .arr items => Json.numbersOfItems items
  | .obj entries => Json.numbersOfEntries entries
  | .null | .bool _ | .str _ => []
def Json.numbersOfItems : List Json → List Number
  | [] => []
  | v :: vs => Json.numbers v ++ Json.numbersOfItems vs
def Json.numbersOfEntries : List (String × Json) → List Number
  | [] => []
  | (_, v) :: es => Json.numbers v ++ Json.numbersOfEntries es
end

namespace Bicep

namespace Value

/-! ## What literals stand for -/

mutual
/-- The JSON value that a literal stands for. -/
inductive Denotes : Value → Json → Prop
  | str (s : String) : Denotes (.str s) (.str s)
  /-- A text with no hole in it is a literal as well. -/
  | interp {s : String} (closed : opensHole s = false) : Denotes (.interp s) (.str s)
  | bool (b : Bool) : Denotes (.bool b) (.bool b)
  | int (i : Int) : Denotes (.int i) (Json.int i)
  | null : Denotes .null .null
  | array {items : List Value} {vs : List Json} (each : DenoteItems items vs) :
      Denotes (.array items) (.arr vs)
  | object {body : Body} {all entries : List (String × Json)} (each : DenoteEntries body all)
      (merged : Entries.Merged all entries) : Denotes (.object body) (.obj entries)
inductive DenoteItems : List Value → List Json → Prop
  | nil : DenoteItems [] []
  | cons {v : Value} {w : Json} {items : List Value} {vs : List Json} (first : Denotes v w)
      (others : DenoteItems items vs) : DenoteItems (v :: items) (w :: vs)
/-- The entries that the properties of a body stand for; comments stand for nothing. -/
inductive DenoteEntries : Body → List (String × Json) → Prop
  | nil : DenoteEntries [] []
  | comment (text : String) {body : Body} {all : List (String × Json)}
      (others : DenoteEntries body all) : DenoteEntries (.comment text :: body) all
  | property {v : Value} {w : Json} (key : String) {body : Body} {all : List (String × Json)}
      (first : Denotes v w) (others : DenoteEntries body all) :
      DenoteEntries (.property key v :: body) ((key, w) :: all)
end

mutual
/-- The JSON form of a value is what it stands for as a literal. -/
theorem toJson?_eq_some_iff : ∀ (v : Value) (w : Json), toJson? v = some w ↔ Denotes v w
  | .str _, _ | .bool _, _ | .int _, _ | .null, _ => by
    rw [toJson?, Option.some.injEq]
    constructor
    · rintro rfl
      constructor
    · rintro ⟨⟩
      rfl
  | .interp s, w => by
    rw [toJson?]
    split
    · rename_i hole
      constructor
      · intro h
        cases h
      · rintro (_ | closed)
        rw [hole] at closed
        cases closed
    · rename_i closed
      rw [Option.some.injEq]
      constructor
      · rintro rfl
        exact .interp (Bool.eq_false_iff.mpr closed)
      · rintro (_ | _)
        rfl
  | .array items, w => by
    rw [toJson?, Option.map_eq_some_iff]
    constructor
    · rintro ⟨vs, read, rfl⟩
      exact .array ((toItems?_eq_some_iff items vs).mp read)
    · rintro (_ | _ | _ | _ | _ | each)
      exact ⟨_, (toItems?_eq_some_iff items _).mpr each, rfl⟩
  | .object body, w => by
    rw [toJson?, Option.map_eq_some_iff]
    constructor
    · rintro ⟨entries, read, rfl⟩
      obtain ⟨all, each, put⟩ := (toEntries?_eq_some_iff body [] entries).mp read
      exact .object each (Entries.putAll_eq_iff_merged.mp put)
    · rintro (_ | _ | _ | _ | _ | _ | ⟨each, merged⟩)
      have put := Entries.putAll_eq_iff_merged.mpr merged
      exact ⟨_, (toEntries?_eq_some_iff body [] _).mpr ⟨_, each, put⟩, rfl⟩
  | .expr _, _ | .call _ _, _ | .forEach _ _ _, _ | .conditional _ _ _, _ => by
    constructor <;> (intro h; cases h)
theorem toItems?_eq_some_iff : ∀ (items : List Value) (vs : List Json),
    toItems? items = some vs ↔ DenoteItems items vs
  | [], vs => by
    rw [toItems?, Option.some.injEq]
    constructor
    · rintro rfl
      exact .nil
    · rintro ⟨⟩
      rfl
  | v :: items, vs => by
    rw [toItems?]
    constructor
    · intro h
      split at h
      · rename_i w ws first others
        obtain rfl := Option.some.inj h
        exact .cons ((toJson?_eq_some_iff v w).mp first) ((toItems?_eq_some_iff items ws).mp others)
      · cases h
    · rintro (_ | ⟨first, others⟩)
      rw [(toJson?_eq_some_iff v _).mpr first, (toItems?_eq_some_iff items _).mpr others]
theorem toEntries?_eq_some_iff : ∀ (body : Body) (before entries : List (String × Json)),
    toEntries? before body = some entries ↔
      ∃ all, DenoteEntries body all ∧ Entries.putAll before all = entries
  | [], before, entries => by
    rw [toEntries?, Option.some.injEq]
    constructor
    · exact fun same => ⟨[], .nil, same⟩
    · rintro ⟨_, ⟨⟩, same⟩
      exact same
  | .comment text :: body, before, entries => by
    rw [toEntries?, toEntries?_eq_some_iff body before entries]
    constructor
    · rintro ⟨all, each, put⟩
      exact ⟨all, .comment text each, put⟩
    · rintro ⟨all, ⟨⟩, put⟩
      exact ⟨all, ‹_›, put⟩
  | .property key v :: body, before, entries => by
    rw [toEntries?]
    constructor
    · intro h
      split at h
      · rename_i w first
        obtain ⟨all, each, put⟩ := (toEntries?_eq_some_iff body _ entries).mp h
        exact ⟨(key, w) :: all, .property key ((toJson?_eq_some_iff v w).mp first) each, put⟩
      · cases h
    · rintro ⟨_, _ | _ | ⟨_, first, each⟩, put⟩
      rw [(toJson?_eq_some_iff v _).mpr first]
      exact (toEntries?_eq_some_iff body _ entries).mpr ⟨_, each, put⟩
end

/-! ## Which values are literals -/

mutual
/-- A value and those in it, at any depth. -/
def parts : Value → List Value
  | .str s => [.str s]
  | .interp s => [.interp s]
  | .expr e => [.expr e]
  | .bool b => [.bool b]
  | .int i => [.int i]
  | .null => [.null]
  | .array items => .array items :: partsOfItems items
  | .object body => .object body :: partsOfBody body
  | .call function arguments => .call function arguments :: partsOfItems arguments
  | .forEach binding source body => .forEach binding source body :: parts body
  | .conditional condition yes no => .conditional condition yes no :: (parts yes ++ parts no)
def partsOfItems : List Value → List Value
  | [] => []
  | v :: vs => parts v ++ partsOfItems vs
/-- The values of properties and those in them. -/
def partsOfBody : Body → List Value
  | [] => []
  | .comment _ :: es => partsOfBody es
  | .property _ v :: es => parts v ++ partsOfBody es
end

/-- Whether a value is known ahead of a deployment, as far as its own form decides: it is no
expression, call, loop or choice, and no text with a hole. -/
def isKnown : Value → Bool
  | .str _ | .bool _ | .int _ | .null | .array _ | .object _ => true
  | .interp s => !opensHole s
  | .expr _ | .call _ _ | .forEach _ _ _ | .conditional _ _ _ => false

/-- Whether a value is known ahead of a deployment with all that is in it. -/
def isLiteral (v : Value) : Bool :=
  v.parts.all isKnown

mutual
/-- The literals are the values that have a JSON form. -/
theorem isSome_toJson? : ∀ v : Value, (toJson? v).isSome = isLiteral v
  | .str _ | .bool _ | .int _ | .null => rfl
  | .interp s => by
    rw [toJson?, isLiteral, parts, List.all_cons, List.all_nil, Bool.and_true, isKnown]
    cases opensHole s <;> rfl
  | .array items => by
    rw [toJson?, Option.isSome_map, isSome_toItems? items]
    rfl
  | .object body => by
    rw [toJson?, Option.isSome_map, isSome_toEntries? body []]
    rfl
  | .expr _ | .call _ _ | .forEach _ _ _ | .conditional _ _ _ => rfl
theorem isSome_toItems? : ∀ items : List Value,
    (toItems? items).isSome = (partsOfItems items).all isKnown
  | [] => rfl
  | v :: items => by
    have first := isSome_toJson? v
    have others := isSome_toItems? items
    rw [isLiteral] at first
    rw [toItems?, partsOfItems, List.all_append, ← first, ← others]
    cases toJson? v <;> cases toItems? items <;> rfl
theorem isSome_toEntries? : ∀ (body : Body) (before : List (String × Json)),
    (toEntries? before body).isSome = (partsOfBody body).all isKnown
  | [], before => rfl
  | .comment _ :: body, before => by
    rw [toEntries?, isSome_toEntries? body before, partsOfBody]
  | .property key v :: body, before => by
    have first := isSome_toJson? v
    rw [isLiteral] at first
    rw [toEntries?, partsOfBody, List.all_append, ← first]
    cases toJson? v with
    | none => rfl
    | some w => exact isSome_toEntries? body _
end

/-! ## Literals of JSON values -/

mutual
/-- The literal of a JSON value stands for that value, if all numbers in it are integers of 64 bits;
otherwise it is no literal. -/
theorem toJson?_ofJson : ∀ v : Json, v.hasDistinctKeys = true →
    toJson? (ofJson v) = if v.numbers.all Number.isInteger then some v else none
  | .null, _ | .bool _, _ | .str _, _ => rfl
  | .num n, _ => by
    rw [ofJson, Json.numbers, List.all_cons, List.all_nil, Bool.and_true]
    cases n with
    | float x => rfl
    | int i =>
      rw [ofNumber, Number.isInteger]
      split <;> rfl
  | .arr items, keys => by
    have each := (Json.hasDistinctKeys_arr_iff items).mp keys
    rw [ofJson, toJson?, Json.numbers, toItems?_ofItems items each]
    split <;> rfl
  | .obj entries, keys => by
    have distinct := (Json.hasDistinctKeys_obj_iff entries).mp keys
    have whole : Entries.putAll [] entries = entries := Entries.putAll_of_nodup [] distinct.keys
    rw [ofJson, toJson?, Json.numbers, toEntries?_ofEntries entries [] distinct.values, whole]
    split <;> rfl
theorem toItems?_ofItems : ∀ items : List Json, (∀ v ∈ items, v.hasDistinctKeys = true) →
    toItems? (ofItems items) =
      if (Json.numbersOfItems items).all Number.isInteger then some items else none
  | [], _ => rfl
  | v :: items, keys => by
    obtain ⟨own, others⟩ := List.forall_mem_cons.mp keys
    rw [ofItems, toItems?, Json.numbersOfItems, List.all_append, toJson?_ofJson v own,
      toItems?_ofItems items others]
    cases v.numbers.all Number.isInteger <;>
      cases (Json.numbersOfItems items).all Number.isInteger <;> rfl
theorem toEntries?_ofEntries : ∀ entries before : List (String × Json),
    (∀ e ∈ entries, e.2.hasDistinctKeys = true) →
    toEntries? before (ofEntries entries) =
      if (Json.numbersOfEntries entries).all Number.isInteger then
        some (Entries.putAll before entries) else none
  | [], _, _ => rfl
  | (key, v) :: entries, before, keys => by
    obtain ⟨own, others⟩ := List.forall_mem_cons.mp keys
    rw [ofEntries, toEntries?, Json.numbersOfEntries, List.all_append, toJson?_ofJson v own]
    cases v.numbers.all Number.isInteger with
    | false => rfl
    | true => exact toEntries?_ofEntries entries _ others
end

end Value

end Bicep

end BicepForge
