import BicepForge.Bicep.Value
import BicepForge.Proofs.Json.Keys

/-!
# Distinct keys of bodies

A body is a list of lines, so nothing keeps a key from coming twice. Here is what it means that none
does, in a body and in every object that stands anywhere in its values. The literal of a JSON value
has the keys of that value.
-/

namespace BicepForge.Bicep

mutual
/-- Whether no object in a value has a key twice. -/
def Value.hasDistinctKeys : Value → Bool
  | .str _ | .interp _ | .expr _ | .bool _ | .int _ | .null => true
  | .array items => itemsHaveDistinctKeys items
  | .object body => decide (Body.keys body).Nodup && valuesHaveDistinctKeys body
  | .call _ arguments => itemsHaveDistinctKeys arguments
  | .forEach _ _ body => body.hasDistinctKeys
  | .conditional _ yes no => yes.hasDistinctKeys && no.hasDistinctKeys
/-- Whether no object in array items or arguments has a key twice. -/
def Value.itemsHaveDistinctKeys : List Value → Bool
  | [] => true
  | v :: vs => v.hasDistinctKeys && itemsHaveDistinctKeys vs
/-- Whether no object in the values of a body has a key twice. -/
def Value.valuesHaveDistinctKeys : List Entry → Bool
  | [] => true
  | .property _ v :: es => v.hasDistinctKeys && valuesHaveDistinctKeys es
  | .comment _ :: es => valuesHaveDistinctKeys es
end

namespace Body

/-- No object in the values of a body has a key twice. -/
def HasDistinctInnerKeys (body : Body) : Prop :=
  Value.valuesHaveDistinctKeys body = true

/-- A body has no key twice, and neither has any object in its values. -/
structure HasDistinctKeys (body : Body) : Prop where
  outer : (keys body).Nodup
  inner : HasDistinctInnerKeys body

instance (body : Body) : Decidable (HasDistinctInnerKeys body) :=
  inferInstanceAs (Decidable (_ = true))

instance (body : Body) : Decidable (HasDistinctKeys body) :=
  decidable_of_iff ((keys body).Nodup ∧ HasDistinctInnerKeys body)
    ⟨fun h => ⟨h.1, h.2⟩, fun h => ⟨h.outer, h.inner⟩⟩

section Lines

variable (xs ys : Body)

theorem keys_append : keys (xs ++ ys) = keys xs ++ keys ys := by
  rw [keys, properties, List.filterMap_append, List.map_append]
  rfl

theorem hasDistinctInnerKeys_append :
    HasDistinctInnerKeys (xs ++ ys) ↔ HasDistinctInnerKeys xs ∧ HasDistinctInnerKeys ys := by
  unfold HasDistinctInnerKeys
  induction xs with
  | nil => simp [Value.valuesHaveDistinctKeys]
  | cons e xs ih =>
    cases e with
    | property key v =>
      rw [List.cons_append, Value.valuesHaveDistinctKeys, Value.valuesHaveDistinctKeys,
        Bool.and_eq_true, Bool.and_eq_true, ih, and_assoc]
    | comment text => exact ih

/-- Properties with expressions have the keys that they are given. -/
theorem keys_refs {α : Type} (key expression : α → String) (zs : List α) :
    keys (zs.map fun z => .ref (key z) (expression z)) = zs.map key := by
  induction zs with
  | nil => rfl
  | cons z zs ih => exact congrArg (key z :: ·) ih

/-- They hold no objects. -/
theorem hasDistinctInnerKeys_refs {α : Type} (key expression : α → String) (zs : List α) :
    HasDistinctInnerKeys (zs.map fun z => .ref (key z) (expression z)) := by
  induction zs with
  | nil => rfl
  | cons z zs ih => exact ih

end Lines

/-- A property has distinct keys inside if its value has. -/
theorem hasDistinctInnerKeys_property {key : String} {v : Value} (h : v.hasDistinctKeys = true) :
    HasDistinctInnerKeys [.property key v] :=
  Bool.and_eq_true_iff.mpr ⟨h, rfl⟩

end Body

namespace Value

theorem itemsHaveDistinctKeys_exprs (expressions : List String) :
    itemsHaveDistinctKeys (expressions.map .expr) = true := by
  induction expressions with
  | nil => rfl
  | cons e expressions ih => exact ih

theorem hasDistinctKeys_ofNumber (n : Number) : (ofNumber n).hasDistinctKeys = true := by
  cases n with
  | int i =>
    rw [ofNumber]
    split <;> rfl
  | float x => rfl

theorem keys_ofEntries (entries : List (String × Json)) :
    Body.keys (ofEntries entries) = Entries.keys entries := by
  induction entries with
  | nil => rfl
  | cons e es ih => exact congrArg (e.1 :: ·) ih

mutual
/-- A literal has a key twice exactly where its value has. -/
theorem hasDistinctKeys_ofJson : ∀ v : Json, (ofJson v).hasDistinctKeys = v.hasDistinctKeys
  | .null | .bool _ | .str _ => rfl
  | .num n => hasDistinctKeys_ofNumber n
  | .arr items => itemsHaveDistinctKeys_ofItems items
  | .obj entries => by
    rw [ofJson, hasDistinctKeys, Json.hasDistinctKeys, keys_ofEntries,
      valuesHaveDistinctKeys_ofEntries entries]
theorem itemsHaveDistinctKeys_ofItems : ∀ vs : List Json,
    itemsHaveDistinctKeys (ofItems vs) = Json.itemsHaveDistinctKeys vs
  | [] => rfl
  | v :: vs => by
    rw [ofItems, itemsHaveDistinctKeys, Json.itemsHaveDistinctKeys, hasDistinctKeys_ofJson v,
      itemsHaveDistinctKeys_ofItems vs]
theorem valuesHaveDistinctKeys_ofEntries : ∀ es : List (String × Json),
    valuesHaveDistinctKeys (ofEntries es) = Json.entriesHaveDistinctKeys es
  | [] => rfl
  | (_, v) :: es => by
    rw [ofEntries, valuesHaveDistinctKeys, Json.entriesHaveDistinctKeys, hasDistinctKeys_ofJson v,
      valuesHaveDistinctKeys_ofEntries es]
end

end Value

end BicepForge.Bicep
