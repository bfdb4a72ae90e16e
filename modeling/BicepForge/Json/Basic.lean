import BicepForge.Decimal.Binary64
import BicepForge.Entries

/-!
# JSON values

Values keep the order of their object keys, which decides the order of everything generated from
them. A number is an integer of 64 bits or a floating point number, as its literal says.
-/

namespace BicepForge

/-- A JSON number: an integer literal in the range of 64 bits stays exact, all else is a float. -/
inductive Number where
  | int (value : Int)
  | float (value : Binary64)
deriving DecidableEq

namespace Number

/-- The value in units of `2 ^ -1074`, on which numbers of both kinds compare exactly. -/
def scaled : Number → Int
  | int i => i * Binary64.one
  | float x => x.scaled

def toFloat : Number → Binary64
  | int i => (Binary64.ofInt? i).getD (Binary64.zero false)
  | float x => x

end Number

/-- A JSON value. Objects are lists of entries in their order. -/
inductive Json where
  | null
  | bool (value : Bool)
  | num (value : Number)
  | str (value : String)
  | arr (items : List Json)
  | obj (entries : List (String × Json))

namespace Json

instance : Inhabited Json := ⟨null⟩

def int (i : Int) : Json :=
  num (.int i)

mutual
/-- Equality of values, which looks at the order of object keys too. -/
def same : Json → Json → Bool
  | null, null => true
  | bool a, bool b => a == b
  | num a, num b => a == b
  | str a, str b => a == b
  | arr as, arr bs => sameItems as bs
  | obj as, obj bs => sameEntries as bs
  | _, _ => false
def sameItems : List Json → List Json → Bool
  | [], [] => true
  | a :: as, b :: bs => same a b && sameItems as bs
  | _, _ => false
def sameEntries : List (String × Json) → List (String × Json) → Bool
  | [], [] => true
  | (k, a) :: as, (l, b) :: bs => k == l && same a b && sameEntries as bs
  | _, _ => false
end

mutual
theorem same_iff : ∀ a b : Json, same a b = true ↔ a = b
  | null, b => by cases b <;> simp [same]
  | bool _, b => by cases b <;> simp [same]
  | num _, b => by cases b <;> simp [same]
  | str _, b => by cases b <;> simp [same]
  | arr as, b => by
    cases b <;> simp [same]
    exact sameItems_iff as _
  | obj as, b => by
    cases b <;> simp [same]
    exact sameEntries_iff as _
theorem sameItems_iff : ∀ as bs : List Json, sameItems as bs = true ↔ as = bs
  | [], bs => by cases bs <;> simp [sameItems]
  | a :: as, bs => by
    cases bs <;> simp [sameItems]
    rw [same_iff a, sameItems_iff as]
theorem sameEntries_iff : ∀ as bs : List (String × Json), sameEntries as bs = true ↔ as = bs
  | [], bs => by cases bs <;> simp [sameEntries]
  | (k, a) :: as, bs => by
    cases bs with
    | nil => simp [sameEntries]
    | cons b bs =>
      obtain ⟨l, b⟩ := b
      simp [sameEntries, same_iff a, sameEntries_iff as]
end

instance : DecidableEq Json := fun a b => decidable_of_iff _ (same_iff a b)

def asString? : Json → Option String
  | str s => some s
  | _ => none

def asArray? : Json → Option (List Json)
  | arr items => some items
  | _ => none

def asObject? : Json → Option (List (String × Json))
  | obj entries => some entries
  | _ => none

def asBool? : Json → Option Bool
  | bool b => some b
  | _ => none

def isObject : Json → Bool
  | obj _ => true
  | _ => false

def isNull : Json → Bool
  | null => true
  | _ => false

/-- The value of a key; none where there is no such key or no object. -/
def get? (key : String) : Json → Option Json
  | obj entries => entries.lookup key
  | _ => none

/-- The value reached by following keys from the outside in. -/
def path? (keys : List String) (v : Json) : Option Json :=
  keys.foldl (fun found key => found.bind (get? key)) (some v)

def string? (key : String) (v : Json) : Option String :=
  (v.get? key).bind asString?

def array? (key : String) (v : Json) : Option (List Json) :=
  (v.get? key).bind asArray?

def object? (key : String) (v : Json) : Option (List (String × Json)) :=
  (v.get? key).bind asObject?

end Json

end BicepForge
