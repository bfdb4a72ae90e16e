import BicepForge.Json.Printer
import BicepForge.Text.Search

/-!
# Bicep values

The expressions of a Bicep document and the bodies of its objects. Literals are data; raw
expressions, conditions and loop sources are text that is written as it stands.

Rendering takes the depth at which a value stands and gives characters, so that the text of a
nested value can be reasoned about without slicing strings. A literal never interpolates and never
ends early: the characters that could do so are escaped one by one.
-/

namespace BicepForge.Bicep

/-- The primitive types of parameters and outputs. -/
inductive Ty where
  | string
  | int
  | bool
  | array
  | object
deriving DecidableEq, Repr

namespace Ty

def name : Ty → String
  | string => "string"
  | int => "int"
  | bool => "bool"
  | array => "array"
  | object => "object"

/-- The type for a JSON Schema, by its `type` keyword; anything unknown is a string. -/
def ofSchema (schema : Json) : Ty :=
  match schema.string? "type" with
  | some "integer" | some "number" => int
  | some "boolean" => bool
  | some "array" => array
  | some "object" => object
  | _ => string

end Ty

mutual
inductive Value where
  /-- A string literal that never interpolates. -/
  | str (text : String)
  /-- A string literal whose holes interpolate. -/
  | interp (text : String)
  /-- Raw expression text. -/
  | expr (text : String)
  | bool (value : Bool)
  | int (value : Int)
  | null
  | array (items : List Value)
  | object (body : List Entry)
  | call (function : String) (arguments : List Value)
  | forEach (binding source : String) (body : Value)
  | conditional (condition : String) (yes no : Value)
/-- One line of an object: a property or a comment. -/
inductive Entry where
  | property (key : String) (value : Value)
  | comment (text : String)
end

instance : Inhabited Value := ⟨.null⟩

/-- The ordered lines of an object: of a literal, a resource or a module alike. -/
abbrev Body := List Entry

def hole (expression : String) : String :=
  "$\x7b" ++ expression ++ "\x7d"

namespace Entry

def property? : Entry → Option (String × Value)
  | property key value => some (key, value)
  | comment _ => none

/-- A property with a raw expression. -/
def ref (key expression : String) : Entry :=
  property key (.expr expression)

def lit (key text : String) : Entry :=
  property key (.str text)

def flag (key : String) (value : Bool) : Entry :=
  property key (.bool value)

def nest (key : String) (body : Body) : Entry :=
  property key (.object body)

end Entry

namespace Body

def properties (body : Body) : List (String × Value) :=
  body.filterMap Entry.property?

def keys (body : Body) : List String :=
  properties body |>.map (·.1)

def get? (body : Body) (key : String) : Option Value :=
  (properties body).lookup key

def hasKey (body : Body) (key : String) : Bool :=
  (get? body key).isSome

/-- A body that is there only under a condition. -/
def onlyIf (condition : Bool) (body : Body) : Body :=
  if condition then body else []

end Body

namespace Value

def strings (texts : List String) : Value :=
  array (texts.map str)

/-! ## Literals from and to JSON -/

/-- The integers that Bicep can write. -/
def inIntRange (i : Int) : Bool :=
  -(twoTo 63 : Int) ≤ i && i < (twoTo 63 : Int)

/-- The literal of a JSON number: an expression where it is no Bicep integer. -/
def ofNumber (n : Number) : Value :=
  match n with
  | .int i => if inIntRange i then int i else expr n.text
  | .float _ => expr n.text

mutual
def ofJson : Json → Value
  | .null => null
  | .bool b => bool b
  | .num n => ofNumber n
  | .str s => str s
  | .arr items => array (ofItems items)
  | .obj entries => object (ofEntries entries)
def ofItems : List Json → List Value
  | [] => []
  | v :: vs => ofJson v :: ofItems vs
def ofEntries : List (String × Json) → Body
  | [] => []
  | (k, v) :: es => .property k (ofJson v) :: ofEntries es
end

/-- Whether a string opens a hole anywhere. -/
def opensHole (s : String) : Bool :=
  Text.occursIn "$\x7b" s

mutual
/-- The JSON form of a literal; none where the value is known at deployment only. -/
def toJson? : Value → Option Json
  | str s => some (.str s)
  | interp s => if opensHole s then none else some (.str s)
  | bool b => some (.bool b)
  | int i => some (Json.int i)
  | null => some .null
  | array items => (toItems? items).map .arr
  | object body => (toEntries? [] body).map .obj
  | expr _ | call _ _ | forEach _ _ _ | conditional _ _ _ => none
def toItems? : List Value → Option (List Json)
  | [] => some []
  | v :: vs =>
    match toJson? v, toItems? vs with
    | some j, some js => some (j :: js)
    | _, _ => none
/-- The JSON forms of properties, put behind the entries so far. -/
def toEntries? (before : List (String × Json)) : Body → Option (List (String × Json))
  | [] => some before
  | .comment _ :: es => toEntries? before es
  | .property k v :: es =>
    match toJson? v with
    | some j => toEntries? (Entries.put k j before) es
    | none => none
end

/-! ## Text -/

/-- How a character stands inside a string literal. -/
def escapeChar (c : Char) : List Char :=
  if c = '\\' then ['\\', '\\']
  else if c = '\'' then ['\\', '\'']
  else if c = '\n' then ['\\', 'n']
  else if c = '\r' then ['\\', 'r']
  else if c = '\t' then ['\\', 't']
  else [c]

/-- The inside of an interpolating literal: holes stay open. -/
def escape (cs : List Char) : List Char :=
  cs.flatMap escapeChar

/-- The inside of a literal that never interpolates: a dollar sign before a brace is escaped. -/
def escapeLiteral : List Char → List Char
  | [] => []
  | '$' :: '\x7b' :: cs => '\\' :: '$' :: '\x7b' :: escapeLiteral cs
  | c :: cs => escapeChar c ++ escapeLiteral cs

/-- Only a dollar sign before a brace is escaped in another way than in an interpolating literal. -/
theorem escapeLiteral_cons_of_ne {c : Char} {cs : List Char}
    (h : ∀ rest, c = '$' → cs = '\x7b' :: rest → False) :
    escapeLiteral (c :: cs) = escapeChar c ++ escapeLiteral cs := by
  rw [escapeLiteral.eq_def]
  split <;> simp_all

/-- A literal that begins with a brace is that of a text which does. -/
theorem head?_escapeLiteral {cs rest : List Char}
    (h : (escapeLiteral cs ++ '\'' :: rest).head? = some '\x7b') : cs.head? = some '\x7b' := by
  cases cs with
  | nil => simp [escapeLiteral] at h
  | cons c cs =>
    rw [escapeLiteral.eq_def] at h
    split at h
    · simp_all
    · simp at h
    · rename_i d ds _ he
      obtain ⟨rfl, rfl⟩ := List.cons.inj he
      revert h
      unfold escapeChar
      repeat' split
      all_goals simp

def inQuotes (cs : List Char) : List Char :=
  '\'' :: cs ++ ['\'']

/-- The name rule of Bicep: a letter or underscore, then letters, digits and underscores. -/
def isIdentifier (s : String) : Bool :=
  match s.toList with
  | [] => false
  | c :: cs => (c.isAlpha || c == '_') && cs.all fun d => d.isAlphanum || d == '_'

/-- An identifier is a letter or underscore with letters, digits and underscores behind it. -/
theorem exists_cons_of_isIdentifier {s : String} (h : isIdentifier s = true) :
    ∃ c cs, s.toList = c :: cs ∧ (c.isAlpha || c == '_') = true ∧
      ∀ d ∈ c :: cs, (d.isAlphanum || d == '_') = true := by
  unfold isIdentifier at h
  split at h
  · cases h
  · rename_i c cs hs
    rw [Bool.and_eq_true, List.all_eq_true] at h
    refine ⟨c, cs, hs, h.1, ?_⟩
    intro d hd
    rcases List.mem_cons.mp hd with rfl | hd
    · rcases Bool.or_eq_true_iff.mp h.1 with ha | hu
      · simp [Char.isAlphanum, ha]
      · simp [hu]
    · exact h.2 d hd

/-- A key: bare where it is an identifier, else between quotes. -/
def keyChars (key : String) : List Char :=
  if isIdentifier key then key.toList else inQuotes (escape key.toList)

/-- Whether a value is written on one line of its own accord. -/
def isScalar : Value → Bool
  | str _ | interp _ | expr _ | bool _ | int _ | null => true
  | array _ | object _ | call _ _ | forEach _ _ _ | conditional _ _ _ => false

/-- Two blanks per level. -/
def indent (depth : Nat) : List Char :=
  List.replicate (2 * depth) ' '

mutual
/-- The text of a value at a depth. An array of scalars stands on one line, any other has an item
a line; an object has an entry a line. -/
def chars (depth : Nat) : Value → List Char
  | str s => inQuotes (escapeLiteral s.toList)
  | interp s => inQuotes (escape s.toList)
  | expr e => e.toList
  | bool b => if b then "true".toList else "false".toList
  | int i => (toString i).toList
  | null => "null".toList
  | array items =>
    if items.all isScalar then '[' :: [',', ' '].intercalate (itemChars depth items) ++ [']']
    else '[' :: '\n' :: itemLines (depth + 1) items ++ indent depth ++ [']']
  | object [] => ['\x7b', '\x7d']
  | object (e :: es) =>
    '\x7b' :: '\n' :: entryLines (depth + 1) (e :: es) ++ indent depth ++ ['\x7d']
  | call function arguments =>
    function.toList ++ '(' :: [',', ' '].intercalate (itemChars depth arguments) ++ [')']
  | forEach binding source body =>
    "[for ".toList ++ binding.toList ++ " in ".toList ++ source.toList ++ [':', ' '] ++
      chars depth body ++ [']']
  | conditional condition yes no =>
    condition.toList ++ " ? ".toList ++ chars depth yes ++ " : ".toList ++ chars depth no
def itemChars (depth : Nat) : List Value → List (List Char)
  | [] => []
  | v :: vs => chars depth v :: itemChars depth vs
def itemLines (depth : Nat) : List Value → List Char
  | [] => []
  | v :: vs => indent depth ++ chars depth v ++ '\n' :: itemLines depth vs
def entryLines (depth : Nat) : Body → List Char
  | [] => []
  | e :: es => indent depth ++ entryChars depth e ++ '\n' :: entryLines depth es
def entryChars (depth : Nat) : Entry → List Char
  | .property key value => keyChars key ++ [':', ' '] ++ chars depth value
  | .comment text => '/' :: '/' :: ' ' :: text.toList
end

/-! ### The text of each form -/

section Equations

variable (depth : Nat)

@[simp] theorem chars_str (s : String) :
    chars depth (str s) = inQuotes (escapeLiteral s.toList) := rfl

@[simp] theorem chars_interp (s : String) :
    chars depth (interp s) = inQuotes (escape s.toList) := rfl

@[simp] theorem chars_expr (e : String) : chars depth (expr e) = e.toList := rfl

@[simp] theorem chars_bool (b : Bool) :
    chars depth (bool b) = if b then "true".toList else "false".toList := rfl

@[simp] theorem chars_int (i : Int) : chars depth (int i) = (toString i).toList := rfl

@[simp] theorem chars_null : chars depth null = "null".toList := rfl

theorem chars_array (items : List Value) :
    chars depth (array items) =
      if items.all isScalar then '[' :: [',', ' '].intercalate (itemChars depth items) ++ [']']
      else '[' :: '\n' :: itemLines (depth + 1) items ++ indent depth ++ [']'] := rfl

@[simp] theorem chars_object_nil :
    chars depth (object []) = ['\x7b', '\x7d'] := rfl

theorem chars_object_cons (e : Entry) (es : Body) :
    chars depth (object (e :: es)) =
      '\x7b' :: '\n' :: entryLines (depth + 1) (e :: es) ++ indent depth ++ ['\x7d'] := rfl

theorem chars_call (function : String) (arguments : List Value) :
    chars depth (call function arguments) =
      function.toList ++ '(' :: [',', ' '].intercalate (itemChars depth arguments) ++ [')'] := rfl

theorem chars_forEach (binding source : String) (body : Value) :
    chars depth (forEach binding source body) =
      "[for ".toList ++ binding.toList ++ " in ".toList ++ source.toList ++ [':', ' '] ++
        chars depth body ++ [']'] := rfl

theorem chars_conditional (condition : String) (yes no : Value) :
    chars depth (conditional condition yes no) =
      condition.toList ++ " ? ".toList ++ chars depth yes ++ " : ".toList ++ chars depth no := rfl

@[simp] theorem itemChars_nil : itemChars depth [] = [] := rfl

@[simp] theorem itemChars_cons (v : Value) (vs : List Value) :
    itemChars depth (v :: vs) = chars depth v :: itemChars depth vs := rfl

@[simp] theorem itemLines_nil : itemLines depth [] = [] := rfl

@[simp] theorem itemLines_cons (v : Value) (vs : List Value) :
    itemLines depth (v :: vs) =
      indent depth ++ chars depth v ++ '\n' :: itemLines depth vs := rfl

@[simp] theorem entryLines_nil : entryLines depth [] = [] := rfl

@[simp] theorem entryLines_cons (e : Entry) (es : Body) :
    entryLines depth (e :: es) =
      indent depth ++ entryChars depth e ++ '\n' :: entryLines depth es := rfl

@[simp] theorem entryChars_property (key : String) (v : Value) :
    entryChars depth (.property key v) = keyChars key ++ [':', ' '] ++ chars depth v := rfl

@[simp] theorem entryChars_comment (text : String) :
    entryChars depth (.comment text) = '/' :: '/' :: ' ' :: text.toList := rfl

end Equations

def text (v : Value) : String :=
  String.ofList (v.chars 0)

end Value

end BicepForge.Bicep
