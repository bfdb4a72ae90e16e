import BicepForge.Bicep.Document
import BicepForge.Proofs.Check.Values
import BicepForge.Proofs.References.Scanner

/-!
# The names in a document

Which symbolic names a document refers to, and which ones it declares. A literal refers to
nothing but what the holes of its object keys say: strings are escaped, keys are not.
-/

namespace BicepForge.References

open Bicep

/-- The names in an object key: in its holes, where it is quoted. -/
def keyNames (key : String) (read : Reading := namesIn) : List String :=
  if Value.isIdentifier key then [] else quotedNames key read

mutual
/-- The symbolic names in an expression. The variables of a loop are no such names in its body. -/
def namesOf (value : Value) (read : Reading := namesIn) : List String :=
  match value with
  | .str s => read (Value.inQuotes (Value.escapeLiteral s.toList))
  | .interp s => quotedNames s read
  | .expr e => namesIn e.toList
  | .bool _ | .int _ | .null => []
  | .array items => namesOfItems items read
  | .object body => namesOfBody body read
  | .call function arguments =>
    namesIn (function.toList ++ ['(']) ++ namesOfItems arguments read
  | .forEach binding source body =>
    namesIn source.toList ++ (namesOf body read).filter fun n => n ∉ namesIn binding.toList
  | .conditional condition yes no =>
    namesIn condition.toList ++ namesOf yes read ++ namesOf no read
def namesOfItems (values : List Value) (read : Reading := namesIn) : List String :=
  match values with
  | [] => []
  | v :: vs => namesOf v read ++ namesOfItems vs read
def namesOfBody (body : Body) (read : Reading := namesIn) : List String :=
  match body with
  | [] => []
  | e :: es => namesOfEntry e read ++ namesOfBody es read
def namesOfEntry (entry : Entry) (read : Reading := namesIn) : List String :=
  match entry with
  | .property key value => keyNames key read ++ namesOf value read
  | .comment _ => []
end

def decoratorNames (decorator : Decorator) (read : Reading := namesIn) : List String :=
  match decorator with
  | .description text => namesOf (.str text) read
  | .allowed values => namesOfItems values read
  | _ => []

def paramNames (p : Param) (read : Reading := namesIn) : List String :=
  p.decorators.flatMap (decoratorNames · read) ++ (p.default?.map (namesOf · read)).getD []

/-- The names in a declaration: in its body, and in the type or the path between its quotes. -/
def declarationNames (d : Declaration) (read : Reading := namesIn) : List String :=
  match d with
  | .resource r => read (Value.inQuotes r.typeReference.toList) ++ namesOfBody r.body read
  | .module m => read (Value.inQuotes m.path.toList) ++ namesOfBody m.body read

def outputNames (o : Output) (read : Reading := namesIn) : List String :=
  (o.description?.map fun text => decoratorNames (.description text) read).getD [] ++
    namesOf o.value read

def referredNames (d : Document) (read : Reading := namesIn) : List String :=
  d.metadata.flatMap (fun entry => namesOf (.str entry.2) read) ++
    d.parameters.flatMap (paramNames · read) ++ d.vars.flatMap (fun v => namesOf v.value read) ++
    d.declarations.flatMap (declarationNames · read) ++ d.outputs.flatMap (outputNames · read)

/-- The names that a document declares: parameters, variables, and resources with modules. -/
def declaredNames (d : Document) : List String :=
  d.parameters.map (·.name) ++ d.vars.map (·.name) ++ d.declarations.map (·.symbol)

/-! ## Parts of a document -/

/-- Whether a reading finds no names in string literals. -/
def Reading.Quiet (read : Reading) : Prop :=
  ∀ s : String, read (Value.inQuotes (Value.escapeLiteral s.toList)) = []

theorem quiet_namesIn : Reading.Quiet namesIn :=
  namesIn_literal

theorem namesOf_str (s : String) : namesOf (.str s) = [] :=
  namesIn_literal s

theorem namesOfBody_append (xs ys : Body) :
    namesOfBody (xs ++ ys) = namesOfBody xs ++ namesOfBody ys := by
  induction xs with
  | nil => rfl
  | cons e xs ih =>
    rw [List.cons_append, namesOfBody, ih, namesOfBody, List.append_assoc]

/-- What the body of a loop refers to is declared, or a variable of the loop. -/
theorem namesOf_forEach_subset {binding source : String} {body : Value} {names : List String}
    (hs : namesIn source.toList ⊆ names) (hb : namesOf body ⊆ namesIn binding.toList ++ names) :
    namesOf (.forEach binding source body) ⊆ names := by
  rw [namesOf]
  refine List.append_subset.mpr ⟨hs, fun n hn => ?_⟩
  rw [List.mem_filter, decide_eq_true_eq] at hn
  exact (List.mem_append.mp (hb hn.1)).resolve_left hn.2

theorem outputNames_subset {read : Reading} (quiet : read.Quiet) {o : Output}
    {names : List String} (h : namesOf o.value read ⊆ names) : outputNames o read ⊆ names := by
  unfold outputNames
  refine List.append_subset.mpr ⟨?_, h⟩
  cases o.description? with
  | none => exact List.nil_subset _
  | some text =>
    have silent : decoratorNames (.description text) read = [] := quiet text
    show decoratorNames (.description text) read ⊆ names
    rw [silent]
    exact List.nil_subset _

theorem flatMap_subset {α : Type} {items : List α} {f : α → List String} {names : List String}
    (h : ∀ x ∈ items, f x ⊆ names) : items.flatMap f ⊆ names := by
  intro n hn
  obtain ⟨x, hx, mem⟩ := List.mem_flatMap.mp hn
  exact h x hx mem

/-- A parameter refers to what its choices and its default refer to. -/
theorem paramNames_subset {p : Param} {names : List String}
    (hd : ∀ d ∈ p.decorators, decoratorNames d ⊆ names)
    (hv : ∀ v, p.default? = some v → namesOf v ⊆ names) : paramNames p ⊆ names := by
  unfold paramNames
  refine List.append_subset.mpr ⟨flatMap_subset hd, ?_⟩
  cases h : p.default? with
  | none => exact List.nil_subset _
  | some v => exact hv v h

theorem namesOfItems_strings (texts : List String) : namesOfItems (texts.map .str) = [] := by
  induction texts with
  | nil => rfl
  | cons s texts ih => rw [List.map_cons, namesOfItems, namesOf_str, ih]; rfl

/-! ## Literals -/

mutual
/-- The object keys in a JSON value. -/
def keysOf : Json → List String
  | .arr items => keysOfItems items
  | .obj entries => keysOfEntries entries
  | .null | .bool _ | .num _ | .str _ => []
def keysOfItems : List Json → List String
  | [] => []
  | v :: vs => keysOf v ++ keysOfItems vs
/-- The keys of object entries, and those in their values. -/
def keysOfEntries : List (String × Json) → List String
  | [] => []
  | (k, v) :: es => k :: keysOf v ++ keysOfEntries es
end

mutual
/-- A literal refers to what the holes of its keys say, and to nothing else. -/
theorem namesOf_ofJson {read : Reading} (quiet : read.Quiet) : ∀ v : Json,
    namesOf (Value.ofJson v) read = (keysOf v).flatMap (keyNames · read)
  | .null => rfl
  | .bool _ => rfl
  | .num (.int i) => by
    rw [Value.ofJson, Value.ofNumber]
    split
    · rfl
    · exact namesIn_number (.int i)
  | .num (.float x) => namesIn_number (.float x)
  | .str s => quiet s
  | .arr items => by
    rw [Value.ofJson, namesOf, namesOfItems_ofItems quiet, keysOf]
  | .obj entries => by
    rw [Value.ofJson, namesOf, namesOfBody_ofEntries quiet, keysOf]
theorem namesOfItems_ofItems {read : Reading} (quiet : read.Quiet) : ∀ vs : List Json,
    namesOfItems (Value.ofItems vs) read = (keysOfItems vs).flatMap (keyNames · read)
  | [] => rfl
  | v :: vs => by
    rw [Value.ofItems, namesOfItems, namesOf_ofJson quiet, namesOfItems_ofItems quiet, keysOfItems,
      List.flatMap_append]
theorem namesOfBody_ofEntries {read : Reading} (quiet : read.Quiet) :
    ∀ es : List (String × Json),
      namesOfBody (Value.ofEntries es) read = (keysOfEntries es).flatMap (keyNames · read)
  | [] => rfl
  | (k, v) :: es => by
    rw [Value.ofEntries, namesOfBody, namesOfEntry, namesOf_ofJson quiet,
      namesOfBody_ofEntries quiet, keysOfEntries, List.cons_append, List.flatMap_cons,
      List.flatMap_append, List.append_assoc]
end

/-! ## Fixed texts -/

section Fixed

variable {names : List String} {cs : List Char}

/-- A key that is a name holds no other one. -/
theorem key_lit
    (h : (cs.head?.any Check.beginsName && cs.all Check.continuesName) = true) :
    keyNames (String.ofList cs) ⊆ names := by
  rw [keyNames, if_pos (Check.name_lit h)]
  exact List.nil_subset _

/-- A declared name, as an expression of its own. -/
theorem ref_lit (mem : String.ofList cs ∈ names)
    (h : (cs.all Check.continuesName) = true) :
    namesIn (String.ofList cs).toList ⊆ names := by
  have word : isWord (String.ofList cs) = true := by rwa [isWord, String.toList_ofList]
  refine List.Subset.trans (namesIn_word word) ?_
  exact List.cons_subset.mpr ⟨mem, List.nil_subset _⟩

/-- A fixed expression that reads one declared name. -/
theorem expr_lit {name : List Char} (mem : String.ofList name ∈ names)
    (h : scan {} cs = [name]) : namesIn (String.ofList cs).toList ⊆ names :=
  List.Subset.trans (namesIn_lit h) (List.cons_subset.mpr ⟨mem, List.nil_subset _⟩)

/-- A fixed expression in two parts that reads one declared name. -/
theorem joined_lit {ds name : List Char} (mem : String.ofList name ∈ names)
    (h : scan {} (cs ++ ds) = [name]) :
    namesIn (String.ofList cs ++ String.ofList ds).toList ⊆ names := by
  rw [namesIn, String.toList_append, String.toList_ofList, String.toList_ofList, h]
  exact List.cons_subset.mpr ⟨mem, List.nil_subset _⟩

/-- A fixed expression without any name. -/
theorem quiet_lit (h : scan {} cs = []) :
    namesIn (String.ofList cs).toList ⊆ names := by
  rw [namesIn, String.toList_ofList, h]
  exact List.nil_subset _

/-- A variable of a loop. -/
theorem binding_lit {name : List Char} (h : name ∈ scan {} cs) :
    String.ofList name ∈ namesIn (String.ofList cs).toList ++ names := by
  refine List.mem_append_left _ (List.mem_map.mpr ⟨name, ?_, rfl⟩)
  rwa [String.toList_ofList]

/-- A declared symbol with a path of members. -/
theorem path_subset {symbol path : String} (hs : isWord symbol = true)
    (hp : isPath path.toList = true) (mem : symbol ∈ names) :
    namesIn (symbol ++ path).toList ⊆ names :=
  List.Subset.trans (namesIn_path hs hp) (List.cons_subset.mpr ⟨mem, List.nil_subset _⟩)

end Fixed

end BicepForge.References
