import BicepForge.Text.Search

/-!
# Arguments

How words on a command line fall into flags, options with values and plain operands. Words are read
from left to right, and the first one that does not fit, or that asks for something else than a
run, decides.
-/

namespace BicepForge.CommandLine

/-- What an option takes. -/
inductive Arity where
  /-- Nothing: it is there or not. -/
  | flag
  /-- One value. -/
  | single
  /-- One value each time it is given. -/
  | many
deriving DecidableEq, Repr

/-- A value that an option may take, and what it stands for. -/
structure Choice where
  word : String
  about? : Option String := none
deriving DecidableEq, Repr

/-- An option. -/
structure OptionSpec where
  name : String
  letter? : Option Char := none
  arity : Arity := .single
  /-- What it is for. -/
  about : String
  /-- The word that stands for its value where it is described. -/
  valueName : String := ""
  /-- The values that it may take; if there are none, `accepts` alone decides. -/
  choices : List Choice := []
  /-- The value that it has when it is not given. -/
  default? : Option String := none
  accepts : String → Bool := fun _ => true

def OptionSpec.takes (o : OptionSpec) (v : String) : Bool :=
  (o.choices.isEmpty || o.choices.any (·.word == v)) && o.accepts v

/-- Why the words of a command line are no request. -/
inductive Halt where
  | version
  /-- Help, at length or in short. -/
  | help (long : Bool)
  | misuse
deriving DecidableEq, Repr

/-- What the words of a command say. -/
structure Given where
  flags : List String := []
  /-- Values under the names of their options, in order. -/
  values : List (String × String) := []
  operands : List String := []
deriving DecidableEq, Repr

namespace Given

def has (g : Given) (name : String) : Bool :=
  g.flags.contains name

def value? (g : Given) (name : String) : Option String :=
  g.values.lookup name

def valuesOf (g : Given) (name : String) : List String :=
  (g.values.filter (·.1 == name)).map (·.2)

/-- Adds a flag, which may be given once. Help is longer for those who ask by its whole name. -/
def addFlag (g : Given) (o : OptionSpec) (byName : Bool) : Except Halt Given :=
  if o.name = "version" then .error .version
  else if o.name = "help" then .error (.help byName)
  else if g.has o.name then .error .misuse
  else .ok { g with flags := g.flags ++ [o.name] }

def addValue (g : Given) (o : OptionSpec) (v : String) : Except Halt Given :=
  if !o.takes v ∨ (o.arity = .single ∧ (g.value? o.name).isSome) then .error .misuse
  else .ok { g with values := g.values ++ [(o.name, v)] }

/-- Adds an operand; there may be so many, and none is empty. -/
def addOperand (g : Given) (most : Nat) (word : String) : Except Halt Given :=
  if most ≤ g.operands.length ∨ word = "" then .error .misuse
  else .ok { g with operands := g.operands ++ [word] }

end Given

/-! ## Words -/

/-- What a word is by its dashes. -/
inductive Word where
  /-- Two dashes: only operands follow. -/
  | separator
  /-- An option by its name, with a value behind an equals sign if there is one. -/
  | named (name : String) (value? : Option String)
  /-- Options by their letters; the rest of them may be a value. -/
  | letters (letters : List Char)
  | operand (word : String)
deriving DecidableEq, Repr

def Word.ofText (word : String) : Word :=
  match word.toList with
  | ['-', '-'] => separator
  | '-' :: '-' :: cs =>
    named (String.ofList (cs.takeWhile (· != '='))) ((Text.afterFirst '=' cs).map String.ofList)
  | '-' :: c :: cs => letters (c :: cs)
  | _ => operand word

/-- The value that a word is, when an option waits for one. -/
def Word.value? (word : String) : Option String :=
  match ofText word with
  | operand v => some v
  | _ => none

/-- What is known behind a word: everything, or that an option waits for its value. -/
inductive Progress where
  | done (given : Given)
  | awaits (option : OptionSpec) (given : Given)

def readNamed (options : List OptionSpec) (g : Given) (name : String) (value? : Option String) :
    Except Halt Progress :=
  match options.find? (·.name == name) with
  | none => .error .misuse
  | some o =>
    match decide (o.arity = .flag), value? with
    | true, none => (g.addFlag o true).map .done
    | true, some _ => .error .misuse
    | false, none => .ok (.awaits o g)
    | false, some v => (g.addValue o v).map .done

/-- The value in what follows the letter of an option: an equals sign may come first. -/
def attachedValue? : List Char → Option String
  | [] => none
  | '=' :: cs => some (String.ofList cs)
  | cs => some (String.ofList cs)

def readLetters (options : List OptionSpec) (g : Given) : List Char → Except Halt Progress
  | [] => .ok (.done g)
  | c :: cs =>
    match options.find? (·.letter? == some c) with
    | none => .error .misuse
    | some o =>
      if o.arity = .flag then
        match g.addFlag o false with
        | .error h => .error h
        | .ok g => readLetters options g cs
      else
        match attachedValue? cs with
        | none => .ok (.awaits o g)
        | some v => (g.addValue o v).map .done

/-- Reads the words of a command that takes so many operands. -/
def readWords (options : List OptionSpec) (most : Nat) (g : Given) :
    List String → Except Halt Given
  | [] => .ok g
  | word :: words =>
    let proceed (p : Except Halt Progress) : Except Halt Given :=
      match p with
      | .error h => .error h
      | .ok (.done g) => readWords options most g words
      | .ok (.awaits o g) =>
        match words with
        | [] => .error .misuse
        | next :: words =>
          match (Word.value? next).map (g.addValue o) with
          | some (.ok g) => readWords options most g words
          | _ => .error .misuse
    match Word.ofText word with
    | .separator => words.foldlM (fun g word => g.addOperand most word) g
    | .named name value? => proceed (readNamed options g name value?)
    | .letters cs => proceed (readLetters options g cs)
    | .operand word =>
      match g.addOperand most word with
      | .error h => .error h
      | .ok g => readWords options most g words

end BicepForge.CommandLine
