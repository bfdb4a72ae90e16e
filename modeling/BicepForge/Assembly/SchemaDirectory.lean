import BicepForge.Document.Input
import BicepForge.Files.Access
import BicepForge.Text.Order

/-!
# Schema directories

Schemas kept as JSON files in one directory, each under its name.
-/

namespace BicepForge.Assembly

inductive SchemaFault where
  | unreadable (error : FileError)
  | malformed (error : InputError)
deriving DecidableEq

def SchemaFault.message : SchemaFault → String
  | unreadable error => error.message
  | malformed error => error.message

/-- The schema that cannot be loaded, and why. -/
structure SchemaError where
  name : String
  fault : SchemaFault
deriving DecidableEq

def SchemaError.message (e : SchemaError) : String :=
  "Failed to load schema '" ++ e.name ++ "': " ++ e.fault.message

structure SchemaDirectory where
  root : String

namespace SchemaDirectory

def fileEnding : String := ".json"

def path (d : SchemaDirectory) (name : String) : String :=
  Files.Path.join d.root (name ++ fileEnding)

/-- The schema in the text of its file. -/
def ofFile (name : String) (text : Except FileError String) : Except SchemaError ResourceSchema :=
  match text with
  | .error e => .error ⟨name, .unreadable e⟩
  | .ok s =>
    match Input.parseJson s with
    | .error e => .error ⟨name, .malformed e⟩
    | .ok document => .ok ⟨document⟩

def load {m : Type → Type} [Monad m] (d : SchemaDirectory) (files : FileAccess m) (name : String) :
    m (Except SchemaError ResourceSchema) :=
  return ofFile name (← files.read (d.path name))

/-- The schema that a file of a directory holds, by the name of the file. -/
def nameOf? (fileName : String) : Option String :=
  let stem := fileName.toList.take (fileName.length - fileEnding.length)
  if Text.endsWith fileName fileEnding ∧ !stem.isEmpty then some (String.ofList stem) else none

/-- The schemas in a directory that holds files of these names, in the order of their names. -/
def names (fileNames : List String) : List String :=
  Text.sorted (fileNames.filterMap nameOf?)

end SchemaDirectory

end BicepForge.Assembly
