import BicepForge.Assembly.Basic
import BicepForge.Check.Input
import BicepForge.Configuration.Yaml
import BicepForge.Conversion.Session
import BicepForge.Files.Access
import BicepForge.Json.Printer
import BicepForge.Text.LowerCase

/-!
# Failures of commands

Why a command fails, in words from the outermost cause to the innermost, and the exit code that
goes with it.
-/

namespace BicepForge.CommandLine

inductive ConfigurationFault where
  | unreadable (error : FileError)
  | unusable (error : ConfigurationFileError)
deriving DecidableEq

/-- Why a command fails. -/
inductive Failure where
  /-- The checked document has errors. -/
  | invalid (errors : Nat)
  | input (error : InputError)
  | schema (fault : Check.SchemaFault)
  | configuration (path : String) (fault : ConfigurationFault)
  | conversion (error : Conversion.ConversionError)
  | assembly (error : Assembly.AssemblyError)
  /-- A file of a package cannot be written. -/
  | package (error : FileError)
  | unreadable (path : String) (error : FileError)
  | unwritable (path : String) (error : FileError)
  /-- The directory of an output cannot be made. -/
  | directory (error : FileError)
  | instance (path : String) (error : JsonError)
  | settings (path : String) (error : Json.NoObject)
  /-- A document can be checked against a schema only. -/
  | noSchema
  | noResources
  | alreadyBicep
  | unknownResource (id : String)

/-! ## Words -/

/-- A character between double quotes as it is shown to a reader. -/
def shownChar (c : Char) : List Char :=
  if c = '"' then ['\\', '"']
  else if c = '\\' then ['\\', '\\']
  else if c = '\n' then ['\\', 'n']
  else if c = '\r' then ['\\', 'r']
  else if c = '\t' then ['\\', 't']
  else if c = '\x00' then ['\\', '0']
  else if c.toNat < 0x20 ∨ (0x7f ≤ c.toNat ∧ c.toNat ≤ 0xa0) then
    "\\u\x7b".toList ++ Nat.toDigits 16 c.toNat ++ ['\x7d']
  else [c]

/-- A JSON value that stands where an object was expected, as it is shown to a reader. -/
def shownValue : Json → String
  | .null => "null"
  | .bool b => "boolean `" ++ (if b then "true" else "false") ++ "`"
  | .num (.int i) => "integer `" ++ toString i ++ "`"
  | .num (.float x) => "floating point `" ++ Number.text (.float x) ++ "`"
  | .str s => "string \"" ++ String.ofList (s.toList.flatMap shownChar) ++ "\""
  | .arr _ => "sequence"
  | .obj _ => "map"

/-- The wording of an error in a file that should hold an object. -/
def noObjectMessage : Json.NoObject → String
  | .malformed error => error.message
  | .other found line column =>
    "invalid type: " ++ shownValue found ++ ", expected a map at line " ++ toString line ++
      " column " ++ toString column

/-- A file error with the area it belongs to, and the error itself. -/
def fileCauses (e : FileError) : List String :=
  ["IO error: " ++ e.message, e.message]

namespace Failure

/-- The wording of a failure without its causes. -/
def headline : Failure → String
  | invalid errors => "Validation failed with " ++ toString errors ++ " error(s)"
  | input e => e.message
  | schema fault => fault.message
  | configuration path _ => "Failed to load configuration from " ++ path
  | conversion e => e.message
  | assembly e => e.message
  | package e => "IO error: " ++ e.message
  | unreadable path _ => "Input file not found: " ++ path
  | unwritable path _ => "Failed to write " ++ path
  | directory e => e.message
  | .instance path _ => "Failed to parse instance " ++ path
  | settings path _ => "Resource configuration must be a JSON object: " ++ path
  | noSchema => "--instance requires a resource schema argument"
  | noResources => "Template declares no resources to generate from"
  | alreadyBicep => "Input is already Bicep; expected a JSON schema or template"
  | unknownResource id =>
    "Resource '" ++ id ++ "' not found in catalog (available: " ++
      String.intercalate ", " Catalog.ids ++ ")"

/-- The causes of a failure, the outermost first. -/
def causes : Failure → List String
  | input (.malformed e) => [e.message]
  | configuration _ (.unreadable e) => fileCauses e
  | configuration _ (.unusable e) => [e.message]
  | conversion (.configuration e) => [e.message]
  | package e | unreadable _ e | unwritable _ e => [e.message]
  | .instance _ e => [e.message]
  | settings _ e => [noObjectMessage e]
  | _ => []

def text (f : Failure) : String :=
  String.intercalate ": " (f.headline :: f.causes)

end Failure

/-! ## Exit codes -/

/-- How a run ends. -/
inductive ExitStatus where
  | success
  | generalError
  | invalidArguments
  | validationFailure
  | templateError
  | generationError
deriving DecidableEq, Repr

def ExitStatus.code : ExitStatus → Nat
  | success => 0
  | generalError => 1
  | invalidArguments => 2
  | validationFailure => 3
  | templateError => 4
  | generationError => 5

/-- The exit status that the words of a failure suggest: those that speak of arguments, or of what
was not found, blame the arguments. -/
def ExitStatus.ofWords (words : String) : ExitStatus :=
  let words := Text.lower words
  if Text.occursIn "argument" words ∨ Text.occursIn "not found" words then invalidArguments
  else generalError

/-- The exit status of a failure. Where no kind of failure decides, its words do. -/
def Failure.status : Failure → ExitStatus
  | invalid _ => .validationFailure
  | input _ | schema _ => .templateError
  | configuration _ _ => .generalError
  | conversion .notAnalyzed => .generationError
  | conversion (.configuration _) => .invalidArguments
  | assembly .emptySelection => .invalidArguments
  | package _ => .generationError
  | f => .ofWords f.headline

end BicepForge.CommandLine
