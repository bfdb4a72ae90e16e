import BicepForge.Configuration.Format
import BicepForge.Text.Blank
import BicepForge.Yaml.Node
import BicepForge.Yaml.Scalar

/-!
# Configuration files

Configurations as YAML text, of which JSON is a part. A text option takes any scalar as it is
written, whatever else it might stand for; an empty file leaves all options at their defaults.
-/

namespace BicepForge

namespace Yaml

def nullTag : String := "tag:yaml.org,2002:null"

def boolTag : String := "tag:yaml.org,2002:bool"

/-- Whether a scalar without a tag stands for nothing. -/
def isAbsent (style : ScalarStyle) (text : String) : Bool :=
  style = .plain && (text = "" || isNull text)

def Node.text? : Node → Option String
  | scalar _ _ text => some text
  | _ => none

/-- The text of a scalar that may stand for nothing. -/
def Node.optional? : Node → Option (Option String)
  | scalar tag? style text =>
    if style ≠ .plain then some (some text)
    else
      match tag? with
      | none => some (if isAbsent style text then none else some text)
      | some tag =>
        if tag ≠ nullTag then some (some text)
        else if isNull text then some none
        else none
  | _ => none

def Node.flag? : Node → Option Bool
  | scalar tag? style text =>
    if style = .plain ∨ (style = .literal ∧ tag? = some boolTag) then bool? text else none
  | _ => none

/-- The choice that a scalar makes, by its text or by a tag of its own. -/
def Node.choice? : Node → Option String
  | scalar tag? style text =>
    match tag?.map String.toList with
    | some ('!' :: name) => if isAbsent style text then some (String.ofList name) else none
    | _ => some text
  | _ => none

end Yaml

def OptionReader.yaml : OptionReader Yaml.Node where
  text? := Yaml.Node.text?
  optional? := Yaml.Node.optional?
  flag? := Yaml.Node.flag?
  choice? := Yaml.Node.choice?

/-- Why a configuration file cannot be used. -/
inductive ConfigurationFileError where
  | malformed (error : Yaml.YamlError)
  | unsuitable
deriving DecidableEq, Repr

def ConfigurationFileError.message : ConfigurationFileError → String
  | malformed error => "YAML parsing error: " ++ error.message
  | unsuitable => "YAML parsing error: the document is not a configuration"

namespace Configuration

def keys : List String :=
  Entries.keys (entries {})

/-- The configuration of a YAML value. No option may be given twice. -/
def ofNode? : Option Yaml.Node → Option Configuration
  | none => some {}
  | some (.scalar _ style text) => if style = .plain ∧ text = "" then some {} else none
  | some (.mapping entries) =>
    let named : Option (List (String × Yaml.Node)) :=
      entries.mapM fun (key, v) => (Yaml.Node.text? key).map fun name => (name, v)
    named.bind fun entries =>
      if ((Entries.keys entries).filter keys.contains).Nodup then ofEntries? .yaml entries else none
  | some _ => none

def parse (text : String) : Except ConfigurationFileError Configuration :=
  if Text.isBlankText text then .ok {}
  else
    match Yaml.Node.ofText? text with
    | .error e => .error (.malformed e)
    | .ok node =>
      match ofNode? node with
      | some c => .ok c
      | none => .error .unsuitable

/-- The text of an option up to the end of its last line. -/
def optionChars : Json → List Char
  | .null => "null\n".toList
  | .bool b => if b then "true\n".toList else "false\n".toList
  | .str s => Yaml.scalarChars s
  | _ => []

/-- The text of a configuration file. Breaks that a last block keeps are closed off at the end. -/
def fileText (c : Configuration) : String :=
  let blocks := c.entries.filterMap fun (_, v) =>
    v.asString?.filter fun s => Yaml.styleOf s = .literal
  String.ofList
    ((c.entries.flatMap fun (key, v) => key.toList ++ ':' :: ' ' :: optionChars v) ++
      if blocks.getLast?.any Yaml.keepsBreaks then "...\n".toList else [])

end Configuration

end BicepForge
