import BicepForge.Bicep.Value
import BicepForge.Text.LowerCase

/-!
# Names in generated documents

How declarations are named, and which property names can be taken over from a schema.
-/

namespace BicepForge.Generation

/-- The name under which generated documents speak of their maker. -/
def generatorName : String := "Bicep Schema Builder"

/-- Parts of a name that give a secret away. -/
def secretMarks : List String :=
  ["password", "secret", "key", "token", "connectionstring"]

/-- Whether a name is that of a secret, in any case of its letters. -/
def isSensitive (name : String) : Bool :=
  secretMarks.any fun mark => Text.occursIn mark (Text.lower name)

/-- The properties that identify a resource; no parameter is derived from them. -/
def identityFields : List String :=
  ["apiVersion", "type", "name", "location", "properties", "tags"]

/-- The letters and digits of ASCII in a list of characters. -/
def alphanumerics (cs : List Char) : List Char :=
  cs.filter Char.isAlphanum

def lastSegment (type : String) : List Char :=
  ((Text.splitOn '/' type.toList).getLast?).getD []

/-- The symbol of a resource type: its last segment in camel case. -/
def resourceSymbol (type : String) : String :=
  match alphanumerics (lastSegment type) with
  | [] => "resource"
  | c :: cs => String.ofList (c.toLower :: cs)

/-- The symbol of the network interface that goes with a virtual machine. -/
def networkInterfaceSymbol (vmSymbol : String) : String :=
  vmSymbol ++ "NetworkInterface"

end BicepForge.Generation
