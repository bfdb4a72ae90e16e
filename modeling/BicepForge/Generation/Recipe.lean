import BicepForge.Bicep.Declaration
import BicepForge.Configuration

/-!
# Recipes

What a kind of resource brings to its document: parameters, variables, the settings of the
resource, and outputs. A kind that brings no parameters of its own has them derived from a schema.
-/

namespace BicepForge.Generation

open Bicep

/-- What a kind of resource brings to its document. -/
structure Recipe where
  parameters? : Option (Configuration → List Param) := none
  vars : List Variable := []
  /-- The settings, for a resource of the given symbol. -/
  settings? : Option (String → Configuration → Body) := none
  /-- The outputs, for a resource of the given symbol. -/
  outputs : String → List Output := fun _ => []

/-- A string parameter with choices and the one of them that is the default. -/
def choice (name description : String) (choices : List String) (default : String) : Param :=
  (({ name, type := .string : Param }.describe description).allow choices).withDefault (.str default)

def switch (name description : String) (default : Bool) : Param :=
  ({ name, type := .bool : Param }.describe description).withDefault (.bool default)

end BicepForge.Generation
