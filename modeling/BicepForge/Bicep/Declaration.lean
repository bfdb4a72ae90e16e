import BicepForge.Bicep.Value

/-!
# Declarations

Parameters with their decorators, variables, resources, modules and outputs, each with its text.
-/

namespace BicepForge.Bicep

/-- What stands in front of a parameter, in the order it was added. -/
inductive Decorator where
  | description (text : String)
  | minLength (bound : Nat)
  | maxLength (bound : Nat)
  | minValue (bound : Int)
  | maxValue (bound : Int)
  | allowed (values : List Value)
  | secure
  /-- A comment line among the decorators. -/
  | note (text : String)

namespace Decorator

/-- A decorator as a call with one argument. -/
def annotation (name : String) (argument : List Char) : List Char :=
  '@' :: name.toList ++ '(' :: argument ++ [')']

/-- The text of a decorator, a line without its end. -/
def chars : Decorator → List Char
  | description text => annotation "description" ((Value.str text).chars 0)
  | minLength n => annotation "minLength" (toString n).toList
  | maxLength n => annotation "maxLength" (toString n).toList
  | minValue n => annotation "minValue" (toString n).toList
  | maxValue n => annotation "maxValue" (toString n).toList
  | allowed values => annotation "allowed" ((Value.array values).chars 0)
  | secure => annotation "secure" []
  | note text => '/' :: '/' :: ' ' :: text.toList

def description? : Decorator → Option String
  | description text => some text
  | _ => none

def allowed? : Decorator → Option (List Value)
  | allowed values => some values
  | _ => none

def isSecure : Decorator → Bool
  | secure => true
  | _ => false

end Decorator

structure Param where
  name : String
  type : Ty
  decorators : List Decorator := []
  default? : Option Value := none

namespace Param

def decorate (p : Param) (d : Decorator) : Param :=
  { p with decorators := p.decorators ++ [d] }

def describe (p : Param) (text : String) : Param :=
  p.decorate (.description text)

def allow (p : Param) (texts : List String) : Param :=
  p.decorate (.allowed (texts.map .str))

def secret (p : Param) : Param :=
  p.decorate .secure

def withDefault (p : Param) (v : Value) : Param :=
  { p with default? := some v }

def isSecure (p : Param) : Bool :=
  p.decorators.any Decorator.isSecure

def description? (p : Param) : Option String :=
  p.decorators.findSome? Decorator.description?

def allowed? (p : Param) : Option (List Value) :=
  p.decorators.findSome? Decorator.allowed?

/-- The text of a parameter, with the end of its last line. -/
def chars (p : Param) : List Char :=
  (p.decorators.flatMap fun d => d.chars ++ ['\n']) ++
    "param ".toList ++ p.name.toList ++ ' ' :: p.type.name.toList ++
    (match p.default? with
      | none => []
      | some v => " = ".toList ++ v.chars 0) ++ ['\n']

end Param

structure Variable where
  name : String
  value : Value

/-- The text of a variable, with the end of its last line. -/
def Variable.chars (v : Variable) : List Char :=
  "var ".toList ++ v.name.toList ++ " = ".toList ++ v.value.chars 0 ++ ['\n']

/-- A resource, to be made or only referred to. -/
structure Resource where
  symbol : String
  type : String
  apiVersion : String
  existing : Bool := false
  comment? : Option String := none
  body : Body := []

namespace Resource

/-- The type with its API version. -/
def typeReference (r : Resource) : String :=
  r.type ++ "@" ++ r.apiVersion

/-- The text of a resource, with the end of its last line. -/
def chars (r : Resource) : List Char :=
  (match r.comment? with
    | none => []
    | some text => '/' :: '/' :: ' ' :: text.toList ++ ['\n']) ++
    "resource ".toList ++ r.symbol.toList ++ ' ' :: Value.inQuotes r.typeReference.toList ++
    (if r.existing then " existing".toList else []) ++ " = ".toList ++
    (Value.object r.body).chars 0 ++ ['\n']

end Resource

/-- A module: another Bicep file. -/
structure Module where
  symbol : String
  path : String
  body : Body := []

/-- The text of a module, with the end of its last line. -/
def Module.chars (m : Module) : List Char :=
  "module ".toList ++ m.symbol.toList ++ ' ' :: Value.inQuotes m.path.toList ++ " = ".toList ++
    (Value.object m.body).chars 0 ++ ['\n']

/-- What stands in the resources section. -/
inductive Declaration where
  | resource (resource : Resource)
  | module (module : Module)

namespace Declaration

def symbol : Declaration → String
  | resource r => r.symbol
  | module m => m.symbol

def body : Declaration → Body
  | resource r => r.body
  | module m => m.body

def resource? : Declaration → Option Resource
  | resource r => some r
  | module _ => none

def module? : Declaration → Option Module
  | resource _ => none
  | module m => some m

/-- The text of a declaration, with the end of its last line. -/
def chars : Declaration → List Char
  | resource r => r.chars
  | module m => m.chars

end Declaration

structure Output where
  name : String
  type : Ty
  value : Value
  description? : Option String := none

/-- The text of an output, with the end of its last line. -/
def Output.chars (o : Output) : List Char :=
  (match o.description? with
    | none => []
    | some text => (Decorator.description text).chars ++ ['\n']) ++
    "output ".toList ++ o.name.toList ++ ' ' :: o.type.name.toList ++ " = ".toList ++
    o.value.chars 0 ++ ['\n']

end BicepForge.Bicep
