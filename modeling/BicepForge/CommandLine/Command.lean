import BicepForge.CommandLine.Arguments
import BicepForge.Configuration
import BicepForge.Document.Input

/-!
# Commands

What a user can ask for on the command line, and the words that ask for it.
-/

namespace BicepForge.CommandLine

structure ValidateRequest where
  file : String
  mode : InputMode := .auto
  /-- Whether resource types have to be known. -/
  strictTypes : Bool := false
  /-- A document to check against the schema in the file. -/
  instance? : Option String := none
  /-- Whether the report is printed as JSON. -/
  asJson : Bool := false
deriving DecidableEq

structure GenerateRequest where
  schema : String
  config? : Option String := none
  out? : Option String := none
  parametersFile? : Option String := none
  location? : Option String := none
deriving DecidableEq

structure ConvertRequest where
  template : String
  config? : Option String := none
  networkMode? : Option NetworkMode := none
  vnet? : Option String := none
  subnet? : Option String := none
  os? : Option OsType := none
  out? : Option String := none
deriving DecidableEq

structure AssembleRequest where
  /-- The directory of the schemas. -/
  schemas : String
  ids : List String
  config? : Option String := none
  /-- A file with settings for resources, by their ids. -/
  settings? : Option String := none
  modules : Bool := false
  out? : Option String := none
deriving DecidableEq

/-- What a user can ask for. -/
inductive Command where
  | validate (request : ValidateRequest)
  | generate (request : GenerateRequest)
  | convert (request : ConvertRequest)
  | assemble (request : AssembleRequest)
deriving DecidableEq

inductive CommandName where
  | validate
  | generate
  | convert
  | assemble
deriving DecidableEq, Repr

namespace CommandName

def all : List CommandName :=
  [validate, generate, convert, assemble]

def name : CommandName → String
  | validate => "validate"
  | generate => "generate"
  | convert => "convert"
  | assemble => "assemble"

def about : CommandName → String
  | validate => "Validate a schema, template or Bicep file"
  | generate => "Generate Bicep from a resource schema"
  | convert => "Convert an ARM template to Bicep"
  | assemble => "Assemble a multi-resource deployment"

def ofName? (word : String) : Option CommandName :=
  all.find? (·.name == word)

end CommandName

/-! ## Options -/

/-- The option that makes a run tell more. -/
def verboseOption : OptionSpec :=
  { name := "verbose", letter? := some 'v', arity := .flag, about := "Enable verbose output" }

/-- The option that makes a run tell less. -/
def quietOption : OptionSpec :=
  { name := "quiet", letter? := some 'q', arity := .flag
    about := "Suppress non-essential output" }

/-- The options that ask for something else than a run. -/
def askingOptions : List OptionSpec :=
  [{ name := "help", letter? := some 'h', arity := .flag, about := "Print help" },
   { name := "version", letter? := some 'V', arity := .flag, about := "Print version" }]

/-- The options that stand before a command. -/
def commonOptions : List OptionSpec :=
  [verboseOption, quietOption] ++ askingOptions

/-- Whether a value can be a path. -/
def isPath (value : String) : Bool :=
  value ≠ ""

/-- The word that stands for the value of an option of this name. -/
def valueNameOf (name : String) : String :=
  name.map fun c => if c = '-' then '_' else c.toUpper

def textOption (name about : String) (letter? : Option Char := none) : OptionSpec :=
  { name, letter?, about, valueName := valueNameOf name }

def pathOption (name about : String) (letter? : Option Char := none) : OptionSpec :=
  { textOption name about letter? with accepts := isPath }

def flagOption (name about : String) : OptionSpec :=
  { name, about, arity := .flag }

def configOption : OptionSpec :=
  pathOption "config" "Configuration file (YAML or JSON)" (some 'c')

def osOf? (value : String) : Option OsType :=
  (OsType.parse value).toOption

def modeChoices : List Choice :=
  [{ word := InputMode.auto.name, about? := some "Detect the dialect from the content" },
   { word := InputMode.resource.name },
   { word := InputMode.template.name },
   { word := InputMode.bicep.name }]

def networkChoices : List Choice :=
  [{ word := NetworkMode.createNew.name
     about? := some "Create a virtual network, subnet and security group" },
   { word := NetworkMode.useExisting.name
     about? := some "Attach to an existing virtual network and subnet" }]

/-- The options of a command, in the order in which they are described. -/
def CommandName.options : CommandName → List OptionSpec
  | validate =>
    [{ textOption "mode" "Dialect of the file" (some 'm') with
         choices := modeChoices, default? := some InputMode.auto.name },
     verboseOption, quietOption,
     flagOption "strict-types" "Check resource types and API versions against the known registry",
     pathOption "instance" "Instance document to check against the schema",
     flagOption "json" "Print the result as JSON"] ++ askingOptions
  | generate =>
    [configOption, verboseOption,
     pathOption "out" "Output Bicep file (stdout when omitted)" (some 'o'), quietOption,
     pathOption "parameters-file" "Also write a deployment parameters file",
     textOption "location" "Target region, overriding the configuration" (some 'l')] ++
      askingOptions
  | convert =>
    [configOption, verboseOption,
     { textOption "network-mode" "Network provisioning mode, overriding the configuration" with
         choices := networkChoices },
     quietOption,
     textOption "vnet" "Existing virtual network name",
     textOption "subnet" "Existing subnet name",
     { textOption "os" "Operating system of the virtual machine (Windows or Linux)" with
         accepts := fun v => (osOf? v).isSome },
     pathOption "out" "Output Bicep file (stdout when omitted)" (some 'o')] ++ askingOptions
  | assemble =>
    [pathOption "schemas" "Directory holding `<schema>.json` files for the catalog" (some 's'),
     verboseOption, quietOption,
     { textOption "resource" "Catalog id to include (repeatable)" (some 'r') with
         arity := .many, valueName := "RESOURCES" },
     configOption,
     pathOption "resource-config" "JSON object mapping catalog ids to property bodies",
     flagOption "modules" "Generate one module file per resource",
     pathOption "out"
       "Write a deployment package to this directory (prints main.bicep when omitted)"
       (some 'o')] ++ askingOptions

/-- An operand, as it is described. -/
structure OperandSpec where
  name : String
  about : String
deriving DecidableEq, Repr

def CommandName.operand? : CommandName → Option OperandSpec
  | validate => some ⟨"FILE", "File to validate"⟩
  | generate =>
    some ⟨"SCHEMA", "Resource schema, or a deployment template whose first resource is used"⟩
  | convert => some ⟨"TEMPLATE", "ARM deployment template to convert"⟩
  | assemble => none

def CommandName.operands (c : CommandName) : Nat :=
  c.operand?.toList.length

/-- The command that its words make; none where something is missing. -/
def Command.ofGiven? (name : CommandName) (g : Given) : Option Command :=
  let config? := g.value? "config"
  let out? := g.value? "out"
  match name with
  | .validate =>
    g.operands.head?.map fun file => validate
      { file
        mode := ((g.value? "mode").bind InputMode.ofName?).getD .auto
        strictTypes := g.has "strict-types"
        instance? := g.value? "instance"
        asJson := g.has "json" }
  | .generate =>
    g.operands.head?.map fun schema => generate
      { schema, config?, out?
        parametersFile? := g.value? "parameters-file"
        location? := g.value? "location" }
  | .convert =>
    g.operands.head?.map fun template => convert
      { template, config?, out?
        networkMode? := (g.value? "network-mode").bind NetworkMode.ofName?
        vnet? := g.value? "vnet"
        subnet? := g.value? "subnet"
        os? := (g.value? "os").bind osOf? }
  | .assemble =>
    match g.value? "schemas", g.valuesOf "resource" with
    | none, _ | _, [] => none
    | some schemas, ids => some (assemble
      { schemas, ids, config?, out?
        settings? := g.value? "resource-config"
        modules := g.has "modules" })

/-! ## Invocations -/

/-- What the words of a command line ask for. -/
inductive Invocation where
  | run (command : Command)
  /-- The version of the program or of one of its commands. -/
  | version (command? : Option CommandName)
  /-- Help on the program or on one of its commands, at length or in short. -/
  | help (command? : Option CommandName) (long : Bool)
  /-- There are no words at all. -/
  | nothing
  | misuse
deriving DecidableEq

/-- The invocation that halted words make. -/
def Invocation.ofHalt (command? : Option CommandName) : Halt → Invocation
  | .version => version command?
  | .help long => help command? long
  | .misuse => misuse

def Invocation.ofCommandWords (name : CommandName) (words : List String) : Invocation :=
  match readWords name.options name.operands {} words with
  | .error h => ofHalt (some name) h
  | .ok g =>
    match Command.ofGiven? name g with
    | some command => run command
    | none => misuse

/-- Reads the words behind the word for help: perhaps the name of a command. -/
def Invocation.ofHelpWords : List String → Invocation
  | [] => help none true
  | [word] =>
    match CommandName.ofName? word with
    | some name => help (some name) true
    | none => misuse
  | _ => misuse

/-- Reads words that start with common options, then name a command. -/
def Invocation.ofWordsFrom (g : Given) : List String → Invocation
  | [] => misuse
  | word :: words =>
    let proceed (p : Except Halt Progress) : Invocation :=
      match p with
      | .error h => ofHalt none h
      | .ok (.done g) => ofWordsFrom g words
      | .ok (.awaits _ _) => misuse
    match Word.ofText word with
    | .separator => misuse
    | .named name value? => proceed (readNamed commonOptions g name value?)
    | .letters cs => proceed (readLetters commonOptions g cs)
    | .operand word =>
      match CommandName.ofName? word with
      | some name => ofCommandWords name words
      | none => if word = "help" then ofHelpWords words else misuse

def Invocation.ofWords : List String → Invocation
  | [] => nothing
  | words => ofWordsFrom {} words

end BicepForge.CommandLine
