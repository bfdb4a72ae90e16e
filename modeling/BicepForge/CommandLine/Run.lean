import BicepForge.Assembly.Package
import BicepForge.Assembly.SchemaDirectory
import BicepForge.Check.ResourceType
import BicepForge.CommandLine.Failure
import BicepForge.CommandLine.Help
import BicepForge.Generation.Generator

/-!
# Running commands

What each command does to files and what it says. Commands run over any access to files; a run
depends on the files, the arguments and the instant alone.
-/

namespace BicepForge.CommandLine

/-- What a run has said so far. -/
structure Console where
  out : String := ""
  err : String := ""
deriving DecidableEq, Repr

/-- How a run ended and what it said. -/
structure Outcome where
  status : ExitStatus
  console : Console
deriving DecidableEq, Repr

/-- A piece of a run, which may fail and keeps what was said until then. -/
abbrev Task (m : Type → Type) := ExceptT Failure (StateT Console m)

/-- The surroundings of a run. -/
structure Site (m : Type → Type) where
  files : FileAccess m
  now : Instant

variable {m : Type → Type} [Monad m]

def put (text : String) : Task m Unit :=
  modify fun c => { c with out := c.out ++ text }

def putLine (text : String) : Task m Unit :=
  put (text ++ "\n")

def putMessage (text : String) : Task m Unit :=
  modify fun c => { c with err := c.err ++ text ++ "\n" }

/-- The value of a result, or a failure. -/
def orFail {ε α : Type} (failure : ε → Failure) : Except ε α → Task m α
  | .ok a => pure a
  | .error e => throw (failure e)

def access {α : Type} (action : m (Except FileError α)) (failure : FileError → Failure) :
    Task m α := do
  orFail failure (← liftM action)

/-! ## Files -/

def readInput (s : Site m) (path : String) : Task m String :=
  access (s.files.read path) (.unreadable path)

/-- The configuration in a file, or the default one. -/
def loadConfiguration (s : Site m) : Option String → Task m Configuration
  | none => pure {}
  | some path => do
    let text ← access (s.files.read path) fun e => .configuration path (.unreadable e)
    orFail (fun e => .configuration path (.unusable e)) (Configuration.parse text)

def writeOutput (s : Site m) (text : String) : Option String → Task m Unit
  | none => put text
  | some path => do
    let parent := (Files.Path.parent? path).getD ""
    if parent ≠ "" then access (s.files.ensureDirectory parent) .directory
    access (s.files.write path text) (.unwritable path)
    putLine ("Wrote " ++ path)

/-! ## Checking -/

/-- What is said of the resource type of a schema when types have to be known. -/
def typeReport (schema : ResourceSchema) : Report :=
  match schema.resourceType? with
  | none => Report.empty.warning "No resource type declared; type check skipped"
  | some type =>
    let check := Check.TypeCheck.offline .azure type schema
    let report :=
      if check.known then Report.empty else Report.empty.error ("Unknown resource type: " ++ type)
    report.merge check.report

/-- The lines that tell a report on a file. -/
def reportLines (file : String) (r : Report) : List String :=
  ["📋 Validating " ++ file ++ " (" ++ (r.dialect?.map Dialect.name).getD "unknown" ++ ")"] ++
    (if r.valid then ["   ✅ Validation passed"]
      else "   ❌ Validation failed:" :: r.errors.map fun text => "      - " ++ text) ++
    r.warnings.map (fun text => "   ⚠️  " ++ text) ++
    r.info.map fun text => "   ℹ️  " ++ text

/-- The report on a file with the checks that were asked for. -/
def validationReport (s : Site m) (q : ValidateRequest) (input : Input) : Task m Report := do
  let report := Check.checkInput input
  let report := match input with
    | .resourceSchema schema => if q.strictTypes then report.merge (typeReport schema) else report
    | _ => report
  match q.instance?, input with
  | none, _ => return report
  | some path, .resourceSchema schema =>
    let text ← readInput s path
    let document ← orFail (.instance path) (Json.parse text)
    let found ← orFail .schema (Check.checkInstance schema document)
    return report.merge found
  | some _, _ => throw .noSchema

/-- Checks a file and tells what was found; errors make the command fail. -/
def validate (s : Site m) (q : ValidateRequest) : Task m Unit := do
  let text ← readInput s q.file
  let input ← orFail .input (Input.classifyAs q.mode text)
  let report ← validationReport s q input
  if q.asJson then putLine report.toJson.pretty
  else (reportLines q.file report).forM putLine
  if !report.valid then throw (.invalid report.errors.length)

/-! ## Generating -/

/-- The document for an input: a template gives that of its first resource. -/
def documentFor (now : Instant) (config : Configuration) :
    Input → Except Failure Bicep.Document
  | .resourceSchema schema => .ok (Generation.generate .azure now config schema)
  | .template t =>
    match t.resources?.getD [] with
    | [] => .error .noResources
    | entry :: _ => .ok (Generation.generateForEntry .azure now config entry)
  | .bicep _ => .error .alreadyBicep

/-- Generates a document and, where it is asked for, its parameters file. -/
def generate (s : Site m) (q : GenerateRequest) : Task m Unit := do
  let config ← loadConfiguration s q.config?
  let config := match q.location? with
    | none => config
    | some location => { config with location? := some location }
  let text ← readInput s q.schema
  let input ← orFail .input (Input.classify text)
  let document ← orFail id (documentFor s.now config input)
  writeOutput s document.text q.out?
  match q.parametersFile? with
  | none => pure ()
  | some path => writeOutput s (document.parametersFile.pretty ++ "\n") (some path)

/-! ## Converting -/

/-- A configuration with what the arguments say instead. -/
def ConvertRequest.apply (q : ConvertRequest) (config : Configuration) : Configuration :=
  { config with
    networkMode := q.networkMode?.getD config.networkMode
    existingVnetName? := q.vnet?.or config.existingVnetName?
    existingSubnetName? := q.subnet?.or config.existingSubnetName?
    osType := q.os?.getD config.osType }

/-- Converts a template; what it does not declare itself is announced. -/
def convert (s : Site m) (q : ConvertRequest) : Task m Unit := do
  let config := q.apply (← loadConfiguration s q.config?)
  let text ← readInput s q.template
  let template ← orFail .input (Input.parseJson text)
  let analysis := Conversion.Analysis.ofTemplate ⟨template⟩
  let missing := analysis.missingDependencies.filter fun d => !d.presentInTemplate
  missing.forM fun d =>
    putMessage ("   ⚠️  " ++ d.type ++ " will be generated: " ++ d.reason)
  let document ← orFail .conversion (Conversion.convertAnalysis s.now config analysis)
  writeOutput s document.text q.out?

/-! ## Assembling -/

/-- The resources of some ids, each once and in the order in which they are named first. -/
def select (ids : List String) : Except Failure (List CatalogEntry) :=
  ids.foldlM
    (fun selection id =>
      match Catalog.get? id with
      | none => .error (.unknownResource id)
      | some entry => .ok (if entry ∈ selection then selection else selection ++ [entry]))
    []

def loadSettings (s : Site m) : Option String → Task m (Entries Json)
  | none => pure []
  | some path => do
    let text ← readInput s path
    orFail (.settings path) (Json.parseObject text)

/-- The schemas that can be loaded for a selection, by their names. -/
def loadSchemas (s : Site m) (directory : Assembly.SchemaDirectory)
    (selection : List CatalogEntry) : Task m (Entries ResourceSchema) := do
  let found ← selection.mapM fun entry => do
    let result ← liftM (directory.load s.files entry.schema)
    return result.toOption.map fun schema => (entry.schema, schema)
  return found.filterMap id

/-- Writes the files of a package below a directory and tells their paths. -/
def writePackage (s : Site m) (directory : String) (files : List Assembly.PackageFile) :
    Task m (List String) :=
  files.mapM fun file => do
    let path := (Files.Path.parts file.path).foldl Files.Path.join directory
    access (s.files.ensureDirectory ((Files.Path.parent? path).getD "")) .package
    access (s.files.write path file.contents) .package
    return path

/-- Assembles resources into a package, or prints the main document. -/
def assemble (s : Site m) (q : AssembleRequest) : Task m Unit := do
  let config ← loadConfiguration s q.config?
  let config := if q.modules then { config with generateModules := true } else config
  let selection ← orFail id (select q.ids)
  let settings ← loadSettings s q.settings?
  let schemas ← loadSchemas s ⟨q.schemas⟩ selection
  let (result, _) := Assembly.assemble { now := s.now } config (fun name => schemas.lookup name)
    settings selection
  let assembly ← orFail .assembly result
  putMessage ("🔎 Resource types validated against " ++ assembly.source.description ++ " (" ++
    assembly.source.name ++ ")")
  assembly.warnings.forM fun text => putMessage ("   ⚠️  " ++ text)
  match q.out? with
  | none => put assembly.document.text
  | some directory =>
    let written ← writePackage s directory assembly.package
    putLine ("📦 Deployment package written to " ++ directory)
    written.forM fun path => putLine ("   - " ++ path)

/-! ## Runs -/

def perform (s : Site m) : Command → Task m Unit
  | .validate q => validate s q
  | .generate q => generate s q
  | .convert q => convert s q
  | .assemble q => assemble s q

def Task.outcome (task : Task m Unit) : m Outcome := do
  let (result, console) ← (ExceptT.run task).run {}
  match result with
  | .ok () => return ⟨.success, console⟩
  | .error f =>
    return ⟨f.status, { console with err := console.err ++ "Error: " ++ f.text ++ "\n" }⟩

/-- What is said to a user whose words make no command. -/
def misuseText : String :=
  "error: invalid arguments\n\nFor more information, try '--help'.\n"

/-- The line that tells the version of the program or of a command. -/
def versionLine (command? : Option CommandName) : String :=
  match command? with
  | none => program ++ " " ++ version ++ "\n"
  | some c => program ++ "-" ++ c.name ++ " " ++ version ++ "\n"

/-- Runs the program with the words of a command line. -/
def run (s : Site m) (words : List String) : m Outcome :=
  match Invocation.ofWords words with
  | .run command => (perform s command).outcome
  | .version command? => pure ⟨.success, { out := versionLine command? }⟩
  | .help command? long => pure ⟨.success, { out := helpText command? long }⟩
  | .nothing => pure ⟨.invalidArguments, { err := programHelp false }⟩
  | .misuse => pure ⟨.invalidArguments, { err := misuseText }⟩

end BicepForge.CommandLine
