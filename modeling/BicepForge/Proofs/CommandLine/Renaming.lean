import BicepForge.Proofs.Assembly.Modes
import BicepForge.Proofs.CommandLine.TwoRuns

/-!
# Commands under other names

A command with other names for its files does the same things to them. So if the operations on
files end alike, the two commands agree: both succeed, or both fail in the same way up to the name
that the failure tells.
-/

namespace BicepForge.CommandLine

/-! ## Requests with other names -/

/-- The places of the files that a package with modules of these ids can have. -/
def packagePaths (ids : List String) : List String :=
  ["main.bicep", "main.parameters.json", "README.md", "deploy.ps1"] ++
    ids.map Assembly.Batch.modulePath

def pathBelow (directory path : String) : String :=
  (Files.Path.parts path).foldl Files.Path.join directory

section Requests

variable (N : Naming)

/-- Directories whose schemas of these ids stand for each other. -/
def SchemasRenamed (ids : List String) (directory directory' : String) : Prop :=
  ∀ entry ∈ Catalog.entries, entry.id ∈ ids →
    N.input (Assembly.SchemaDirectory.path ⟨directory⟩ entry.schema)
      (Assembly.SchemaDirectory.path ⟨directory'⟩ entry.schema)

/-- Directories in which the files of a package stand for each other. -/
def PackageRenamed (ids : List String) (directory directory' : String) : Prop :=
  ∀ path ∈ packagePaths ids, N.package (pathBelow directory path) (pathBelow directory' path)

/-- Requests that differ in the names of files only, which stand for each other. -/
structure ValidateRequest.Renamed (q q' : ValidateRequest) : Prop where
  others : q' = { q with file := q'.file, instance? := q'.instance? }
  file : N.input q.file q'.file
  document : Option.Rel N.document q.instance? q'.instance?

structure GenerateRequest.Renamed (q q' : GenerateRequest) : Prop where
  others : q' = { q with schema := q'.schema, config? := q'.config?, out? := q'.out?,
                         parametersFile? := q'.parametersFile? }
  schema : N.input q.schema q'.schema
  config : Option.Rel N.input q.config? q'.config?
  out : Option.Rel N.output q.out? q'.out?
  parametersFile : Option.Rel N.output q.parametersFile? q'.parametersFile?

structure ConvertRequest.Renamed (q q' : ConvertRequest) : Prop where
  others : q' = { q with template := q'.template, config? := q'.config?, out? := q'.out? }
  template : N.input q.template q'.template
  config : Option.Rel N.input q.config? q'.config?
  out : Option.Rel N.output q.out? q'.out?

/-- Here the names of directories differ as well. -/
structure AssembleRequest.Renamed (q q' : AssembleRequest) : Prop where
  others : q' = { q with schemas := q'.schemas, config? := q'.config?, settings? := q'.settings?,
                         out? := q'.out? }
  schemas : SchemasRenamed N q.ids q.schemas q'.schemas
  config : Option.Rel N.input q.config? q'.config?
  settings : Option.Rel N.document q.settings? q'.settings?
  out : Option.Rel (PackageRenamed N q.ids) q.out? q'.out?

/-- Commands that differ in the names of files and directories only. -/
inductive Command.Renamed : Command → Command → Prop
  | validate {q q' : ValidateRequest} (h : q.Renamed N q') : Renamed (.validate q) (.validate q')
  | generate {q q' : GenerateRequest} (h : q.Renamed N q') : Renamed (.generate q) (.generate q')
  | convert {q q' : ConvertRequest} (h : q.Renamed N q') : Renamed (.convert q) (.convert q')
  | assemble {q q' : AssembleRequest} (h : q.Renamed N q') : Renamed (.assemble q) (.assemble q')

/-- Invocations that differ in the names of files and directories only. -/
inductive Invocation.Renamed : Invocation → Invocation → Prop
  | run {c c' : Command} (h : c.Renamed N c') : Renamed (.run c) (.run c')
  | version (command? : Option CommandName) : Renamed (.version command?) (.version command?)
  | help (command? : Option CommandName) (long : Bool) :
    Renamed (.help command? long) (.help command? long)
  | nothing : Renamed .nothing .nothing
  | misuse : Renamed .misuse .misuse

end Requests

section Commands

variable {σ τ : Type} {N : Naming} {W : σ → τ → Prop} {s : Site (StateM σ)} {s' : Site (StateM τ)}

/-! ## Files -/

theorem agree_readInput (sites : SitesAlike N W s s') {p p' : String}
    (h : N.input p p' ∨ N.document p p') : Agree N W Eq (readInput s p) (readInput s' p') :=
  .access (sites.files.read h) (.unreadable p p')

theorem agree_loadConfiguration (sites : SitesAlike N W s s') {config? config?' : Option String}
    (h : Option.Rel N.input config? config?') :
    Agree N W Eq (loadConfiguration s config?) (loadConfiguration s' config?') := by
  cases h with
  | none => exact .pure rfl
  | @some p p' h =>
    refine .bind_eq (.access (sites.files.read (.inl h)) fun e => ?_) fun text => ?_
    · exact .configuration p p' (.unreadable e)
    · exact .orFail (fun e => .configuration p p' (.unusable e)) (Configuration.parse text)

theorem agree_loadSettings (sites : SitesAlike N W s s') {settings? settings?' : Option String}
    (h : Option.Rel N.document settings? settings?') :
    Agree N W Eq (loadSettings s settings?) (loadSettings s' settings?') := by
  cases h with
  | none => exact .pure rfl
  | some h =>
    exact .bind_eq (agree_readInput sites (.inr h)) fun text => .orFail (.settings h) _

/-- A directory is made for a bare name, too: nothing happens then. -/
theorem writeOutput_some (nowhere : ∀ w, (s.files.ensureDirectory "").run w = (.ok (), w))
    (text path : String) :
    writeOutput s text (some path) = (do
      access (s.files.ensureDirectory (parentOf path)) .directory
      access (s.files.write path text) (.unwritable path)
      putLine ("Wrote " ++ path)) := by
  by_cases bare : parentOf path = ""
  · refine Task.ext fun c w => ?_
    have made : (access (s.files.ensureDirectory (parentOf path)) .directory).after c w =
        ((.ok (), c), w) := by
      rw [bare, access, after_bind_ok (after_liftM _ c w), nowhere]
      rfl
    rw [after_bind_ok made]
    exact congrArg (Task.after · c w) (if_neg (not_not.mpr bare))
  · exact if_pos bare

theorem agree_writeOutput (sites : SitesAlike N W s s') (text : String) {out? out?' : Option String}
    (h : Option.Rel N.output out? out?') :
    Agree N W Eq (writeOutput s text out?) (writeOutput s' text out?') := by
  cases h with
  | none => exact .prints (prints_put text) (prints_put text)
  | @some p p' h =>
    rw [writeOutput_some sites.files.nowhere, writeOutput_some sites.files.nowhere']
    refine .bind_eq (.access (sites.files.enclose (.inl h)) fun e => .same _) fun _ => ?_
    refine .bind_eq (.access (sites.files.write (.inl h) text) fun e => .unwritable h e) fun _ => ?_
    exact .prints (prints_put _) (prints_put _)

/-! ## Checking -/

theorem agree_validationReport (sites : SitesAlike N W s s') {q q' : ValidateRequest}
    (h : q.Renamed N q') (input : Input) :
    Agree N W Eq (validationReport s q input) (validationReport s' q' input) := by
  obtain ⟨file, mode, strictTypes, instance?, asJson⟩ := q
  obtain ⟨others, -, document⟩ := h
  rw [others]
  generalize q'.instance? = instance?' at document
  cases document with
  | none => exact .pure rfl
  | some h =>
    cases input with
    | resourceSchema schema =>
      refine .bind_eq (agree_readInput sites (.inr h)) fun text => ?_
      refine .bind_eq (.orFail (.instance h) _) fun document => ?_
      exact .bind_eq (.orFail (fun fault => .same _) _) fun found => .pure rfl
    | _ => exact .throw (.same _)

theorem agree_validate (sites : SitesAlike N W s s') {q q' : ValidateRequest}
    (h : q.Renamed N q') : Agree N W Eq (validate s q) (validate s' q') := by
  refine .bind_eq (agree_readInput sites (.inl h.file)) fun text => ?_
  have mode : q'.mode = q.mode := by rw [h.others]
  have asJson : q'.asJson = q.asJson := by rw [h.others]
  rw [mode, asJson]
  refine .bind_eq (.orFail (fun e => .same _) _) fun input => ?_
  refine .bind_eq (agree_validationReport sites h input) fun report => ?_
  have verdict : Agree N W Eq
      (if !report.valid then throw (.invalid report.errors.length) else pure () : Task _ Unit)
      (if !report.valid then throw (.invalid report.errors.length) else pure ()) := by
    split
    · exact .throw (.same _)
    · exact .pure rfl
  cases q.asJson with
  | true => exact .bind_eq (.prints (prints_put _) (prints_put _)) fun _ => verdict
  | false =>
    have told (file : String) {ρ : Type} :
        Prints ((reportLines file report).forM putLine : Task (StateM ρ) Unit) :=
      prints_forM (fun line => prints_put _) _
    exact .bind_eq (.prints (told _) (told _)) fun _ => verdict

/-! ## Generating and converting -/

theorem agree_generate (sites : SitesAlike N W s s') {q q' : GenerateRequest}
    (h : q.Renamed N q') : Agree N W Eq (generate s q) (generate s' q') := by
  refine .bind_eq (agree_loadConfiguration sites h.config) fun config => ?_
  refine .bind_eq (agree_readInput sites (.inl h.schema)) fun text => ?_
  have location : q'.location? = q.location? := by rw [h.others]
  rw [location, sites.now]
  refine .bind_eq (.orFail (fun e => .same _) _) fun input => ?_
  refine .bind_eq (.orFail (fun e => .same _) _) fun document => ?_
  refine .bind_eq (agree_writeOutput sites _ h.out) fun _ => ?_
  have parametersFile := h.parametersFile
  generalize q.parametersFile? = file?, q'.parametersFile? = file?' at parametersFile
  cases parametersFile with
  | none => exact .pure rfl
  | some h => exact agree_writeOutput sites _ (.some h)

theorem agree_convert (sites : SitesAlike N W s s') {q q' : ConvertRequest}
    (h : q.Renamed N q') : Agree N W Eq (convert s q) (convert s' q') := by
  have applied : q'.apply = q.apply := by rw [h.others]; rfl
  refine .bind_eq (agree_loadConfiguration sites h.config) fun config => ?_
  refine .bind_eq (agree_readInput sites (.inl h.template)) fun text => ?_
  rw [applied, sites.now]
  refine .bind_eq (.orFail (fun e => .same _) _) fun template => ?_
  have announced {ρ : Type} (missing : List Conversion.MissingDependency) : Prints
      (missing.forM fun d => putMessage ("   ⚠️  " ++ d.type ++ " will be generated: " ++ d.reason) :
        Task (StateM ρ) Unit) :=
    prints_forM (fun d => prints_putMessage _) missing
  refine .bind_eq (.prints (announced _) (announced _)) fun _ => ?_
  refine .bind_eq (.orFail (fun e => .same _) _) fun document => ?_
  exact agree_writeOutput sites _ h.out

/-! ## Assembling -/

/-- What each step of a fold keeps holds of the result. -/
theorem of_foldlM {ε α β : Type} {P : β → Prop} {f : β → α → Except ε β} {xs : List α} {b b' : β}
    (h : xs.foldlM f b = .ok b') (start : P b)
    (step : ∀ a ∈ xs, ∀ b b', P b → f b a = .ok b' → P b') : P b' := by
  induction xs generalizing b with
  | nil =>
    cases h
    exact start
  | cons a xs ih =>
    rw [List.foldlM_cons] at h
    cases first : f b a with
    | error e =>
      rw [first] at h
      cases h
    | ok b₁ =>
      rw [first] at h
      exact ih h (step a List.mem_cons_self b b₁ start first) fun x hx =>
        step x (List.mem_cons_of_mem a hx)

/-- What is selected comes from the catalog, under an id that was given. -/
theorem mem_of_select {ids : List String} {selection : List CatalogEntry}
    (h : select ids = .ok selection) :
    ∀ entry ∈ selection, entry ∈ Catalog.entries ∧ entry.id ∈ ids := by
  refine of_foldlM (P := fun chosen => ∀ entry ∈ chosen, entry ∈ Catalog.entries ∧ entry.id ∈ ids)
    h (List.forall_mem_nil _) fun id given chosen chosen' kept came => ?_
  split at came
  · cases came
  case h_2 added found =>
    have new : added ∈ Catalog.entries ∧ added.id ∈ ids := by
      rw [Catalog.get?] at found
      have same := List.find?_some found
      exact ⟨List.mem_of_find?_eq_some found, eq_of_beq same ▸ given⟩
    cases came
    split
    · exact kept
    · exact List.forall_mem_append.mpr ⟨kept, List.forall_mem_singleton.mpr new⟩

theorem path_package {a : Assembly} {ids : List String}
    (h : ∀ m ∈ a.modules, ∃ id ∈ ids, m.path = Assembly.Batch.modulePath id) :
    ∀ file ∈ a.package, file.path ∈ packagePaths ids := by
  intro file mem
  simp only [Assembly.package, List.mem_append] at mem
  rcases mem with ((main | parameters) | modules) | texts
  · rw [List.mem_singleton.mp main]
    simp [packagePaths]
  · obtain ⟨v, -, rfl⟩ := Option.map_eq_some_iff.mp (Option.mem_toList.mp parameters)
    simp [packagePaths]
  · obtain ⟨m, given, rfl⟩ := List.mem_map.mp modules
    obtain ⟨id, mem, place⟩ := h m given
    exact List.mem_append_right _ (List.mem_map.mpr ⟨id, mem, place.symm⟩)
  · rcases List.mem_pair.mp texts with rfl | rfl <;> simp [packagePaths]

theorem agree_loadSchemas (sites : SitesAlike N W s s') {ids : List String}
    {directory directory' : String} (h : SchemasRenamed N ids directory directory')
    {selection : List CatalogEntry}
    (selected : ∀ entry ∈ selection, entry ∈ Catalog.entries ∧ entry.id ∈ ids) :
    Agree N W Eq (loadSchemas s ⟨directory⟩ selection) (loadSchemas s' ⟨directory'⟩ selection) := by
  refine .bind (R := List.Forall₂ Eq) (.mapM fun entry mem => ?_) fun found found' same => ?_
  · obtain ⟨listed, given⟩ := selected entry mem
    have read := sites.files.read (.inl (h entry listed given))
    refine .bind_eq (.liftM fun w w' hw => ?_) fun result => .pure rfl
    obtain ⟨results, worlds⟩ := read w w' hw
    exact ⟨congrArg (Assembly.SchemaDirectory.ofFile entry.schema) results, worlds⟩
  · rw [List.forall₂_eq_eq_eq] at same
    rw [same]
    exact .pure rfl

theorem agree_writePackage (sites : SitesAlike N W s s') {ids : List String}
    {directory directory' : String} (h : PackageRenamed N ids directory directory')
    {files : List Assembly.PackageFile} (places : ∀ file ∈ files, file.path ∈ packagePaths ids) :
    Agree N W (List.Forall₂ fun _ _ => True) (writePackage s directory files)
      (writePackage s' directory' files) := by
  refine .mapM fun file mem => ?_
  have below := h file.path (places file mem)
  refine .bind_eq (.access (sites.files.enclose (.inr below)) fun e => .same _) fun _ => ?_
  refine .bind_eq (.access (sites.files.write (.inr below) _) fun e => .same _) fun _ => ?_
  exact .pure trivial

theorem agree_assemble (sites : SitesAlike N W s s') {q q' : AssembleRequest}
    (h : q.Renamed N q') : Agree N W Eq (assemble s q) (assemble s' q') := by
  have modules : q'.modules = q.modules := by rw [h.others]
  have ids : q'.ids = q.ids := by rw [h.others]
  refine .bind_eq (agree_loadConfiguration sites h.config) fun config => ?_
  rw [modules, ids, sites.now]
  refine .bind_orFail (fun f => .same f) fun selection chosen => ?_
  have selected := mem_of_select chosen
  refine .bind_eq (agree_loadSettings sites h.settings) fun settings => ?_
  refine .bind_eq (agree_loadSchemas sites h.schemas selected) fun schemas => ?_
  refine .bind_orFail (fun e => .same _) fun assembly made => ?_
  refine .bind_eq (.prints (prints_putMessage _) (prints_putMessage _)) fun _ => ?_
  have warned {ρ : Type} : Prints (assembly.warnings.forM fun text => putMessage ("   ⚠️  " ++ text) :
      Task (StateM ρ) Unit) :=
    prints_forM (fun text => prints_putMessage _) _
  refine .bind_eq (.prints warned warned) fun _ => ?_
  have out := h.out
  generalize q.out? = out?, q'.out? = out?' at out
  cases out with
  | none => exact .prints (prints_put _) (prints_put _)
  | some h =>
    have places : ∀ file ∈ assembly.package, file.path ∈ packagePaths q.ids := by
      refine path_package fun m mem => ?_
      obtain ⟨-, entry, here, -, -, place⟩ := Assembly.exists_entry_of_mem_modules made m mem
      exact ⟨entry.id, (selected entry here).2, place⟩
    refine .bind (agree_writePackage sites h places) fun written written' _ => ?_
    refine .bind_eq (.prints (prints_put _) (prints_put _)) fun _ => ?_
    exact .prints (prints_forM (fun path => prints_put _) written)
      (prints_forM (fun path => prints_put _) written')

theorem agree_perform (sites : SitesAlike N W s s') {c c' : Command} (h : c.Renamed N c') :
    Agree N W Eq (perform s c) (perform s' c') := by
  cases h with
  | validate h => exact agree_validate sites h
  | generate h => exact agree_generate sites h
  | convert h => exact agree_convert sites h
  | assemble h => exact agree_assemble sites h

end Commands

end BicepForge.CommandLine
