import BicepForge.Assembly.Package
import BicepForge.Proofs.Assembly.Modes
import BicepForge.Proofs.CommandLine.TwoRuns
import BicepForge.Proofs.Files.Writing

/-!
# Where the files of a package go

The files of a package have different paths if the ids of its modules differ. They are written to
different places strictly below any directory exactly if their paths lead down; a module does so if no
part of its id ahead of the last one is empty, a single dot or a double dot. An id that goes up leads
out of the directory, or back to another file of the package.
-/

namespace BicepForge.Assembly

open Files

/-- Whether an id is the path of something below the place where it begins, by its parts. -/
def leadsDown (id : String) : Bool :=
  (Path.parts id).dropLast.all Path.isOrdinary

def packagePaths (a : Assembly) : List String :=
  a.package.map (·.path)

/-! ## The paths of a package -/

/-- The files that can stand beside the modules. -/
def besideModules : List String :=
  ["main.bicep", "main.parameters.json", "README.md", "deploy.ps1"]

/-- The paths of a package are those of its modules and some that stand beside them. -/
theorem perm_packagePaths (a : Assembly) :
    ∃ own, own.Sublist besideModules ∧ (packagePaths a).Perm (own ++ a.modules.map (·.path)) := by
  have modules : (a.modules.map fun m => (⟨m.path, m.document.text⟩ : PackageFile)).map (·.path) =
      a.modules.map (·.path) := by
    rw [List.map_map]
    rfl
  -- the modules stand ahead of the last two files
  have moved (front : List String) : (front ++ a.modules.map (·.path) ++
      ["README.md", "deploy.ps1"]).Perm (front ++ ["README.md", "deploy.ps1"] ++
        a.modules.map (·.path)) := by
    rw [List.append_assoc, List.append_assoc]
    exact List.Perm.append_left _ List.perm_append_comm
  unfold packagePaths package
  cases a.parametersFile? with
  | none =>
    refine ⟨["main.bicep"] ++ ["README.md", "deploy.ps1"], by decide, ?_⟩
    rw [List.map_append, List.map_append, modules]
    exact moved ["main.bicep"]
  | some v =>
    refine ⟨["main.bicep", "main.parameters.json"] ++ ["README.md", "deploy.ps1"], by decide, ?_⟩
    rw [List.map_append, List.map_append, modules]
    exact moved ["main.bicep", "main.parameters.json"]

/-- A module has the parts of its id, the last one with an ending, below a directory of its own. -/
theorem exists_parts_modulePath (id : String) :
    ∃ front last, Path.parts id = front ++ [last] ∧
      Path.parts (Batch.modulePath id) = "modules" :: front ++ [last ++ ".bicep"] := by
  obtain ⟨front, last, whole, longer⟩ :=
    Path.exists_parts_append id (show '/' ∉ ".bicep".toList by decide)
  have modules : Path.parts "modules" = ["modules"] := by decide
  refine ⟨front, last, whole, ?_⟩
  have split := Path.parts_slash "modules" (id ++ ".bicep")
  rw [modules, longer] at split
  rw [Batch.modulePath, String.append_assoc]
  exact split

theorem isOrdinary_bicep (part : String) : Path.isOrdinary (part ++ ".bicep") = true := by
  have longer : 6 ≤ (part ++ ".bicep").length := by
    rw [String.length_append]
    exact Nat.le_add_left _ _
  have other (s : String) (short : s.length < 6) : part ++ ".bicep" ≠ s := by
    intro same
    rw [same] at longer
    omega
  simp [Path.isOrdinary, Path.isIdle, other "" (by decide), other "." (by decide),
    other ".." (by decide)]

theorem isOrdinary_parts_modulePath {id : String} (h : leadsDown id = true) :
    ∀ part ∈ Path.parts (Batch.modulePath id), Path.isOrdinary part = true := by
  obtain ⟨front, last, whole, longer⟩ := exists_parts_modulePath id
  rw [leadsDown, whole, List.dropLast_concat, List.all_eq_true] at h
  rw [longer, List.forall_mem_append, List.forall_mem_cons, List.forall_mem_singleton]
  exact ⟨⟨by decide, h⟩, isOrdinary_bicep last⟩

theorem modulePath_notMem_besideModules (id : String) : Batch.modulePath id ∉ besideModules := by
  intro mem
  have beside : ∀ path ∈ besideModules, (Path.parts path).head? ≠ some "modules" := by
    decide
  obtain ⟨front, last, -, longer⟩ := exists_parts_modulePath id
  apply beside _ mem
  rw [longer]
  rfl

section Modules

variable {a : Assembly}

/-- Each module of an assembly has a place of its own. -/
structure HasModulePaths (a : Assembly) : Prop where
  places : ∀ m ∈ a.modules, m.path = Batch.modulePath m.id
  ids : (a.modules.map (·.id)).Nodup

theorem HasModulePaths.nodup (h : HasModulePaths a) : (packagePaths a).Nodup := by
  obtain ⟨own, beside, perm⟩ := perm_packagePaths a
  have modules : a.modules.map (·.path) = (a.modules.map (·.id)).map Batch.modulePath := by
    rw [List.map_map]
    exact List.map_congr_left h.places
  have fixed : besideModules.Nodup := by decide
  rw [perm.nodup_iff, modules]
  apply (fixed.sublist beside).append (h.ids.map modulePath_injective)
  intro path mem mem'
  obtain ⟨id, -, rfl⟩ := List.mem_map.mp mem'
  exact modulePath_notMem_besideModules id (beside.subset mem)

/-- Modules with ids that lead down make a package that leads down. -/
theorem HasModulePaths.leadDown (h : HasModulePaths a)
    (plain : ∀ m ∈ a.modules, leadsDown m.id = true) : Path.LeadDown (packagePaths a) := by
  obtain ⟨own, beside, perm⟩ := perm_packagePaths a
  have fixed : ∀ path ∈ besideModules, (Path.parts path).all Path.isOrdinary = true := by
    decide
  have ordinary : ∀ path ∈ packagePaths a, ∀ part ∈ Path.parts path,
      Path.isOrdinary part = true := by
    intro path mem
    rcases List.mem_append.mp (perm.mem_iff.mp mem) with mem | mem
    · exact List.all_eq_true.mp (fixed path (beside.subset mem))
    · obtain ⟨m, given, rfl⟩ := List.mem_map.mp mem
      rw [h.places m given]
      exact isOrdinary_parts_modulePath (plain m given)
  have down : ∀ path ∈ packagePaths a, Path.wayDown? path = some (Path.parts path) :=
    fun path mem => Path.wayFrom?_of_isOrdinary (ordinary path mem) []
  constructor
  · intro path mem
    refine ⟨Path.parts path, ?_, down path mem⟩
    exact List.map_eq_nil_iff.not.mpr (Text.splitOn_ne_nil _ _)
  · rw [List.map_congr_left down]
    exact h.nodup.map ((Option.some_injective _).comp Path.parts_injective)

end Modules

/-! ## Writing -/

section Writing

open CommandLine

def placesBelow (w : List String) (directory : String) (files : List PackageFile) :
    List (List String) :=
  files.map fun file => Path.place w (Path.below directory file.path)

variable {directory : String} {c c' : Console} {files : List PackageFile} {written : List String}

/-- What a package is said to be written to are its paths below the directory. -/
theorem eq_below_of_writePackage {σ : Type} {s : Site (StateM σ)} {w w' : σ}
    (h : (writePackage s directory files).after c w = ((.ok written, c'), w')) :
    written = files.map fun file => Path.below directory file.path := by
  induction files generalizing c w written with
  | nil =>
    cases h
    rfl
  | cons file files ih =>
    rw [writePackage, List.mapM_cons] at h
    obtain ⟨path, c₁, w₁, first, rest⟩ := exists_of_after_bind h
    obtain ⟨paths, c₂, w₂, others, done⟩ := exists_of_after_bind rest
    obtain ⟨_, _, _, -, made⟩ := exists_of_after_bind first
    obtain ⟨_, _, _, -, told⟩ := exists_of_after_bind made
    cases told
    cases done
    rw [List.map_cons, ← ih others]
    rfl

/-- An access to files that succeeded did nothing else. -/
theorem run_of_access {σ α : Type} {action : StateM σ (Except FileError α)}
    {failure : FileError → Failure} {w w' : σ} {a : α}
    (h : (CommandLine.access action failure).after c w = ((.ok a, c'), w')) :
    action.run w = (.ok a, w') := by
  obtain ⟨r, c₁, w₁, acted, checked⟩ := exists_of_after_bind h
  rw [after_liftM] at acted
  cases acted
  cases same : (action.run w).1 with
  | error e =>
    rw [same] at checked
    cases checked
  | ok b =>
    rw [same] at checked
    cases checked
    exact Prod.ext same rfl

/-- A package that could be written to a tree stands there: every file that no later one has
overwritten holds its contents, and no other file has changed. -/
theorem fileAt?_of_writePackage {s : Site (StateM Tree)} (access : s.files = Tree.access)
    {t t' : Tree} (h : (writePackage s directory files).after c t = ((.ok written, c'), t')) :
    (∀ other ∉ placesBelow t.workingDirectory directory files, t'.fileAt? other = t.fileAt? other) ∧
      ((placesBelow t.workingDirectory directory files).Nodup → ∀ file ∈ files,
        t'.fileAt? (Path.place t.workingDirectory (Path.below directory file.path)) =
          some (.text file.contents)) := by
  induction files generalizing c t written with
  | nil =>
    cases h
    exact ⟨fun _ _ => rfl, fun _ => List.forall_mem_nil _⟩
  | cons file files ih =>
    rw [writePackage, List.mapM_cons] at h
    obtain ⟨path, c₁, t₁, first, rest⟩ := exists_of_after_bind h
    obtain ⟨paths, c₂, t₂, others, done⟩ := exists_of_after_bind rest
    obtain ⟨_, c₃, t₃, enclosed, made⟩ := exists_of_after_bind first
    obtain ⟨_, c₄, t₄, put, told⟩ := exists_of_after_bind made
    cases told
    cases done
    have enclosed := run_of_access enclosed
    have put := run_of_access put
    rw [access] at enclosed put
    obtain ⟨working, there, kept⟩ := Tree.fileAt?_of_access enclosed put
    obtain ⟨frame, contents⟩ := ih others
    rw [working] at frame contents
    refine ⟨fun other away => ?_, fun apart => ?_⟩
    · obtain ⟨first, later⟩ := not_or.mp (List.mem_cons.not.mp away)
      rw [frame other later]
      exact kept other first
    · obtain ⟨alone, apart⟩ := List.nodup_cons.mp apart
      rw [List.forall_mem_cons]
      refine ⟨?_, contents apart⟩
      rw [frame _ alone]
      exact there

end Writing

/-! ## Assemblies of a selection -/

section Selections

variable {c : Context} {config : Configuration} {schemas : String → Option ResourceSchema}
  {settings : Entries Json} {selection : List CatalogEntry} {a : Assembly}

theorem hasModulePaths_of_assemble
    (h : (assemble c config schemas settings selection).1 = .ok a)
    (distinct : (selection.map (·.id)).Nodup) : HasModulePaths a := by
  have filled : selection ≠ [] := by
    rintro rfl
    cases h
  rw [assemble_of_ne_nil filled] at h
  cases h
  have ids := @nodup_ids schemas selection distinct c
  constructor
  · change ∀ m ∈ (if config.generateModules then _ else _), _
    split
    · intro m mem
      obtain ⟨member, -, rfl⟩ := List.mem_map.mp mem
      rfl
    · exact List.forall_mem_nil _
  · change (List.map _ (if config.generateModules then _ else _)).Nodup
    split
    · rw [List.map_map]
      exact ids
    · exact List.nodup_nil

/-- The package of a selection with distinct ids has distinct paths. It stays below any directory,
with a place for each file, exactly if its paths lead down, as they do where there are no modules or
the ids lead down. Then, once it could be written to a tree, every file stands there with its
contents, and no file outside has changed. -/
theorem assemble_package (h : (assemble c config schemas settings selection).1 = .ok a)
    (distinct : (selection.map (·.id)).Nodup) :
    (packagePaths a).Nodup ∧
      ((∀ w directory, Path.Contained w directory (packagePaths a)) ↔
        Path.LeadDown (packagePaths a)) ∧
      ((config.generateModules = true → ∀ entry ∈ selection,
        (schemas entry.schema).isSome = true → leadsDown entry.id = true) →
        Path.LeadDown (packagePaths a)) ∧
      ∀ {s : CommandLine.Site (StateM Tree)} {directory : String} {c₁ c₂ : CommandLine.Console}
        {t t' : Tree} {written : List String}, s.files = Tree.access →
        (CommandLine.writePackage s directory a.package).after c₁ t = ((.ok written, c₂), t') →
        written = (packagePaths a).map (Path.below directory) ∧
          (∀ other ∉ placesBelow t.workingDirectory directory a.package,
            t'.fileAt? other = t.fileAt? other) ∧
          (Path.LeadDown (packagePaths a) → ∀ file ∈ a.package, ∃ way ≠ [],
            t'.fileAt? (Path.place t.workingDirectory directory ++ way) =
              some (.text file.contents)) := by
  have modules := hasModulePaths_of_assemble h distinct
  refine ⟨modules.nodup, Path.contained_iff, fun plain => ?_, ?_⟩
  · apply modules.leadDown
    intro m mem
    obtain ⟨asModules, entry, listed, loaded, same, -⟩ := exists_entry_of_mem_modules h m mem
    rw [same]
    exact plain asModules entry listed loaded
  · intro s directory c₁ c₂ t t' written access wrote
    obtain ⟨frame, contents⟩ := fileAt?_of_writePackage access wrote
    refine ⟨?_, frame, fun leads file mem => ?_⟩
    · rw [eq_below_of_writePackage wrote, packagePaths, List.map_map]
      rfl
    · obtain ⟨inside, apart⟩ := leads.contained t.workingDirectory directory
      rw [packagePaths, List.map_map] at apart
      obtain ⟨way, notEmpty, place⟩ := inside file.path (List.mem_map_of_mem mem)
      refine ⟨way, notEmpty, ?_⟩
      rw [← place]
      exact contents apart file mem

end Selections

/-- The package of the whole catalog stays below any directory. -/
theorem assemble_package_catalog :
    let c : Context := { registry := .azure, now := ⟨0⟩ }
    let config : Configuration := { generateModules := true }
    let schemas := fun _ : String => some (⟨.obj []⟩ : ResourceSchema)
    (Catalog.entries.map (·.id)).Nodup ∧
      ∃ a, (assemble c config schemas [] Catalog.entries).1 = .ok a ∧ a.modules.length = 8 ∧
        ∀ w directory, Path.Contained w directory (packagePaths a) := by
  intro c config schemas
  have distinct : (Catalog.entries.map (·.id)).Nodup := by decide
  refine ⟨distinct, _, rfl, rfl, ?_⟩
  obtain ⟨-, contained, plain, -⟩ :=
    assemble_package (c := c) (a := _) (rfl : (assemble c config schemas [] Catalog.entries).1 = _) distinct
  apply contained.mpr
  apply plain
  intro _ entry listed _
  have all : ∀ entry ∈ Catalog.entries, leadsDown entry.id = true := by decide
  exact all entry listed

/-- Of two modules with ids that go up, one comes back to the main document, and the other one leaves
the directory. -/
theorem upward_leaves :
    let c : Context := { registry := .azure, now := ⟨0⟩ }
    let config : Configuration := { generateModules := true }
    let schemas := fun _ : String => some (⟨.obj []⟩ : ResourceSchema)
    let upward : List CatalogEntry := [⟨"../main", "Main", "s"⟩, ⟨"../../up", "Up", "s"⟩]
    (upward.map (·.id)).Nodup ∧
      ∃ a, (assemble c config schemas [] upward).1 = .ok a ∧
        ["main.bicep", "modules/../main.bicep", "modules/../../up.bicep"] ⊆ packagePaths a ∧
        Path.place [] (Path.below "out" "main.bicep") = ["out", "main.bicep"] ∧
        Path.place [] (Path.below "out" "modules/../main.bicep") = ["out", "main.bicep"] ∧
        Path.place [] (Path.below "out" "modules/../../up.bicep") = ["up.bicep"] ∧
        ¬ Path.Contained [] "out" (packagePaths a) := by
  intro c config schemas upward
  have leaves : Path.place [] (Path.below "out" "modules/../../up.bicep") = ["up.bicep"] := by
    decide +kernel
  have paths : ["main.bicep", "modules/../main.bicep", "modules/../../up.bicep"] ⊆
      packagePaths (ofOutcomes (examineAll schemas c upward).2 config [] upward
        (examineAll schemas c upward).1) := by
    decide +kernel
  refine ⟨by decide, _, rfl, paths, by decide +kernel, by decide +kernel, leaves, ?_⟩
  rintro ⟨inside, -⟩
  obtain ⟨way, -, place⟩ := inside "modules/../../up.bicep" (paths (by decide))
  rw [leaves] at place
  have base : Path.place [] "out" = ["out"] := by decide
  rw [base] at place
  exact absurd (List.cons.inj place).1 (by decide)

end BicepForge.Assembly
