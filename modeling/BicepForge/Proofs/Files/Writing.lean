import BicepForge.Proofs.Files.Places
import Mathlib.Data.List.DropRight

/-!
# What writing does to a file tree

A file that is written stands at the place that its path leads to. All other files stay as they are,
and directories that are made on the way change no file at all.
-/

namespace BicepForge.Files

/-! ## Nodes -/

namespace Node

/-- The contents of the file at a place; none where there is no file. -/
def fileAt? (n : Node) (place : List String) : Option Contents :=
  match n.find? place with
  | some (.file contents) => some contents
  | _ => none

@[simp] theorem fileAt?_directory_nil (entries : List (String × Node)) :
    (directory entries).fileAt? [] = none := rfl

theorem fileAt?_cons (entries : List (String × Node)) (name : String) (place : List String) :
    (directory entries).fileAt? (name :: place) =
      (entries.lookup name).bind (·.fileAt? place) := by
  rw [fileAt?, find?]
  cases entries.lookup name with
  | none => rfl
  | some n => rfl

theorem find?_append (n : Node) (place further : List String) :
    n.find? (place ++ further) = (n.find? place).bind (find? further) := by
  induction place generalizing n with
  | nil => rfl
  | cons name place ih =>
    cases n with
    | file contents => rfl
    | directory entries =>
      rw [List.cons_append, find?, find?]
      cases entries.lookup name with
      | none => rfl
      | some n => exact ih n

/-- A node without anything below it. -/
def IsBare (n : Node) : Prop :=
  ∀ name place, n.find? (name :: place) = none

theorem isBare_file (contents : Contents) : (file contents).IsBare :=
  fun _ _ => rfl

theorem isBare_directory : (directory []).IsBare :=
  fun _ _ => rfl

theorem IsBare.fileAt? {n : Node} (h : n.IsBare) (name : String) (place : List String) :
    n.fileAt? (name :: place) = none := by
  rw [Node.fileAt?, h]

/-- What is put into a directory stands there. -/
theorem find?_put {n new : Node} {place : List String} {entries : List (String × Node)}
    (h : n.find? place = some (.directory entries)) (name : String) :
    (n.put (place ++ [name]) new).find? (place ++ [name]) = some new := by
  induction place generalizing n with
  | nil =>
    cases h
    rw [List.nil_append, put, find?, Entries.lookup_put_self, put]
    rfl
  | cons first place ih =>
    cases n with
    | file contents => cases h
    | directory others =>
      obtain ⟨n, found, inner⟩ := Option.bind_eq_some_iff.mp h
      rw [List.cons_append, put, find?, Entries.lookup_put_self, found]
      exact ih inner

/-- What is put in place of something bare changes no file anywhere else. -/
theorem fileAt?_put_of_ne {n new : Node} {place : List String} (bare : new.IsBare)
    (h : ∀ old, n.find? place = some old → old.IsBare) {other : List String}
    (apart : other ≠ place) : (n.put place new).fileAt? other = n.fileAt? other := by
  induction place generalizing n other with
  | nil =>
    cases other with
    | nil => exact absurd rfl apart
    | cons name rest => rw [put, bare.fileAt?, (h n rfl).fileAt?]
  | cons first place ih =>
    cases n with
    | file contents => rfl
    | directory entries =>
      cases other with
      | nil => rfl
      | cons name rest =>
        rw [put, fileAt?_cons, fileAt?_cons]
        by_cases same : name = first
        · subst same
          have inner : rest ≠ place := fun eq => apart (by rw [eq])
          rw [Entries.lookup_put_self, Option.bind_some]
          cases found : entries.lookup name with
          | some n =>
            rw [Option.getD_some, Option.bind_some]
            refine ih (fun old there => h old ?_) inner
            rw [find?, found]
            exact there
          | none =>
            -- nothing was there, which is like an empty directory
            rw [Option.getD_none, Option.bind_none, ih _ inner]
            · cases rest with
              | nil => rfl
              | cons name rest => rfl
            · intro old there
              cases place with
              | nil =>
                cases there
                exact isBare_directory
              | cons name place => cases there
        · rw [Entries.lookup_put_of_ne same]

/-- A directory that is made where nothing was changes no file. -/
theorem fileAt?_put_directory {n : Node} {place : List String} (h : n.find? place = none)
    (other : List String) : (n.put place (.directory [])).fileAt? other = n.fileAt? other := by
  by_cases same : other = place
  · subst same
    rw [fileAt?, fileAt?, h]
    induction other generalizing n with
    | nil => cases h
    | cons name rest ih =>
      cases n with
      | file contents => rfl
      | directory entries =>
        rw [put, find?, Entries.lookup_put_self, Option.bind_some]
        cases found : entries.lookup name with
        | some n =>
          rw [find?, found] at h
          exact ih h
        | none =>
          cases rest with
          | nil => rfl
          | cons name rest => exact ih rfl
  · refine fileAt?_put_of_ne isBare_directory (fun old there => ?_) same
    rw [h] at there
    cases there

end Node

/-! ## Trees -/

namespace Tree

def fileAt? (t : Tree) (place : List String) : Option Contents :=
  t.root.fileAt? place

theorem place_of_follow {root : Node} {ps place place' : List String}
    (h : follow root place ps = .ok place') : place' = ps.foldl Path.step place := by
  induction ps generalizing place with
  | nil =>
    cases h
    rfl
  | cons part ps ih =>
    rw [follow] at h
    rw [List.foldl_cons, Path.step]
    split at h
    · split_ifs at h ⊢ with idle up long there
      · exact ih h
      · exact ih h
      · exact ih h
    · cases h
    · cases h

/-- A path without slashes at its end has its last part as such. -/
theorem parts_of_lastPart {path : String} {ps : List String} {name : String}
    (h : lastPart path = (ps, name, false)) : Path.parts path = ps ++ [name] := by
  have notEmpty : Path.parts path ≠ [] :=
    List.map_eq_nil_iff.not.mpr (Text.splitOn_ne_nil _ _)
  let trimmed := (Path.parts path).rdropWhile (· = "")
  obtain ⟨front, rest⟩ := Prod.mk.inj h
  obtain ⟨last, short⟩ := Prod.mk.inj rest
  have whole : trimmed = Path.parts path :=
    (List.rdropWhile_prefix _ _).eq_of_length_le (not_lt.mp (of_decide_eq_false short))
  change trimmed.dropLast = ps at front
  change trimmed.getLastD "" = name at last
  rw [whole] at front last
  rw [← front, ← last, List.getLastD_eq_getLast?, List.getLast?_eq_some_getLast notEmpty,
    Option.getD_some, List.dropLast_append_getLast]

/-- A text that could be written was put into a directory, under a name that leads down and that no
directory has. -/
theorem exists_of_write {t t' : Tree} {path text : String} (h : t.write path text = .ok t') :
    ∃ ps name place entries, lastPart path = (ps, name, false) ∧
      follow t.root (t.start path) ps = .ok place ∧
      t.root.find? place = some (.directory entries) ∧ Path.isOrdinary name = true ∧
      (∀ inner, entries.lookup name ≠ some (.directory inner)) ∧
      t' = { t with root := t.root.put (place ++ [name]) (.file (.text text)) } := by
  unfold write at h
  rcases split : lastPart path with ⟨ps, name, slashed⟩
  rw [split] at h
  cases check : checkPath path with
  | error e =>
    rw [check] at h
    cases h
  | ok =>
    cases way : follow t.root (t.start path) ps with
    | error e =>
      rw [check] at h
      simp only [way] at h
      cases h
    | ok place =>
      rw [check] at h
      simp only [way] at h
      simp only [bind, Except.bind] at h
      cases found : t.root.find? place with
      | none =>
        rw [found] at h
        cases h
      | some node =>
        rw [found] at h
        cases node with
        | file contents => cases h
        | directory entries =>
          dsimp only at h
          split_ifs at h with bad long
          split at h
          · cases h
          · rename_i free
            cases h
            obtain ⟨plain, notIdle, notUp⟩ : slashed = false ∧ Path.isIdle name = false ∧
                name ≠ ".." := by
              simpa [not_or] using bad
            refine ⟨ps, name, place, entries, by rw [plain], way, found, ?_, free, rfl⟩
            rw [Path.isOrdinary, notIdle, Bool.not_false, Bool.true_and, bne_iff_ne]
            exact notUp

/-- A text that could be written stands at the place that the path leads to, and nothing else has
changed. -/
theorem fileAt?_of_write {t t' : Tree} {path text : String} (h : t.write path text = .ok t') :
    t'.workingDirectory = t.workingDirectory ∧
      t'.fileAt? (Path.place t.workingDirectory path) = some (.text text) ∧
      ∀ other ≠ Path.place t.workingDirectory path, t'.fileAt? other = t.fileAt? other := by
  obtain ⟨ps, name, place, entries, last, way, there, ordinary, free, rfl⟩ := exists_of_write h
  have leads : Path.place t.workingDirectory path = place ++ [name] := by
    rw [Path.isOrdinary, Bool.and_eq_true, Bool.not_eq_true', bne_iff_ne] at ordinary
    rw [Path.place, parts_of_lastPart last, List.foldl_append, List.foldl_cons, List.foldl_nil]
    change Path.step (ps.foldl Path.step (t.start path)) name = _
    rw [← place_of_follow way, Path.step, ordinary.1, if_neg Bool.false_ne_true,
      if_neg ordinary.2]
  have bare : ∀ old, t.root.find? (place ++ [name]) = some old → old.IsBare := by
    intro old found
    rw [Node.find?_append, there, Option.bind_some, Node.find?] at found
    cases old with
    | file contents => exact Node.isBare_file contents
    | directory inner =>
      obtain ⟨n, same, rest⟩ := Option.bind_eq_some_iff.mp found
      cases rest
      exact absurd same (free inner)
  rw [leads]
  refine ⟨rfl, ?_, fun other apart => ?_⟩
  · rw [fileAt?, Node.fileAt?, Node.find?_put there]
  · exact Node.fileAt?_put_of_ne (Node.isBare_file _) bare apart

/-- Making directories along a way changes no file. -/
theorem fileAt?_ensureAlong (t : Tree) (place ps : List String) :
    (t.ensureAlong place ps).2.workingDirectory = t.workingDirectory ∧
      ∀ other, (t.ensureAlong place ps).2.fileAt? other = t.fileAt? other := by
  induction ps generalizing t place with
  | nil => exact ⟨rfl, fun _ => rfl⟩
  | cons part ps ih =>
    rw [ensureAlong]
    by_cases idle : Path.isIdle part = true
    · rw [if_pos idle]
      exact ih t place
    by_cases up : part = ".."
    · rw [if_neg idle, if_pos up]
      exact ih t place.dropLast
    by_cases long : longestName < part.utf8ByteSize
    · rw [if_neg idle, if_neg up, if_pos long]
      exact ⟨rfl, fun _ => rfl⟩
    rw [if_neg idle, if_neg up, if_neg long]
    cases there : t.root.find? (place ++ [part]) with
    | none =>
      let made : Tree := { t with root := t.root.put (place ++ [part]) (.directory []) }
      obtain ⟨working, files⟩ := ih made (place ++ [part])
      refine ⟨working, fun other => ?_⟩
      exact (files other).trans (Node.fileAt?_put_directory there other)
    | some n =>
      cases n with
      | file contents => exact ⟨rfl, fun _ => rfl⟩
      | directory entries => exact ih t (place ++ [part])

/-- Making directories changes no file. -/
theorem fileAt?_ensureDirectory (t : Tree) (path : String) :
    (t.ensureDirectory path).2.workingDirectory = t.workingDirectory ∧
      ∀ other, (t.ensureDirectory path).2.fileAt? other = t.fileAt? other := by
  unfold ensureDirectory
  split_ifs
  · exact ⟨rfl, fun _ => rfl⟩
  · split
    · exact ⟨rfl, fun _ => rfl⟩
    · exact fileAt?_ensureAlong t _ _

/-- What is written through an access is written to the tree. -/
theorem write_of_access {t t' : Tree} {path text : String} {done : Unit}
    (h : (access.write path text).run t = (.ok done, t')) : t.write path text = .ok t' := by
  simp only [access, StateT.run_bind, StateT.run_get, pure_bind] at h
  cases wrote : t.write path text with
  | error e =>
    rw [wrote] at h
    cases h
  | ok t₁ =>
    rw [wrote] at h
    cases h
    rfl

/-- A file written through an access, with the directories on the way, stands at the place that its
path leads to, and nothing else has changed. -/
theorem fileAt?_of_access {t t₁ t₂ : Tree} {holder path text : String} {made done : Unit}
    (enclosed : (access.ensureDirectory holder).run t = (.ok made, t₁))
    (wrote : (access.write path text).run t₁ = (.ok done, t₂)) :
    t₂.workingDirectory = t.workingDirectory ∧
      t₂.fileAt? (Path.place t.workingDirectory path) = some (.text text) ∧
      ∀ other ≠ Path.place t.workingDirectory path, t₂.fileAt? other = t.fileAt? other := by
  obtain ⟨working, files⟩ := fileAt?_ensureDirectory t holder
  have tree : (t.ensureDirectory holder).2 = t₁ := (Prod.mk.inj enclosed).2
  rw [tree] at working files
  obtain ⟨working', there, others⟩ := fileAt?_of_write (write_of_access wrote)
  rw [working] at working' there others
  exact ⟨working', there, fun other apart => (others other apart).trans (files other)⟩

end Tree

end BicepForge.Files
