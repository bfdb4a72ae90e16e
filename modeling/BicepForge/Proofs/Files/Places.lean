import BicepForge.Files.Tree
import BicepForge.Proofs.Text.Pieces
import Mathlib.Algebra.Order.BigOperators.Group.List
import Mathlib.Algebra.Order.Ring.Nat
import Mathlib.Data.List.Nodup
import Mathlib.Tactic.SplitIfs

/-!
# The places that paths lead to

A path leads part by part from where it starts: empty parts and single dots stay, double dots go up,
and any other part goes down. A file tree finds what a path names at that place. A path below a
directory leads from the place of the directory along its parts. Main statement: paths lead to
different places strictly below whatever directory they are put in exactly if each of them has a way
down that never goes up past its beginning, and these ways are different.
-/

namespace BicepForge.Files.Path

/-- Where a part leads from a place. -/
def step (place : List String) (part : String) : List String :=
  if isIdle part then place else if part = ".." then place.dropLast else place ++ [part]

/-- The place that a path leads to, seen from a working directory. -/
def place (workingDirectory : List String) (path : String) : List String :=
  (parts path).foldl step (if isAbsolute path then [] else workingDirectory)

/-- A part that leads down. -/
def isOrdinary (part : String) : Bool :=
  !isIdle part && part != ".."

/-- The way that parts lead down behind another one; none if they go up past its beginning. -/
def wayFrom? (way : List String) : List String → Option (List String)
  | [] => some way
  | part :: parts =>
    if isIdle part then wayFrom? way parts
    else if part = ".." then
      if way.isEmpty then none else wayFrom? way.dropLast parts
    else wayFrom? (way ++ [part]) parts

/-- The way that a path leads down from where it begins. -/
def wayDown? (path : String) : Option (List String) :=
  wayFrom? [] (parts path)

/-! ## Parts -/

theorem notMem_of_mem_parts {path part : String} (h : part ∈ parts path) : '/' ∉ part.toList := by
  obtain ⟨piece, mem, rfl⟩ := List.mem_map.mp h
  rw [String.toList_ofList]
  exact Text.notMem_of_mem_splitOn piece mem

theorem parts_of_notMem {path : String} (h : '/' ∉ path.toList) : parts path = [path] := by
  rw [parts, Text.splitOn_of_notMem h, List.map_singleton, String.ofList_toList]

theorem parts_slash (front back : String) :
    parts (front ++ "/" ++ back) = parts front ++ parts back := by
  have slash : "/".toList = ['/'] := by decide
  rw [parts, String.toList_append, String.toList_append, slash, List.append_assoc,
    List.singleton_append, Text.splitOn_append, List.map_append, parts, parts]

theorem parts_injective : Function.Injective parts := by
  intro path path' same
  have chars := congrArg (List.map String.toList) same
  have back : String.toList ∘ String.ofList = id := funext fun _ => String.toList_ofList
  rw [parts, parts, List.map_map, List.map_map, back, List.map_id, List.map_id, Text.splitOn_eq,
    Text.splitOn_eq] at chars
  have joined (cs : List Char) : ['/'].intercalate (cs.splitOn '/') = cs :=
    List.intercalate_splitOn '/'
  rw [← String.toList_inj, ← joined path.toList, chars, joined]

/-- An ending without slashes belongs to the last part. -/
theorem exists_parts_append (path : String) {ending : String} (h : '/' ∉ ending.toList) :
    ∃ front last, parts path = front ++ [last] ∧
      parts (path ++ ending) = front ++ [last ++ ending] := by
  obtain ⟨front, last, whole, longer⟩ := Text.exists_splitOn_append h path.toList
  refine ⟨front.map String.ofList, String.ofList last, ?_, ?_⟩
  · rw [parts, whole, List.map_append, List.map_singleton]
  · rw [parts, String.toList_append, longer, List.map_append, List.map_singleton,
      String.ofList_append, String.ofList_toList]

/-! ## Places -/

theorem not_isAbsolute {part : String} (h : '/' ∉ part.toList) : isAbsolute part = false := by
  rw [isAbsolute, Text.startsWith, Bool.eq_false_iff]
  intro starts
  obtain ⟨rest, text⟩ := List.isPrefixOf_iff_prefix.mp starts
  exact h (text ▸ List.mem_append_left _ (by decide))

theorem isAbsolute_append {base : String} (h : base ≠ "") (path : String) :
    isAbsolute (base ++ path) = isAbsolute base := by
  have slash : "/".toList = ['/'] := by decide
  rw [isAbsolute, isAbsolute, Text.startsWith, Text.startsWith, String.toList_append, slash]
  cases chars : base.toList with
  | nil => exact absurd (String.toList_eq_nil_iff.mp chars) h
  | cons c cs => rfl

/-- A path seen from another one leads on from where that one leads. -/
theorem place_join (w : List String) (base : String) {part : String} (h : '/' ∉ part.toList) :
    place w (join base part) = step (place w base) part := by
  have relative := not_isAbsolute h
  rw [join, if_neg (by simp [relative])]
  by_cases empty : base = ""
  · rw [if_pos (.inl empty), empty, String.empty_append, place, place, relative, parts_of_notMem h]
    rfl
  by_cases ends : Text.endsWith base "/" = true
  · obtain ⟨front, text⟩ := List.isSuffixOf_iff_suffix.mp ends
    have whole : base = String.ofList front ++ "/" := by
      rw [← String.toList_inj, String.toList_append, String.toList_ofList, text]
    have trailing : parts base = parts (String.ofList front) ++ [""] := by
      have nothing := parts_slash (String.ofList front) ""
      rwa [String.append_empty, ← whole] at nothing
    have idle (q : List String) : step q "" = q := rfl
    rw [if_pos (.inr ends), place, place, isAbsolute_append empty, trailing]
    rw [whole, parts_slash, parts_of_notMem h, List.foldl_append, List.foldl_append]
    simp only [List.foldl_cons, List.foldl_nil, idle]
  · rw [if_neg (by simp [empty, ends]), place, place, String.append_assoc, isAbsolute_append empty,
      ← String.append_assoc, parts_slash, parts_of_notMem h, List.foldl_append]
    rfl

/-- A path below a directory leads from there along its parts. -/
theorem place_foldl_join (w : List String) (directory : String) {ps : List String}
    (h : ∀ part ∈ ps, '/' ∉ part.toList) :
    place w (ps.foldl join directory) = ps.foldl step (place w directory) := by
  induction ps generalizing directory with
  | nil => rfl
  | cons part ps ih =>
    rw [List.forall_mem_cons] at h
    rw [List.foldl_cons, ih _ h.2, place_join w directory h.1, List.foldl_cons]

/-! ## Ways down -/

theorem foldl_step_of_wayFrom? {ps way way' : List String} (h : wayFrom? way ps = some way')
    (base : List String) : ps.foldl step (base ++ way) = base ++ way' := by
  induction ps generalizing way with
  | nil =>
    cases h
    rfl
  | cons part ps ih =>
    rw [wayFrom?] at h
    rw [List.foldl_cons, step]
    split_ifs at h with idle up top
    · rw [if_pos idle]
      exact ih h
    · have notEmpty : way ≠ [] := fun empty => top (by rw [empty]; rfl)
      rw [if_neg idle, if_pos up, List.dropLast_append_of_ne_nil notEmpty]
      exact ih h
    · rw [if_neg idle, if_neg up, List.append_assoc]
      exact ih h

theorem wayFrom?_of_isOrdinary {ps : List String} (h : ∀ part ∈ ps, isOrdinary part = true)
    (way : List String) : wayFrom? way ps = some (way ++ ps) := by
  induction ps generalizing way with
  | nil => rw [wayFrom?, List.append_nil]
  | cons part ps ih =>
    rw [List.forall_mem_cons, isOrdinary, Bool.and_eq_true, Bool.not_eq_true', bne_iff_ne] at h
    rw [wayFrom?, h.1.1, if_neg Bool.false_ne_true, if_neg h.1.2, ih h.2, List.append_assoc,
      List.singleton_append]

section Fresh

variable {name : String} {ps : List String}

/-- What is nowhere on the way is not in the place at its end. -/
theorem notMem_foldl_step (fresh : name ∉ ps) {q : List String} (h : name ∉ q) :
    name ∉ ps.foldl step q := by
  induction ps generalizing q with
  | nil => exact h
  | cons part ps ih =>
    obtain ⟨other, fresh⟩ := not_or.mp (List.mem_cons.not.mp fresh)
    apply ih fresh
    unfold step
    split_ifs
    · exact h
    · exact fun mem => h (List.dropLast_subset _ mem)
    · simp [h, other]

/-- Parts that end below a directory of a name that they do not hold lead a way down: once they were
above the directory they could not get back. -/
theorem wayFrom?_of_foldl_step (fresh : name ∉ ps) {way way' : List String}
    (h : ps.foldl step (name :: way) = name :: way') : wayFrom? way ps = some way' := by
  induction ps generalizing way with
  | nil =>
    cases h
    rfl
  | cons part ps ih =>
    obtain ⟨-, fresh⟩ := not_or.mp (List.mem_cons.not.mp fresh)
    rw [List.foldl_cons, step] at h
    rw [wayFrom?]
    split_ifs at h ⊢ with idle up top
    · exact ih fresh h
    · rw [List.isEmpty_iff.mp top] at h
      have lost : name ∉ ps.foldl step [] := notMem_foldl_step fresh List.not_mem_nil
      exact absurd (h ▸ List.mem_cons_self) lost
    · have notEmpty : way ≠ [] := fun empty => top (by rw [empty]; rfl)
      rw [List.dropLast_cons_of_ne_nil notEmpty] at h
      exact ih fresh h
    · exact ih fresh h

/-- There are always more names for a directory. -/
theorem exists_fresh (ps : List String) :
    ∃ name : String, name ∉ ps ∧ '/' ∉ name.toList ∧ isOrdinary name = true := by
  let long := String.ofList (List.replicate ((ps.map String.length).sum + 3) 'x')
  have length : long.length = (ps.map String.length).sum + 3 := by
    rw [← String.length_toList, String.toList_ofList, List.length_replicate]
  refine ⟨long, ?_, ?_, ?_⟩
  · intro mem
    have bound := List.single_le_sum (fun _ _ => Nat.zero_le _) _ (List.mem_map_of_mem (f := String.length) mem)
    omega
  · rw [String.toList_ofList]
    intro mem
    exact absurd (List.eq_of_mem_replicate mem) (by decide)
  · have other (s : String) (short : s.length < 3) : long ≠ s := by
      intro same
      rw [same] at length
      omega
    have idle : isIdle long = false := by
      simp [isIdle, other "" (by decide), other "." (by decide)]
    rw [isOrdinary, idle, Bool.not_false, Bool.true_and, bne_iff_ne]
    exact other ".." (by decide)

end Fresh

/-! ## Below a directory -/

/-- The path of something below a directory. -/
def below (directory path : String) : String :=
  (parts path).foldl join directory

theorem place_below (w : List String) (directory path : String) :
    place w (below directory path) = (parts path).foldl step (place w directory) :=
  place_foldl_join w directory fun _ => notMem_of_mem_parts

/-- Paths that lead to different places strictly below a directory. -/
structure Contained (w : List String) (directory : String) (paths : List String) : Prop where
  inside : ∀ path ∈ paths, ∃ way ≠ [], place w (below directory path) = place w directory ++ way
  apart : (paths.map fun path => place w (below directory path)).Nodup

/-- Paths with different ways down, none of which ends where it begins. -/
structure LeadDown (paths : List String) : Prop where
  down : ∀ path ∈ paths, ∃ way ≠ [], wayDown? path = some way
  apart : (paths.map wayDown?).Nodup

theorem LeadDown.contained {paths : List String} (h : LeadDown paths) (w : List String)
    (directory : String) : Contained w directory paths := by
  have leads {path : String} {way : List String} (some : wayDown? path = some way) :
      place w (below directory path) = place w directory ++ way := by
    have fold := foldl_step_of_wayFrom? some (place w directory)
    rwa [List.append_nil, ← place_below] at fold
  constructor
  · intro path mem
    obtain ⟨way, notEmpty, down⟩ := h.down path mem
    exact ⟨way, notEmpty, leads down⟩
  · apply List.Nodup.map_on _ h.apart.of_map
    intro path mem path' mem' same
    obtain ⟨way, -, down⟩ := h.down path mem
    obtain ⟨way', -, down'⟩ := h.down path' mem'
    rw [leads down, leads down', List.append_cancel_left_eq] at same
    exact List.inj_on_of_nodup_map h.apart mem mem' (by rw [down, down', same])

/-- Paths are contained in every directory exactly if they lead down. -/
theorem contained_iff {paths : List String} :
    (∀ w directory, Contained w directory paths) ↔ LeadDown paths := by
  refine ⟨fun h => ?_, LeadDown.contained⟩
  obtain ⟨name, fresh, slashes, ordinary⟩ := exists_fresh (paths.flatMap parts)
  have base : place [] name = [name] := by
    rw [place, parts_of_notMem slashes, not_isAbsolute slashes]
    rw [isOrdinary, Bool.and_eq_true, Bool.not_eq_true', bne_iff_ne] at ordinary
    simp [step, ordinary.1, ordinary.2]
  obtain ⟨inside, apart⟩ := h [] name
  have down : ∀ path ∈ paths, ∃ way ≠ [], wayDown? path = some way ∧
      place [] (below name path) = name :: way := by
    intro path mem
    obtain ⟨way, notEmpty, leads⟩ := inside path mem
    rw [base, List.singleton_append] at leads
    have fold := leads
    rw [place_below, base] at fold
    have foreign : name ∉ parts path := fun own => fresh (List.mem_flatMap.mpr ⟨path, mem, own⟩)
    exact ⟨way, notEmpty, wayFrom?_of_foldl_step foreign fold, leads⟩
  constructor
  · intro path mem
    obtain ⟨way, notEmpty, some, -⟩ := down path mem
    exact ⟨way, notEmpty, some⟩
  · apply List.Nodup.map_on _ apart.of_map
    intro path mem path' mem' same
    obtain ⟨way, -, some, leads⟩ := down path mem
    obtain ⟨way', -, some', leads'⟩ := down path' mem'
    rw [some, some'] at same
    cases same
    exact List.inj_on_of_nodup_map apart mem mem' (leads.trans leads'.symm)

end BicepForge.Files.Path
