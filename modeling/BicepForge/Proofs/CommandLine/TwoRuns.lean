import BicepForge.CommandLine.Run
import Mathlib.Data.Option.Defs
import Mathlib.Data.List.Forall2

/-!
# Two runs side by side

Two runs of commands go on worlds of their own, with names of files of their own. They agree if they
come to related values, or fail in the same way up to the name that the failure tells, and leave
related worlds behind; what they print does not count. Agreement is kept by putting tasks together,
so that it is enough to know it of the operations on files.
-/

namespace BicepForge.CommandLine

/-! ## Names and files -/

/-- The directory that a name is made in, empty for a bare name. -/
def parentOf (path : String) : String :=
  (Files.Path.parent? path).getD ""

/-- Which names stand for each other in two runs, by what is done to the files. -/
structure Naming where
  /-- Files that are read, and whose failures have a kind of their own. -/
  input : String → String → Prop
  /-- Files that are read, and whose failures are known by their words. -/
  document : String → String → Prop
  /-- Files that are written, and whose failures are known by their words. -/
  output : String → String → Prop
  /-- Files of packages, which are written, and whose failures have a kind of their own. -/
  package : String → String → Prop

section Relations

variable {σ τ α β : Type} (N : Naming) (W : σ → τ → Prop)

/-- Two operations on related worlds have the same result and leave related worlds. -/
def EndAlike (x : StateM σ α) (y : StateM τ α) : Prop :=
  ∀ w w', W w w' → (x.run w).1 = (y.run w').1 ∧ W (x.run w).2 (y.run w').2

/-- Operations on files of related names succeed or fail alike: texts that are read are the same, and
so are the errors. A bare name needs no directory, which counts as one that could be made. -/
structure FilesAlike (a : FileAccess (StateM σ)) (b : FileAccess (StateM τ)) : Prop where
  read : ∀ {p p'}, N.input p p' ∨ N.document p p' → EndAlike W (a.read p) (b.read p')
  write : ∀ {p p'}, N.output p p' ∨ N.package p p' →
    ∀ text, EndAlike W (a.write p text) (b.write p' text)
  enclose : ∀ {p p'}, N.output p p' ∨ N.package p p' →
    EndAlike W (a.ensureDirectory (parentOf p)) (b.ensureDirectory (parentOf p'))
  nowhere : ∀ w, (a.ensureDirectory "").run w = (.ok (), w)
  nowhere' : ∀ w, (b.ensureDirectory "").run w = (.ok (), w)

/-- The surroundings of two runs at the same time. -/
structure SitesAlike (s : Site (StateM σ)) (s' : Site (StateM τ)) : Prop where
  files : FilesAlike N W s.files s'.files
  now : s.now = s'.now

/-! ## Failures and results -/

/-- Failures that are the same but for the name that they tell. -/
inductive Failure.Renamed : Failure → Failure → Prop
  | same (f : Failure) : Renamed f f
  | configuration (p p' : String) (fault : ConfigurationFault) :
    Renamed (.configuration p fault) (.configuration p' fault)
  | unreadable (p p' : String) (e : FileError) : Renamed (.unreadable p e) (.unreadable p' e)
  | unwritable {p p' : String} (h : N.output p p') (e : FileError) :
    Renamed (.unwritable p e) (.unwritable p' e)
  | instance {p p' : String} (h : N.document p p') (e : JsonError) :
    Renamed (.instance p e) (.instance p' e)
  | settings {p p' : String} (h : N.document p p') (e : Json.NoObject) :
    Renamed (.settings p e) (.settings p' e)

/-- Related values, or failures that are the same up to a name. -/
inductive ResultsAgree (R : α → β → Prop) : Except Failure α → Except Failure β → Prop
  | ok {a : α} {b : β} (h : R a b) : ResultsAgree R (.ok a) (.ok b)
  | error {f f' : Failure} (h : f.Renamed N f') : ResultsAgree R (.error f) (.error f')

/-- What a task comes to from a console in a world. -/
def Task.after (t : Task (StateM σ) α) (c : Console) (w : σ) : (Except Failure α × Console) × σ :=
  ((ExceptT.run t).run c).run w

/-- Two tasks agree: from related worlds they come to results that agree and leave related worlds,
whatever was said before. -/
def Agree (R : α → β → Prop) (t : Task (StateM σ) α) (t' : Task (StateM τ) β) : Prop :=
  ∀ c c' w w', W w w' →
    ResultsAgree N R (t.after c w).1.1 (t'.after c' w').1.1 ∧ W (t.after c w).2 (t'.after c' w').2

end Relations

/-! ## Tasks in a world -/

section Tasks

variable {σ τ α β γ δ ε : Type} {N : Naming} {W : σ → τ → Prop}

theorem Task.ext {t t' : Task (StateM σ) α} (h : ∀ c w, t.after c w = t'.after c w) : t = t' :=
  funext fun c => funext fun w => h c w

theorem after_pure (a : α) (c : Console) (w : σ) :
    Task.after (pure a : Task (StateM σ) α) c w = ((.ok a, c), w) := rfl

theorem after_liftM (x : StateM σ α) (c : Console) (w : σ) :
    Task.after (liftM x : Task (StateM σ) α) c w = ((.ok (x.run w).1, c), (x.run w).2) := rfl

theorem after_bind (t : Task (StateM σ) α) (k : α → Task (StateM σ) β) (c : Console) (w : σ) :
    (t >>= k).after c w =
      ((ExceptT.bindCont k (t.after c w).1.1).run (t.after c w).1.2).run (t.after c w).2 := rfl

theorem after_bind_ok {t : Task (StateM σ) α} {k : α → Task (StateM σ) β} {c c₁ : Console}
    {w w₁ : σ} {a : α} (h : t.after c w = ((.ok a, c₁), w₁)) :
    (t >>= k).after c w = (k a).after c₁ w₁ := by
  rw [after_bind, h]
  rfl

theorem after_bind_error {t : Task (StateM σ) α} {k : α → Task (StateM σ) β} {c c₁ : Console}
    {w w₁ : σ} {f : Failure} (h : t.after c w = ((.error f, c₁), w₁)) :
    (t >>= k).after c w = ((.error f, c₁), w₁) := by
  rw [after_bind, h]
  rfl

/-- What two tasks come to, one after the other, the second one comes to behind the first. -/
theorem exists_of_after_bind {t : Task (StateM σ) α} {k : α → Task (StateM σ) β} {c c₂ : Console}
    {w w₂ : σ} {b : β} (h : (t >>= k).after c w = ((.ok b, c₂), w₂)) :
    ∃ a c₁ w₁, t.after c w = ((.ok a, c₁), w₁) ∧ (k a).after c₁ w₁ = ((.ok b, c₂), w₂) := by
  rcases first : t.after c w with ⟨⟨r, c₁⟩, w₁⟩
  cases r with
  | ok a => exact ⟨a, c₁, w₁, rfl, (after_bind_ok first).symm.trans h⟩
  | error f =>
    rw [after_bind_error first] at h
    cases h

/-! ## Agreement -/

theorem Agree.pure {R : α → β → Prop} {a : α} {b : β} (h : R a b) :
    Agree N W R (pure a) (pure b) :=
  fun _ _ _ _ hw => ⟨.ok h, hw⟩

theorem Agree.throw {R : α → β → Prop} {f f' : Failure} (h : f.Renamed N f') :
    Agree N W R (throw f) (throw f') :=
  fun _ _ _ _ hw => ⟨.error h, hw⟩

theorem Agree.bind {R : α → β → Prop} {S : γ → δ → Prop} {t : Task (StateM σ) α}
    {t' : Task (StateM τ) β} {k : α → Task (StateM σ) γ} {k' : β → Task (StateM τ) δ}
    (h : Agree N W R t t') (hk : ∀ a b, R a b → Agree N W S (k a) (k' b)) :
    Agree N W S (t >>= k) (t' >>= k') := by
  intro c c' w w' hw
  obtain ⟨results, worlds⟩ := h c c' w w' hw
  rcases first : t.after c w with ⟨⟨r, c₁⟩, w₁⟩
  rcases second : t'.after c' w' with ⟨⟨r', c₁'⟩, w₁'⟩
  rw [first, second] at results worlds
  cases results with
  | ok related =>
    rw [after_bind_ok first, after_bind_ok second]
    exact hk _ _ related c₁ c₁' w₁ w₁' worlds
  | error renamed =>
    rw [after_bind_error first, after_bind_error second]
    exact ⟨.error renamed, worlds⟩

/-- Tasks that come to the same value go on with it alike. -/
theorem Agree.bind_eq {S : γ → δ → Prop} {t : Task (StateM σ) α} {t' : Task (StateM τ) α}
    {k : α → Task (StateM σ) γ} {k' : α → Task (StateM τ) δ} (h : Agree N W Eq t t')
    (hk : ∀ a, Agree N W S (k a) (k' a)) : Agree N W S (t >>= k) (t' >>= k') := by
  refine h.bind fun a b same => ?_
  subst same
  exact hk a

theorem Agree.liftM {x : StateM σ α} {y : StateM τ α} (h : EndAlike W x y) :
    Agree N W Eq (liftM x) (liftM y) := by
  intro c c' w w' hw
  obtain ⟨results, worlds⟩ := h w w' hw
  rw [after_liftM, after_liftM]
  exact ⟨.ok results, worlds⟩

theorem Agree.orFail {f f' : ε → Failure} (h : ∀ e, (f e).Renamed N (f' e)) (r : Except ε α) :
    Agree N W Eq (orFail f r) (orFail f' r) := by
  cases r with
  | ok a => exact .pure rfl
  | error e => exact .throw (h e)

/-- What goes on with the value of a result knows where it is from. -/
theorem Agree.bind_orFail {S : γ → δ → Prop} {f f' : ε → Failure}
    (h : ∀ e, (f e).Renamed N (f' e)) {r : Except ε α} {k : α → Task (StateM σ) γ}
    {k' : α → Task (StateM τ) δ} (hk : ∀ a, r = .ok a → Agree N W S (k a) (k' a)) :
    Agree N W S (CommandLine.orFail f r >>= k) (CommandLine.orFail f' r >>= k') := by
  cases r with
  | ok a =>
    refine .bind (R := fun b b' => b = a ∧ b' = a) (.pure ⟨rfl, rfl⟩) fun b b' same => ?_
    rw [same.1, same.2]
    exact hk a rfl
  | error e => exact .bind (R := fun _ _ => False) (.throw (h e)) fun _ _ absurd => absurd.elim

theorem Agree.access {x : StateM σ (Except FileError α)} {y : StateM τ (Except FileError α)}
    {f f' : FileError → Failure} (ends : EndAlike W x y) (h : ∀ e, (f e).Renamed N (f' e)) :
    Agree N W Eq (access x f) (access y f') :=
  .bind_eq (.liftM ends) fun r => .orFail h r

theorem Agree.mapM {R : β → γ → Prop} {f : α → Task (StateM σ) β} {g : α → Task (StateM τ) γ}
    {xs : List α} (h : ∀ x ∈ xs, Agree N W R (f x) (g x)) :
    Agree N W (List.Forall₂ R) (xs.mapM f) (xs.mapM g) := by
  induction xs with
  | nil => exact .pure .nil
  | cons x xs ih =>
    rw [List.mapM_cons, List.mapM_cons]
    refine (h x List.mem_cons_self).bind fun b c first => ?_
    refine (ih fun y hy => h y (List.mem_cons_of_mem x hy)).bind fun bs cs rest => ?_
    exact .pure (.cons first rest)

/-! ## Printing -/

/-- A task that does nothing but print. -/
def Prints (t : Task (StateM σ) Unit) : Prop :=
  ∀ c w, ∃ c₁, t.after c w = ((.ok (), c₁), w)

theorem prints_put (text : String) : Prints (put text : Task (StateM σ) Unit) :=
  fun _ _ => ⟨_, rfl⟩

theorem prints_putMessage (text : String) : Prints (putMessage text : Task (StateM σ) Unit) :=
  fun _ _ => ⟨_, rfl⟩

theorem prints_forM {f : α → Task (StateM σ) Unit} (h : ∀ x, Prints (f x)) (xs : List α) :
    Prints (xs.forM f) := by
  induction xs with
  | nil => exact fun c w => ⟨c, after_pure () c w⟩
  | cons x xs ih =>
    intro c w
    obtain ⟨c₁, first⟩ := h x c w
    obtain ⟨c₂, rest⟩ := ih c₁ w
    exact ⟨c₂, (after_bind_ok first).trans rest⟩

theorem Agree.prints {t : Task (StateM σ) Unit} {t' : Task (StateM τ) Unit} (h : Prints t)
    (h' : Prints t') : Agree N W Eq t t' := by
  intro c c' w w' hw
  obtain ⟨c₁, first⟩ := h c w
  obtain ⟨c₁', second⟩ := h' c' w'
  rw [first, second]
  exact ⟨.ok rfl, hw⟩

end Tasks

end BicepForge.CommandLine
