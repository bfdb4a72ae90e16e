import BicepForge.Proofs.Check.Consultation

/-!
# What contexts know

What a check says of a type depends on the context only through the answer about that type, and it
makes no difference whether the answer is kept or the provider would give it. So what one check
learns never changes the result of another.
-/

namespace BicepForge.Check

/-- The answer about a type: the one that is kept, or else the one that the provider gives. -/
def answer (c : Context) (p : Provider) (type : String) : Except MetadataError LiveAnswer :=
  match c.cache.get? type with
  | some info => .ok ⟨info.present, info.apiVersions⟩
  | none => (p.describe type).1

section Answers

variable {c : Context} {p : Provider} {type : String}

theorem answer_of_kept {info : CachedType} (h : c.cache.get? type = some info) :
    answer c p type = .ok ⟨info.present, info.apiVersions⟩ := by
  rw [answer, h]

theorem answer_of_missing (h : c.cache.get? type = none) :
    answer c p type = (p.describe type).1 := by
  rw [answer, h]

/-- The result of a check is that of its answer. -/
theorem result_of_answer (ask : c.CanAsk p) (schema : ResourceSchema) :
    (checkType c type schema).1 =
      match answer c p type with
      | .ok a => .live ⟨type, a.present, a.apiVersions, c.now⟩ type schema
      | .error e => .fallback c.registry type schema e := by
  cases way c type with
  | unasked none => exact absurd ask (none p)
  | kept q h info kept =>
    rw [checkType_kept h kept, answer_of_kept kept]
    rfl
  | failed q h missing e fails =>
    obtain rfl := h.unique ask
    rw [checkType_failed h missing fails, answer_of_missing missing,
      Provider.describe_of_fails fails]
  | learned q h missing a answers =>
    obtain rfl := h.unique ask
    rw [checkType_learned h missing answers, answer_of_missing missing,
      Provider.describe_of_answers answers]

end Answers

/-- Two contexts know the same: the same is registered, the same provider is there, and as far as
it can be asked the answers are the same. -/
structure SameKnowledge (c d : Context) : Prop where
  registry : d.registry = c.registry
  provider? : d.provider? = c.provider?
  answers : ∀ p, c.CanAsk p → ∀ type, answer d p type = answer c p type

namespace SameKnowledge

variable {c d e : Context}

theorem refl (c : Context) : SameKnowledge c c :=
  ⟨rfl, rfl, fun _ _ _ => rfl⟩

theorem canAsk_iff (h : SameKnowledge c d) {p : Provider} : d.CanAsk p ↔ c.CanAsk p := by
  rw [Context.CanAsk, Context.CanAsk, h.provider?]

theorem trans (h : SameKnowledge c d) (h' : SameKnowledge d e) : SameKnowledge c e where
  registry := h'.registry.trans h.registry
  provider? := h'.provider?.trans h.provider?
  answers := by
    intro p ask type
    exact (h'.answers p (h.canAsk_iff.mpr ask) type).trans (h.answers p ask type)

/-- Contexts that know the same give the same results. -/
theorem result_eq (h : SameKnowledge c d) (type : String) (schema : ResourceSchema) :
    (checkType d type schema).1 = (checkType c type schema).1 := by
  by_cases ask : ∃ p, c.CanAsk p
  · obtain ⟨p, ask⟩ := ask
    rw [result_of_answer ask, result_of_answer (h.canAsk_iff.mpr ask), h.answers p ask type,
      h.registry]
    cases answer c p type with
    | ok a => rfl
    | error e => rfl
  · have none : ∀ p, ¬ c.CanAsk p := not_exists.mp ask
    have too : ∀ p, ¬ d.CanAsk p := fun p => mt h.canAsk_iff.mp (none p)
    rw [checkType_unasked none, checkType_unasked too, h.registry]

end SameKnowledge

/-- A new answer is the one that the provider would have given. -/
theorem answer_learned {c : Context} {p : Provider} {type : String}
    (missing : c.cache.get? type = none) {a : LiveAnswer} (answers : p.Answers type a)
    (other : String) : answer (learned c p type a) p other = answer c p other := by
  by_cases same : other = type
  · -- what was asked for then is what is kept now
    subst same
    have kept : (learned c p other a).cache.get? other =
        some ⟨other, a.present, a.apiVersions, c.now⟩ := Cache.get?_insert_self c.cache _
    rw [answer_of_missing missing, Provider.describe_of_answers answers, answer_of_kept kept]
  · have kept : (learned c p type a).cache.get? other = c.cache.get? other :=
      Cache.get?_insert_of_ne c.cache same
    rw [answer, answer, kept]

/-- A check changes nothing in what is known. -/
theorem sameKnowledge_checkType (c : Context) (type : String) (schema : ResourceSchema) :
    SameKnowledge c (checkType c type schema).2 := by
  cases way c type with
  | unasked none =>
    rw [checkType_unasked none]
    exact .refl c
  | kept p ask info kept =>
    rw [checkType_kept ask kept]
    exact .refl c
  | failed p ask missing e fails =>
    rw [checkType_failed ask missing fails]
    exact ⟨rfl, rfl, fun _ _ _ => rfl⟩
  | learned p ask missing a answers =>
    rw [checkType_learned ask missing answers]
    refine ⟨rfl, rfl, ?_⟩
    intro q ask' other
    obtain rfl := ask.unique ask'
    exact answer_learned missing answers other

end BicepForge.Check
