import Mathlib.Data.List.Forall2

/-! Steps that may fail, one after another and along a list. -/
namespace DoubleEntry

variable {ε α β : Type}

theorem bind_eq_ok_iff {m : Except ε α} {f : α → Except ε β} {b : β} :
    m >>= f = .ok b ↔ ∃ a, m = .ok a ∧ f a = .ok b := by
  cases m <;> simp [bind, Except.bind]

theorem map_eq_ok_iff {m : Except ε α} {f : α → β} {b : β} :
    f <$> m = .ok b ↔ ∃ a, m = .ok a ∧ f a = b := by
  cases m <;> simp [Functor.map, Except.map]

theorem map_eq_error_iff {m : Except ε α} {f : α → β} {e : ε} :
    f <$> m = .error e ↔ m = .error e := by
  cases m <;> simp [Functor.map, Except.map]

theorem mapError_eq_ok_iff {ε' : Type} {m : Except ε α} {f : ε → ε'} {a : α} :
    m.mapError f = .ok a ↔ m = .ok a := by
  cases m <;> simp [Except.mapError]

theorem toOption_eq_some_iff {m : Except ε α} {a : α} : m.toOption = some a ↔ m = .ok a := by
  cases m <;> simp [Except.toOption]

theorem mapM_eq_ok_iff {f : α → Except ε β} {as : List α} {bs : List β} :
    as.mapM f = .ok bs ↔ List.Forall₂ (fun a b => f a = .ok b) as bs := by
  induction as generalizing bs with
  | nil => cases bs <;> simp [pure, Except.pure]
  | cons a as ih =>
    rw [List.mapM_cons, bind_eq_ok_iff, List.forall₂_cons_left_iff]
    constructor
    · rintro ⟨b, hb, h⟩
      obtain ⟨rest, hrest, h⟩ := bind_eq_ok_iff.1 h
      exact ⟨b, rest, hb, ih.1 hrest, (Except.ok.inj h).symm⟩
    · rintro ⟨b, rest, hb, hrest, rfl⟩
      exact ⟨b, hb, bind_eq_ok_iff.2 ⟨rest, ih.2 hrest, rfl⟩⟩

theorem exists_mapM_eq_ok {P : β → Prop} {f : α → Except ε β} {as : List α}
    (h : ∀ a ∈ as, ∃ b, f a = .ok b ∧ P b) : ∃ bs, as.mapM f = .ok bs ∧ ∀ b ∈ bs, P b := by
  induction as with
  | nil => exact ⟨[], rfl, by simp⟩
  | cons a as ih =>
    obtain ⟨b, hb, hP⟩ := h a (by simp)
    obtain ⟨bs, hbs, hall⟩ := ih fun x hx => h x (by simp [hx])
    refine ⟨b :: bs, mapM_eq_ok_iff.2 (.cons hb (mapM_eq_ok_iff.1 hbs)), ?_⟩
    exact List.forall_mem_cons.2 ⟨hP, hall⟩

theorem exists_mem_of_forall₂ {R : α → β → Prop} {as : List α} {bs : List β}
    (h : List.Forall₂ R as bs) {b : β} (hb : b ∈ bs) : ∃ a ∈ as, R a b := by
  induction h with
  | nil => simp at hb
  | cons hhead _ ih =>
    rcases List.mem_cons.1 hb with rfl | hb
    · exact ⟨_, by simp, hhead⟩
    · obtain ⟨a, ha, hab⟩ := ih hb
      exact ⟨a, by simp [ha], hab⟩

theorem exists_mem_of_mapM_eq_ok {f : α → Except ε β} {as : List α} {bs : List β}
    (h : as.mapM f = .ok bs) {b : β} (hb : b ∈ bs) : ∃ a ∈ as, f a = .ok b :=
  exists_mem_of_forall₂ (mapM_eq_ok_iff.1 h) hb

/-- Results that agree with the wanted ones in what `g` keeps of them. -/
theorem exists_mapM_of_forall₂ {γ : Type} {f : α → Except ε β} {g : β → γ} {as : List α}
    {bs : List β} (h : List.Forall₂ (fun a b => ∃ b', f a = .ok b' ∧ g b' = g b) as bs) :
    ∃ bs', as.mapM f = .ok bs' ∧ bs'.map g = bs.map g := by
  induction h with
  | nil => exact ⟨[], rfl, rfl⟩
  | cons hab _ ih =>
    obtain ⟨b', hb', hg⟩ := hab
    obtain ⟨bs', hbs', hgs⟩ := ih
    refine ⟨b' :: bs', ?_, by rw [List.map_cons, List.map_cons, hg, hgs]⟩
    rw [List.mapM_cons, hb', hbs']
    rfl

theorem exists_of_forall₂_append {R : α → β → Prop} {as as' : List α} {bs : List β}
    (h : List.Forall₂ R (as ++ as') bs) :
    ∃ cs cs', bs = cs ++ cs' ∧ List.Forall₂ R as cs ∧ List.Forall₂ R as' cs' := by
  induction as generalizing bs with
  | nil => exact ⟨[], bs, rfl, .nil, h⟩
  | cons a as ih =>
    obtain ⟨b, rest, hab, hrest, rfl⟩ := List.forall₂_cons_left_iff.1 h
    obtain ⟨cs, cs', rfl, hcs, hcs'⟩ := ih hrest
    exact ⟨b :: cs, cs', rfl, .cons hab hcs, hcs'⟩

/-! ## Parts that may be missing -/

/-- Takes what is there, or fails with what is missing. -/
def orMissing (f : α → Option β) (missing : α → ε) (a : α) : Except ε β :=
  match f a with
  | some b => .ok b
  | none => .error (missing a)

section

variable {f : α → Option β} {missing : α → ε} {as : List α}

theorem mapM_eq_some_iff {bs : List β} :
    as.mapM f = some bs ↔ List.Forall₂ (fun a b => f a = some b) as bs := by
  induction as generalizing bs with
  | nil => cases bs <;> simp
  | cons a as ih =>
    rw [List.mapM_cons, List.forall₂_cons_left_iff]
    constructor
    · intro h
      obtain ⟨b, hb, h⟩ := Option.bind_eq_some_iff.1 h
      obtain ⟨rest, hrest, h⟩ := Option.bind_eq_some_iff.1 h
      exact ⟨b, rest, hb, ih.1 hrest, (Option.some.inj h).symm⟩
    · rintro ⟨b, rest, hb, hrest, rfl⟩
      rw [hb, ih.2 hrest]
      rfl

theorem orMissing_eq_ok_iff {a : α} {b : β} : orMissing f missing a = .ok b ↔ f a = some b := by
  unfold orMissing
  cases f a <;> simp

theorem mapM_orMissing_eq_ok_iff {bs : List β} :
    as.mapM (orMissing f missing) = .ok bs ↔ as.mapM f = some bs := by
  simp only [mapM_eq_ok_iff, mapM_eq_some_iff, orMissing_eq_ok_iff]

theorem mapM_orMissing_of_none {a : α} (h : as.find? (fun a => (f a).isNone) = some a) :
    as.mapM (orMissing f missing) = .error (missing a) := by
  induction as with
  | nil => contradiction
  | cons first as ih =>
    rw [List.mapM_cons, orMissing]
    cases hfirst : f first with
    | none =>
      rw [List.find?_cons_of_pos (by simp [hfirst])] at h
      cases h
      rfl
    | some b =>
      rw [List.find?_cons_of_neg (by simp [hfirst])] at h
      rw [ih h]
      rfl

theorem exists_mapM_eq_some (h : as.find? (fun a => (f a).isNone) = none) :
    ∃ bs, as.mapM f = some bs := by
  induction as with
  | nil => exact ⟨[], rfl⟩
  | cons first as ih =>
    rw [List.find?_cons] at h
    split at h
    · contradiction
    · rename_i hfirst
      obtain ⟨b, hb⟩ := Option.isSome_iff_exists.1 (Option.isNone_eq_false_iff.1 hfirst)
      obtain ⟨bs, hbs⟩ := ih h
      exact ⟨b :: bs, by simp [List.mapM_cons, hb, hbs]⟩

end

/-! ## What a step fails with -/

def FailsWith (m : Except ε α) (E : ε → Prop) : Prop := ∀ error, m = .error error → E error

section

variable {E : ε → Prop}

theorem failsWith_pure (a : α) : FailsWith (pure a : Except ε α) E := by
  intro error h
  contradiction

theorem FailsWith.bind {m : Except ε α} {f : α → Except ε β} (hm : FailsWith m E)
    (hf : ∀ a, FailsWith (f a) E) : FailsWith (m >>= f) E := by
  intro error h
  cases m with
  | error e =>
    cases h
    exact hm _ rfl
  | ok a => exact hf a error h

theorem failsWith_mapError {ε' : Type} {m : Except ε α} {f : ε → ε'} {E : ε' → Prop}
    (h : FailsWith m fun error => E (f error)) : FailsWith (m.mapError f) E := by
  intro error herror
  cases m with
  | error e =>
    cases herror
    exact h e rfl
  | ok a => contradiction

theorem failsWith_mapM {f : α → Except ε β} {as : List α} (h : ∀ a, FailsWith (f a) E) :
    FailsWith (as.mapM f) E := by
  induction as with
  | nil => exact failsWith_pure []
  | cons a as ih =>
    rw [List.mapM_cons]
    exact (h a).bind fun b => ih.bind fun bs => failsWith_pure (b :: bs)

theorem failsWith_optionMapM {f : α → Except ε β} {a : Option α} (h : ∀ a, FailsWith (f a) E) :
    FailsWith (a.mapM f) E := by
  cases a with
  | none => exact failsWith_pure none
  | some a => exact (h a).bind fun b => failsWith_pure (some b)

end

end DoubleEntry
