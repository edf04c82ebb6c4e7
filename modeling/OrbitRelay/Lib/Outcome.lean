import Mathlib.Data.List.Forall2

/-
  Computations that may fail, and computations that may panic as well: what an
  end says about the steps before it.
-/

namespace Outcome

variable {ε ε' α β : Type} {x : Except ε α}

/-- A sequence succeeds if each of its steps does. -/
theorem bind_eq_ok {f : α → Except ε β} {b : β} : (x >>= f) = .ok b ↔ ∃ a, x = .ok a ∧ f a = .ok b := by
  cases x <;> simp [bind, Except.bind]

/-- A sequence fails with the first of its steps that fails. -/
theorem bind_eq_error {f : α → Except ε β} {e : ε} :
    (x >>= f) = .error e ↔ x = .error e ∨ ∃ a, x = .ok a ∧ f a = .error e := by
  cases x <;> simp [bind, Except.bind]

/-- Another error is no success. -/
@[simp] theorem mapError_eq_ok {f : ε → ε'} {a : α} : x.mapError f = .ok a ↔ x = .ok a := by
  cases x with
  | ok b =>
    constructor
    · intro h
      obtain rfl : b = a := Except.ok.inj h
      rfl
    · rintro ⟨⟩
      rfl
  | error e =>
    constructor
    · intro h
      change (Except.error (f e) : Except ε' α) = .ok a at h
      cases h
    · rintro ⟨⟩

@[simp] theorem pure_eq_ok {a b : α} : (pure a : Except ε α) = .ok b ↔ a = b := by
  simp [pure, Except.pure]

theorem map_eq_ok {f : α → β} {b : β} : (f <$> x) = .ok b ↔ ∃ a, x = .ok a ∧ f a = b := by
  cases x <;> simp [Functor.map, Except.map]

/-- A loop over a list gives a result for each of its elements. -/
theorem mapM_eq_ok {ι : Type*} {f : ι → Except ε β} {as : List ι} {bs : List β} :
    as.mapM f = .ok bs ↔ List.Forall₂ (fun a b => f a = .ok b) as bs := by
  induction as generalizing bs with
  | nil => cases bs <;> simp
  | cons a as ih =>
    rw [List.mapM_cons, bind_eq_ok]
    simp only [bind_eq_ok, ih, pure_eq_ok, List.forall₂_cons_left_iff]
    constructor
    · intro h
      obtain ⟨b, hb, bs', hbs, rfl⟩ := h
      exact ⟨b, bs', hb, hbs, rfl⟩
    · intro h
      obtain ⟨b, bs', hb, hbs, rfl⟩ := h
      exact ⟨b, hb, bs', hbs, rfl⟩

end Outcome

/-- How a call ends that may fail and may panic. -/
inductive Fallible (ε α : Type) where
  | ok (value : α)
  | err (error : ε)
  | panic
  deriving DecidableEq

namespace Fallible

variable {ε α β σ : Type} {x : Fallible ε α}

def bind (x : Fallible ε α) (f : α → Fallible ε β) : Fallible ε β :=
  match x with
  | .ok a => f a
  | .err e => .err e
  | .panic => .panic

instance : Monad (Fallible ε) where
  pure := .ok
  bind := bind

def ofExcept : Except ε α → Fallible ε α
  | .ok a => .ok a
  | .error e => .err e

@[simp] theorem ofExcept_ne_panic (x : Except ε α) : ofExcept x ≠ .panic := by
  cases x <;> simp [ofExcept]

@[simp] theorem pure_eq_ok {a b : α} : (pure a : Fallible ε α) = .ok b ↔ a = b := by
  constructor
  · exact Fallible.ok.inj
  · rintro rfl
    rfl

@[simp] theorem pure_ne_panic (a : α) : (pure a : Fallible ε α) ≠ .panic := by
  intro h
  cases h

@[simp] theorem ofExcept_eq_ok {x : Except ε α} {a : α} : ofExcept x = .ok a ↔ x = .ok a := by
  cases x <;> simp [ofExcept]

/-- A sequence succeeds if each of its steps does. -/
theorem bind_eq_ok {f : α → Fallible ε β} {b : β} : (x >>= f) = .ok b ↔ ∃ a, x = .ok a ∧ f a = .ok b := by
  cases x <;> simp [Bind.bind, bind]

theorem map_eq_ok {f : α → β} {b : β} : (f <$> x) = .ok b ↔ ∃ a, x = .ok a ∧ f a = b := by
  cases x <;> simp [Functor.map, bind]

theorem lawfulMonad : LawfulMonad (Fallible ε) :=
  LawfulMonad.mk' (Fallible ε) (fun x => by cases x <;> rfl) (fun _ _ => rfl) (fun x _ _ => by cases x <;> rfl)

/-- A loop over a list gives a result for each of its elements. -/
theorem mapM_eq_ok {f : α → Fallible ε β} {as : List α} {bs : List β} :
    as.mapM f = .ok bs ↔ List.Forall₂ (fun a b => f a = .ok b) as bs := by
  have : LawfulMonad (Fallible ε) := lawfulMonad
  induction as generalizing bs with
  | nil =>
    rw [List.mapM_nil, pure_eq_ok, List.forall₂_nil_left_iff]
    exact eq_comm
  | cons a as ih =>
    rw [List.mapM_cons, bind_eq_ok, List.forall₂_cons_left_iff]
    constructor
    · intro h
      obtain ⟨b, hb, hrest⟩ := h
      obtain ⟨bs', hbs, hcons⟩ := bind_eq_ok.mp hrest
      exact ⟨b, bs', hb, ih.mp hbs, (pure_eq_ok.mp hcons).symm⟩
    · intro h
      obtain ⟨b, bs', hb, hbs, rfl⟩ := h
      exact ⟨b, hb, bind_eq_ok.mpr ⟨bs', ih.mpr hbs, rfl⟩⟩

/-- A sequence panics if one of its steps does, the ones before having succeeded. -/
theorem bind_eq_panic {f : α → Fallible ε β} :
    (x >>= f) = .panic ↔ x = .panic ∨ ∃ a, x = .ok a ∧ f a = .panic := by
  cases x <;> simp [Bind.bind, bind]

theorem map_eq_panic {f : α → β} : (f <$> x) = .panic ↔ x = .panic := by
  cases x <;> simp [Functor.map, bind]

/-- A loop panics if it does at one of its elements, the ones before having
been gone through. -/
theorem foldlM_eq_panic {f : σ → α → Fallible ε σ} {s : σ} {as : List α} :
    as.foldlM f s = .panic ↔
      ∃ pre a post t, as = pre ++ a :: post ∧ pre.foldlM f s = .ok t ∧ f t a = .panic := by
  induction as generalizing s with
  | nil => simp
  | cons a as ih =>
    rw [List.foldlM_cons, bind_eq_panic]
    constructor
    · intro h
      rcases h with hfirst | ⟨t, ht, hlater⟩
      · exact ⟨[], a, as, s, rfl, rfl, hfirst⟩
      · obtain ⟨pre, b, post, u, rfl, hpre, hpanic⟩ := ih.mp hlater
        refine ⟨a :: pre, b, post, u, rfl, ?_, hpanic⟩
        rw [List.foldlM_cons, ht]
        exact hpre
    · intro h
      obtain ⟨pre, b, post, u, hsplit, hpre, hpanic⟩ := h
      cases pre with
      | nil =>
        obtain ⟨rfl, rfl⟩ := List.cons.inj hsplit
        cases hpre
        exact .inl hpanic
      | cons c pre =>
        obtain ⟨rfl, rfl⟩ := List.cons.inj hsplit
        rw [List.foldlM_cons] at hpre
        cases hfirst : f s a with
        | ok t =>
          rw [hfirst] at hpre
          exact .inr ⟨t, rfl, ih.mpr ⟨pre, b, post, u, rfl, hpre, hpanic⟩⟩
        | err e =>
          rw [hfirst] at hpre
          cases hpre
        | panic =>
          rw [hfirst] at hpre
          cases hpre

end Fallible
