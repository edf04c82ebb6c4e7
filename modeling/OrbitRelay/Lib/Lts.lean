import Mathlib.Data.List.Induction

/-
  Labelled transition systems and their finite runs.

  A system is an initial state and a partial step function: `step s l` is the
  state after the step `l`, or `none` where `s` does not allow it. A label says
  what happened, outcome included, so the trace of a run is its whole history
  and a property of a history is a property of a list of labels.

  Every concurrent system is used the same way: the state holds the local state
  of each party, the label names the party that moves, and a statement about
  every `Run` is a statement about every interleaving.

    `Run.induct`      a property of (trace, state), proved one step at a time
    `Run.invariant`   the same for a property of the state alone
    `Run.at_label`    the two states around a label of the trace
    `Run.since`       what a label brings about and every step keeps
    `Simulation.run`  the runs of one system, followed by another
    `responder`       a machine whose answers its inputs decide
    `family`          systems side by side, one step at a time
    `interleave`      two systems of different kinds side by side
    `Meets`           runs whose every step meets a condition
-/

/-- A labelled transition system with partial, deterministic labelled steps. -/
structure Lts (σ ℓ : Type) where
  init : σ
  step : σ → ℓ → Option σ

namespace Lts

variable {σ ℓ τ m : Type}

/-- Take the steps of a trace in order. -/
def exec (L : Lts σ ℓ) : σ → List ℓ → Option σ
  | s, [] => some s
  | s, l :: tr => (L.step s l).bind fun t => L.exec t tr

/-- `tr` leads from `s` to `t`. -/
def Run (L : Lts σ ℓ) (s : σ) (tr : List ℓ) (t : σ) : Prop :=
  L.exec s tr = some t

variable {L : Lts σ ℓ} {s t u : σ} {tr tr' : List ℓ} {l : ℓ}

theorem exec_append : ∀ (tr tr' : List ℓ) (s : σ),
    L.exec s (tr ++ tr') = (L.exec s tr).bind fun t => L.exec t tr'
  | [], _, _ => rfl
  | l :: tr, tr', s => by
    simp only [List.cons_append, exec]
    cases L.step s l with
    | none => rfl
    | some t => exact exec_append tr tr' t

theorem Run.nil (L : Lts σ ℓ) (s : σ) : L.Run s [] s := rfl

theorem run_nil : L.Run s [] t ↔ s = t := by
  simp [Run, exec]

theorem run_cons : L.Run s (l :: tr) u ↔ ∃ t, L.step s l = some t ∧ L.Run t tr u := by
  simp [Run, exec, Option.bind_eq_some_iff]

theorem run_append : L.Run s (tr ++ tr') u ↔ ∃ t, L.Run s tr t ∧ L.Run t tr' u := by
  simp [Run, exec_append, Option.bind_eq_some_iff]

theorem run_split : L.Run s (tr ++ l :: tr') u ↔
    ∃ t t', L.Run s tr t ∧ L.step t l = some t' ∧ L.Run t' tr' u := by
  rw [run_append]
  constructor
  · intro h
    obtain ⟨t, htr, hrest⟩ := h
    obtain ⟨t', hstep, htr'⟩ := run_cons.mp hrest
    exact ⟨t, t', htr, hstep, htr'⟩
  · intro h
    obtain ⟨t, t', htr, hstep, htr'⟩ := h
    exact ⟨t, htr, run_cons.mpr ⟨t', hstep, htr'⟩⟩

theorem run_snoc : L.Run s (tr ++ [l]) u ↔ ∃ t, L.Run s tr t ∧ L.step t l = some u := by
  simp [run_append, run_cons, run_nil]

theorem Run.append (h : L.Run s tr t) (h' : L.Run t tr' u) : L.Run s (tr ++ tr') u :=
  run_append.mpr ⟨t, h, h'⟩

theorem Run.single (h : L.step s l = some t) : L.Run s [l] t :=
  run_cons.mpr ⟨t, h, Run.nil L t⟩

theorem Run.snoc (h : L.Run s tr t) (h' : L.step t l = some u) : L.Run s (tr ++ [l]) u :=
  run_snoc.mpr ⟨t, h, h'⟩

/-- A trace leads to one state. -/
theorem Run.det (h : L.Run s tr t) (h' : L.Run s tr u) : t = u :=
  Option.some.inj (h.symm.trans h')

/-- Induction on a run from its end: what one more step makes of a property of
the trace so far and the state it led to. -/
theorem Run.induct {P : List ℓ → σ → Prop} (nil : P [] s)
    (snoc : ∀ tr t l u, L.Run s tr t → P tr t → L.step t l = some u → P (tr ++ [l]) u)
    (h : L.Run s tr t) : P tr t := by
  induction tr using List.reverseRecOn generalizing t with
  | nil =>
    rw [run_nil] at h
    subst h
    exact nil
  | append_singleton tr l ih =>
    obtain ⟨u, hrun, hstep⟩ := run_snoc.mp h
    exact snoc tr u l t hrun (ih hrun) hstep

/-- A property of the state that every step keeps holds after every run. -/
theorem Run.invariant {I : σ → Prop} (keep : ∀ t l u, I t → L.step t l = some u → I u)
    (h : L.Run s tr t) (h0 : I s) : I t :=
  Run.induct (P := fun _ t => I t) h0 (fun _ _ _ _ _ ih hstep => keep _ _ _ ih hstep) h

/-- A relation to the start that is reflexive and grows along steps. -/
theorem Run.monotone {R : σ → σ → Prop} (refl : ∀ s, R s s)
    (trans : ∀ {s t u}, R s t → R t u → R s u)
    (keep : ∀ t l u, L.step t l = some u → R t u) (h : L.Run s tr t) : R s t :=
  Run.induct (P := fun _ t => R s t) (refl s) (fun _ _ _ _ _ ih hstep => trans ih (keep _ _ _ hstep)) h

/-- The states just before and just after a label of the trace. -/
theorem Run.at_label (h : L.Run s tr u) (hl : l ∈ tr) :
    ∃ pre post t t', tr = pre ++ l :: post ∧ L.Run s pre t ∧ L.step t l = some t' ∧
      L.Run t' post u := by
  obtain ⟨pre, post, rfl⟩ := List.append_of_mem hl
  obtain ⟨t, t', hpre, hstep, hpost⟩ := run_split.mp h
  exact ⟨pre, post, t, t', rfl, hpre, hstep, hpost⟩

/-- A property that a label establishes and every step keeps holds from that
label on. -/
theorem Run.since {I : σ → Prop} (keep : ∀ t l u, I t → L.step t l = some u → I u)
    (est : ∀ t u, L.step t l = some u → I u) (h : L.Run s tr u) (hl : l ∈ tr) : I u := by
  obtain ⟨_, _, _, t', _, _, hstep, hpost⟩ := h.at_label hl
  exact hpost.invariant keep (est _ _ hstep)

/-- Where a trace leads, for one the system allows. -/
def after (L : Lts σ ℓ) (tr : List ℓ) (h : (L.exec L.init tr).isSome) : σ := (L.exec L.init tr).get h

theorem run_after (L : Lts σ ℓ) (tr : List ℓ) (h : (L.exec L.init tr).isSome) : L.Run L.init tr (L.after tr h) :=
  (Option.some_get h).symm

/-! ## Simulations -/

/-- `M` follows `L`: a step of `L` with a label is the step of `M` with the
label it is mapped to, and a step of `L` without one leaves `M` where it is. -/
structure Simulation (L : Lts σ ℓ) (M : Lts τ m) where
  rel : σ → τ → Prop
  label : ℓ → Option m
  start : rel L.init M.init
  follow : ∀ {s x l t}, rel s x → L.step s l = some t → ∃ y, M.Run x (label l).toList y ∧ rel t y

/-- A simulation carries a run over, label by label. -/
theorem Simulation.run_from {M : Lts τ m} (S : Simulation L M) {x : τ} (hrel : S.rel s x) (h : L.Run s tr t) :
    ∃ y, M.Run x (tr.filterMap S.label) y ∧ S.rel t y := by
  refine Run.induct (P := fun tr t => ∃ y, M.Run x (tr.filterMap S.label) y ∧ S.rel t y) ?_ ?_ h
  · exact ⟨x, Run.nil M x, hrel⟩
  · intro tr t l u _ ih hstep
    obtain ⟨z, hz, hrel⟩ := ih
    -- the last step of the one is at most one step of the other
    obtain ⟨y, hy, hrel'⟩ := S.follow hrel hstep
    refine ⟨y, ?_, hrel'⟩
    have hlast : [l].filterMap S.label = (S.label l).toList := by
      rw [List.filterMap_cons, List.filterMap_nil]
      cases S.label l <;> rfl
    rw [List.filterMap_append, hlast]
    exact hz.append hy

theorem Simulation.run {M : Lts τ m} (S : Simulation L M) (h : L.Run L.init tr t) :
    ∃ y, M.Run M.init (tr.filterMap S.label) y ∧ S.rel t y :=
  S.run_from S.start h

/-! ## Machines that answer -/

/-- A machine that answers every input: a label is an input with its answer. -/
def responder {ι ο : Type} [DecidableEq ο] (init : σ) (respond : σ → ι → σ × ο) : Lts σ (ι × ο) where
  init := init
  step s l := if (respond s l.1).2 = l.2 then some (respond s l.1).1 else none

/-- The inputs decide the answers and the end. -/
theorem responder_run_eq {ι ο : Type} [DecidableEq ο] {init : σ} {respond : σ → ι → σ × ο} :
    ∀ {tr tr' : List (ι × ο)} {s t t' : σ}, (responder init respond).Run s tr t →
      (responder init respond).Run s tr' t' → tr.map Prod.fst = tr'.map Prod.fst → tr = tr' ∧ t = t'
  | [], [], _, _, _, h, h', _ => ⟨rfl, h.det h'⟩
  | [], _ :: _, _, _, _, _, _, heq => by simp at heq
  | _ :: _, [], _, _, _, _, _, heq => by simp at heq
  | l :: tr, l' :: tr', s, t, t', h, h', heq => by
    obtain ⟨u, hstep, hrest⟩ := run_cons.mp h
    obtain ⟨u', hstep', hrest'⟩ := run_cons.mp h'
    rw [List.map_cons, List.map_cons, List.cons.injEq] at heq
    simp only [responder, Option.ite_none_right_eq_some, Option.some.injEq] at hstep hstep'
    obtain ⟨hout, rfl⟩ := hstep
    obtain ⟨hout', rfl⟩ := hstep'
    rw [← heq.1] at hout' hrest'
    obtain ⟨rfl, rfl⟩ := responder_run_eq hrest hrest' heq.2
    exact ⟨by rw [show l = l' from Prod.ext heq.1 (hout.symm.trans hout')], rfl⟩

/-! ## Families -/

/-- A family of systems side by side: each step is a step of one member, and a
label says whose. -/
def family {ι : Type} [DecidableEq ι] (F : ι → Lts σ ℓ) : Lts (ι → σ) (ι × ℓ) where
  init i := (F i).init
  step s l := ((F l.1).step (s l.1) l.2).map fun t i => if i = l.1 then t else s i

/-- The labels of one member. -/
def member {ι : Type} [DecidableEq ι] (i : ι) (tr : List (ι × ℓ)) : List ℓ :=
  tr.filterMap fun l => if l.1 = i then some l.2 else none

/-- A run of a family is a run of each of its members. -/
theorem family_run {ι : Type} [DecidableEq ι] {F : ι → Lts σ ℓ} {s t : ι → σ} {tr : List (ι × ℓ)}
    (h : (family F).Run s tr t) (i : ι) : (F i).Run (s i) (member i tr) (t i) := by
  refine Run.induct (P := fun tr t => (F i).Run (s i) (member i tr) (t i)) (Run.nil _ _) ?_ h
  intro tr t l u _ ih hstep
  obtain ⟨t', hstep', rfl⟩ := Option.map_eq_some_iff.mp hstep
  have hlast : member i (tr ++ [l]) = member i tr ++ member i [l] := List.filterMap_append
  rw [hlast]
  by_cases hi : l.1 = i
  · subst hi
    simpa [member] using ih.snoc hstep'
  · have hne : i ≠ l.1 := fun h => hi h.symm
    simpa [member, hi, hne] using ih

/-! ## Two systems -/

variable {M : Lts τ m}

/-- Two systems side by side: each step is a step of one of them. -/
def interleave (L : Lts σ ℓ) (M : Lts τ m) : Lts (σ × τ) (ℓ ⊕ m) where
  init := (L.init, M.init)
  step s
    | .inl l => (L.step s.1 l).map fun t => (t, s.2)
    | .inr k => (M.step s.2 k).map fun t => (s.1, t)

/-- A run of the two is a run of each. -/
theorem interleave_run {s t : σ × τ} {tr : List (ℓ ⊕ m)} (h : (interleave L M).Run s tr t) :
    L.Run s.1 (tr.filterMap Sum.getLeft?) t.1 ∧ M.Run s.2 (tr.filterMap Sum.getRight?) t.2 := by
  refine Run.induct (P := fun tr t => L.Run s.1 (tr.filterMap Sum.getLeft?) t.1 ∧
    M.Run s.2 (tr.filterMap Sum.getRight?) t.2) ⟨Run.nil _ _, Run.nil _ _⟩ ?_ h
  intro tr t l u _ ih hstep
  rw [List.filterMap_append, List.filterMap_append]
  cases l with
  | inl l =>
    obtain ⟨t', hstep', rfl⟩ := Option.map_eq_some_iff.mp hstep
    have hright : [Sum.inl l].filterMap Sum.getRight? = ([] : List m) := rfl
    rw [hright, List.append_nil]
    exact ⟨ih.1.snoc hstep', ih.2⟩
  | inr k =>
    obtain ⟨t', hstep', rfl⟩ := Option.map_eq_some_iff.mp hstep
    have hleft : [Sum.inr k].filterMap Sum.getLeft? = ([] : List ℓ) := rfl
    rw [hleft, List.append_nil]
    exact ⟨ih.1, ih.2.snoc hstep'⟩

/-- One of them can go on by itself, wherever the other is. -/
theorem Run.interleave_left {x : τ} (h : L.Run s tr t) : (interleave L M).Run (s, x) (tr.map .inl) (t, x) := by
  refine Run.induct (P := fun tr t => (interleave L M).Run (s, x) (tr.map .inl) (t, x)) (Run.nil _ _) ?_ h
  intro tr t l u _ ih hstep
  rw [List.map_append]
  exact ih.snoc (Option.map_eq_some_iff.mpr ⟨u, hstep, rfl⟩)

/-! ## Conditions on steps -/

/-- Every step of the trace, taken from `s`, meets a condition. -/
def Meets (L : Lts σ ℓ) (C : σ → ℓ → Prop) : σ → List ℓ → Prop
  | _, [] => True
  | s, l :: tr => C s l ∧ ∀ t, L.step s l = some t → L.Meets C t tr

variable {C : σ → ℓ → Prop}

instance decidableMeets [∀ s l, Decidable (C s l)] : ∀ s tr, Decidable (L.Meets C s tr)
  | _, [] => isTrue trivial
  | s, l :: tr =>
    match h : L.step s l with
    | none => decidable_of_iff (C s l) (by simp [Meets, h])
    | some t =>
      have := decidableMeets t tr
      decidable_of_iff (C s l ∧ L.Meets C t tr) (by simp [Meets, h])

theorem meets_append (h : L.Run s tr t) : L.Meets C s (tr ++ tr') ↔ L.Meets C s tr ∧ L.Meets C t tr' := by
  induction tr generalizing s with
  | nil =>
    rw [run_nil] at h
    subst h
    simp [Meets]
  | cons l tr ih =>
    obtain ⟨u, hstep, hrest⟩ := run_cons.mp h
    have hnext : ∀ {Q : σ → Prop}, (∀ v, L.step s l = some v → Q v) ↔ Q u := by
      intro Q
      simp [hstep]
    rw [List.cons_append, Meets, Meets, hnext, hnext, ih hrest, and_assoc]

/-- A property that every step which meets the condition keeps. -/
theorem Run.invariant_meets {I : σ → Prop} (keep : ∀ t l u, I t → C t l → L.step t l = some u → I u)
    (h : L.Run s tr t) (hc : L.Meets C s tr) (h0 : I s) : I t := by
  refine Run.induct (P := fun tr t => L.Meets C s tr → I t) (fun _ => h0) ?_ h hc
  intro tr t l u hrun ih hstep hc
  obtain ⟨hbefore, hlast⟩ := (meets_append hrun).mp hc
  exact keep t l u (ih hbefore) hlast.1 hstep

end Lts
