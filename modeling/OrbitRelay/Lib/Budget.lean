import Mathlib.Algebra.GroupWithZero.Nat
import Mathlib.Data.List.AList
import OrbitRelay.Lib.Lts
import OrbitRelay.Lib.Table

/-
  Budgets: how often the steps of a kind can be taken.

  `left s` bounds the work a system has in hand. A step of the kind `work` takes
  at least one from it, and any step puts at most its `cost` back, so a run has
  no more work in it than it started with and was given on the way. With a
  step of work to take from every unfinished state the system also finishes.

    `Budget.run`      the work of a run, against what was left and what came in
    `Budget.finish`   a run of work alone that finishes
    `Table.total`     a budget summed over the entries of a table
-/

namespace Lts

variable {σ ℓ : Type} {L : Lts σ ℓ} {I : σ → Prop} {work : ℓ → Bool} {cost : ℓ → Nat} {left : σ → Nat}
  {s t : σ} {tr : List ℓ}

/-- In the states `I`, work is paid for out of `left`, and only a label with a
cost adds to it. -/
structure Budget (L : Lts σ ℓ) (I : σ → Prop) (work : ℓ → Bool) (cost : ℓ → Nat) (left : σ → Nat) : Prop where
  pays : ∀ {s l t}, I s → L.step s l = some t → work l = true → left t + 1 ≤ left s + cost l
  keeps : ∀ {s l t}, I s → L.step s l = some t → work l = false → left t ≤ left s + cost l

/-- The work of a run is at most what was left when it began and what it was
given since. -/
theorem Budget.run (B : L.Budget I work cost left) (h : L.Run s tr t)
    (along : ∀ {pre post u}, tr = pre ++ post → L.Run s pre u → I u) :
    tr.countP work + left t ≤ left s + (tr.map cost).sum := by
  refine Run.induct (P := fun tr t => (∀ {pre post u}, tr = pre ++ post → L.Run s pre u → I u) →
    tr.countP work + left t ≤ left s + (tr.map cost).sum) ?_ ?_ h along
  · intro _
    simp
  · intro tr t l u hrun ih hstep along
    have hbefore := ih fun hsplit hpre => along (hsplit ▸ List.append_assoc _ _ _) hpre
    have hI : I t := along rfl hrun
    rw [List.countP_append, List.map_append, List.sum_append, List.countP_singleton, List.map_singleton,
      List.sum_singleton]
    cases hwork : work l with
    | true =>
      have hpaid := B.pays hI hstep hwork
      simp only [if_true]
      omega
    | false =>
      have hkept := B.keeps hI hstep hwork
      simp only [Bool.false_eq_true, if_false]
      omega

/-- Where every unfinished state has work to do, work alone finishes. -/
theorem Budget.finish (B : L.Budget I work cost left) (done : σ → Prop)
    (keep : ∀ {s l t}, I s → L.step s l = some t → work l = true → I t)
    (next : ∀ {s}, I s → ¬done s → ∃ l t, work l = true ∧ cost l = 0 ∧ L.step s l = some t) (h0 : I s) :
    ∃ tr t, L.Run s tr t ∧ (∀ l ∈ tr, work l = true) ∧ done t := by
  induction hn : left s using Nat.strong_induction_on generalizing s with
  | _ n ih =>
    by_cases hdone : done s
    · exact ⟨[], s, Run.nil L s, by simp, hdone⟩
    · obtain ⟨l, u, hwork, hfree, hstep⟩ := next h0 hdone
      have hless : left u < n := by
        have hpaid := B.pays h0 hstep hwork
        omega
      obtain ⟨tr, t, hrun, hall, ht⟩ := ih (left u) hless (keep h0 hstep hwork) rfl
      exact ⟨l :: tr, t, run_cons.mpr ⟨u, hstep, hrun⟩, List.forall_mem_cons.mpr ⟨hwork, hall⟩, ht⟩

end Lts

namespace Table

variable {κ β : Type} [DecidableEq κ] {f : β → Nat} {t : Table κ β} {k : κ} {v : β}

/-- The sum of `f` over the entries. -/
def total (f : β → Nat) (t : Table κ β) : Nat := (t.entries.map fun x => f x.2).sum

/-- An entry leaves, and its part with it. -/
theorem total_erase (h : t.lookup k = some v) : total f (t.erase k) + f v = total f t := by
  have hmem : k ∈ t.entries.keys := by
    rw [← AList.keys, mem_keys_iff]
    exact ⟨v, h⟩
  obtain ⟨w, pre, post, hpre, hsplit, herase⟩ := List.exists_of_kerase hmem
  have hw : t.lookup k = some w := by
    rw [← mem_entries_iff, hsplit]
    simp
  obtain rfl := Option.some.inj (h.symm.trans hw)
  have hrest : (t.erase k).entries = pre ++ post := herase
  rw [total, total, hrest, hsplit]
  simp only [List.map_append, List.map_cons, List.sum_append, List.sum_cons]
  omega

theorem total_insert : total f (t.insert k v) = f v + total f (t.erase k) := by
  rw [total, AList.entries_insert, List.map_cons, List.sum_cons]
  rfl

/-- An entry comes in. -/
theorem total_insert_new (h : t.lookup k = none) : total f (t.insert k v) = f v + total f t := by
  rw [total, AList.entries_insert_of_notMem (AList.lookup_eq_none.mp h), List.map_cons, List.sum_cons, total]

/-- An entry changes. -/
theorem total_update (v' : β) (h : t.lookup k = some v) : total f (t.insert k v') + f v = total f t + f v' := by
  rw [total_insert, ← total_erase (f := f) h]
  omega

omit f in
/-- Removals make no table longer. -/
theorem length_eraseAll_le : ∀ (ks : List κ) (t : Table κ β),
    (ks.foldl (fun t k => t.erase k) t).keys.length ≤ t.keys.length
  | [], _ => Nat.le_refl _
  | k :: ks, t => by
    have hone : (t.erase k).keys.length ≤ t.keys.length := by
      rw [AList.keys_erase]
      exact List.length_erase_le ..
    exact Nat.le_trans (length_eraseAll_le ks (t.erase k)) hone

end Table
