import Mathlib.Data.List.AList

/-
  Finite tables: association lists with one value for each key.

  The lemmas say what a lookup finds after an insertion or a removal, in the
  form in which a proof has it: some value was found, so it is the new one or
  it was there before.
-/

/-- A table with one value for each key. -/
abbrev Table (κ β : Type) := AList fun _ : κ => β

namespace Table

variable {κ β : Type} [DecidableEq κ] {t : Table κ β} {k k' : κ} {v v' : β}

theorem lookup_insert_eq_some :
    (t.insert k v).lookup k' = some v' ↔ (k' = k ∧ v = v') ∨ (k' ≠ k ∧ t.lookup k' = some v') := by
  by_cases hk : k' = k
  · subst hk
    simp [AList.lookup_insert]
  · simp [AList.lookup_insert_ne hk, hk]

theorem lookup_erase_eq_some :
    (t.erase k).lookup k' = some v ↔ k' ≠ k ∧ t.lookup k' = some v := by
  by_cases hk : k' = k
  · subst hk
    simp [AList.lookup_erase]
  · simp [AList.lookup_erase_ne hk, hk]

/-- What is left after several removals. -/
theorem lookup_eraseAll_eq_some : ∀ {ks : List κ} {t : Table κ β},
    (ks.foldl (fun t k => t.erase k) t).lookup k = some v ↔ k ∉ ks ∧ t.lookup k = some v
  | [], _ => by simp
  | k' :: ks, t => by
    rw [List.foldl_cons, lookup_eraseAll_eq_some, lookup_erase_eq_some, List.mem_cons]
    tauto

theorem eraseAll_empty : ∀ ks : List κ, ks.foldl (fun t k => t.erase k) (∅ : Table κ β) = ∅
  | [] => rfl
  | _ :: ks => eraseAll_empty ks

theorem mem_entries_iff : ⟨k, v⟩ ∈ t.entries ↔ t.lookup k = some v :=
  (AList.mem_lookup_iff (s := t)).symm

theorem mem_keys_iff : k ∈ t.keys ↔ ∃ v, t.lookup k = some v := by
  rw [← AList.mem_keys, ← AList.lookup_isSome, Option.isSome_iff_exists]

omit [DecidableEq κ] in
theorem keys_eq_nil_iff : t.keys = [] ↔ t = ∅ := by
  constructor
  · intro h
    apply AList.ext
    exact List.map_eq_nil_iff.mp h
  · intro heq
    subst heq
    rfl

end Table
