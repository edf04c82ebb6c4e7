import Mathlib.Data.List.Induction
import Mathlib.Data.List.Nodup

/-
  First-writer-wins logs.

  Every element carries a key, and a log keeps one element for each key: the
  one that came first. `firsts key as` is the log the writes `as` leave behind,
  said without a state: the elements no earlier element shares its key with, in
  the order they came. `put` is the operation of a running log, and
  `puts_eq_firsts` says that any sequence of puts ends in `firsts`.
-/

namespace KeyedLog

variable {κ α : Type} [DecidableEq κ] [DecidableEq α] (key : α → κ)

/-- The elements whose key no earlier element has, in order. -/
def firsts : List α → List α
  | [] => []
  | a :: as => a :: (firsts as).filter fun b => key b ≠ key a

/-- What a put finds under the key. -/
inductive Put (α : Type) where
  | fresh
  | same
  | conflict (stored : α)
  deriving DecidableEq

/-- Add an element unless its key is taken. -/
def put (log : List α) (a : α) : Put α × List α :=
  match log.find? fun b => key b = key a with
  | none => (.fresh, log ++ [a])
  | some b => (if b = a then .same else .conflict b, log)

/-- A sequence of puts. -/
def puts (log : List α) (as : List α) : List α :=
  as.foldl (fun log a => (put key log a).2) log

/-! ## What `firsts` holds -/

omit [DecidableEq α] in
/-- Under every key the log holds the first element of all with that key. -/
theorem find_firsts (k : κ) : ∀ as : List α,
    (firsts key as).find? (fun b => key b = k) = as.find? fun b => key b = k
  | [] => rfl
  | a :: as => by
    rw [firsts, List.find?_cons, List.find?_cons]
    by_cases hk : key a = k
    · simp [hk]
    · -- what the filter takes out has the key of `a`, and that is not `k`
      have hsame : ∀ b, (key b ≠ key a ∧ key b = k) ↔ key b = k := by
        intro b
        constructor
        · exact And.right
        · intro hb
          exact ⟨fun heq => hk (heq ▸ hb), hb⟩
      rw [decide_eq_false hk, List.find?_filter]
      simp only [decide_eq_true_eq, hsame]
      exact find_firsts k as

omit [DecidableEq α] in
/-- The log holds the elements that come first among those with their key. -/
theorem mem_firsts_iff {a : α} : ∀ as : List α,
    a ∈ firsts key as ↔ as.find? (fun b => key b = key a) = some a
  | [] => by simp [firsts]
  | c :: as => by
    rw [firsts, List.mem_cons, List.mem_filter, List.find?_cons, mem_firsts_iff as]
    by_cases hk : key c = key a
    · simp [hk, eq_comm]
    · have hne : a ≠ c := fun h => hk (h ▸ rfl)
      have hne' : ¬key a = key c := fun h => hk h.symm
      simp [hk, hne, hne']

omit [DecidableEq α] in
theorem exists_firsts_iff {as : List α} {k : κ} :
    (∃ b ∈ firsts key as, key b = k) ↔ ∃ a ∈ as, key a = k := by
  have hfound : ∀ bs : List α, (bs.find? fun b => key b = k).isSome ↔ ∃ b ∈ bs, key b = k := by
    intro bs
    simp [List.find?_isSome]
  rw [← hfound, ← hfound, find_firsts]

omit [DecidableEq α] in
/-- Where a key stands for one element only, nothing is left out. -/
theorem mem_firsts_of_consistent {as : List α} (h : ∀ a ∈ as, ∀ b ∈ as, key a = key b → a = b)
    {a : α} : a ∈ firsts key as ↔ a ∈ as := by
  rw [mem_firsts_iff]
  constructor
  · exact List.mem_of_find?_eq_some
  · intro ha
    have hsome : (as.find? fun b => key b = key a).isSome := by
      rw [List.find?_isSome]
      exact ⟨a, ha, by simp⟩
    obtain ⟨b, hb⟩ := Option.isSome_iff_exists.mp hsome
    have hkey : key b = key a := by simpa using List.find?_some hb
    rw [hb, h b (List.mem_of_find?_eq_some hb) a ha hkey]

omit [DecidableEq α] in
/-- One more write is added at the end, or changes nothing. -/
theorem firsts_snoc (as : List α) (a : α) :
    firsts key (as ++ [a]) =
      if ∃ b ∈ firsts key as, key b = key a then firsts key as else firsts key as ++ [a] := by
  induction as with
  | nil => simp [firsts]
  | cons c as ih =>
    rw [List.cons_append, firsts, ih, firsts]
    -- a key that the head has taken is taken, whatever the rest of the log has
    by_cases hc : key c = key a
    · have hin : ∃ b ∈ c :: (firsts key as).filter (fun b => key b ≠ key c), key b = key a :=
        ⟨c, List.mem_cons_self, hc⟩
      rw [if_pos hin]
      split
      · rfl
      · simp [List.filter_append, hc]
    · have hiff : (∃ b ∈ c :: (firsts key as).filter (fun b => key b ≠ key c), key b = key a) ↔
          ∃ b ∈ firsts key as, key b = key a := by
        constructor
        · intro hfound
          obtain ⟨b, hb, hk⟩ := hfound
          rcases List.mem_cons.mp hb with rfl | hb
          · exact absurd hk hc
          · exact ⟨b, (List.mem_filter.mp hb).1, hk⟩
        · intro hfound
          obtain ⟨b, hb, hk⟩ := hfound
          have hne : key b ≠ key c := fun h => hc (by rw [← h, hk])
          exact ⟨b, List.mem_cons_of_mem _ (List.mem_filter.mpr ⟨hb, by simpa using hne⟩), hk⟩
      simp only [hiff]
      split
      · rfl
      · have hne : key a ≠ key c := fun h => hc h.symm
        simp [List.filter_append, hne]

/-! ## Puts -/

theorem put_of_mem {log : List α} {a b : α} (h : log.find? (fun c => key c = key a) = some b) :
    put key log a = (if b = a then .same else .conflict b, log) := by
  simp [put, h]

theorem put_of_fresh {log : List α} {a : α} (h : ∀ b ∈ log, key b ≠ key a) :
    put key log a = (.fresh, log ++ [a]) := by
  have hnone : log.find? (fun c => key c = key a) = none := by
    rw [List.find?_eq_none]
    intro b hb
    simpa using h b hb
  simp [put, hnone]

/-- A put leaves the log `firsts` says. -/
theorem put_firsts (as : List α) (a : α) : (put key (firsts key as) a).2 = firsts key (as ++ [a]) := by
  rw [firsts_snoc]
  split
  · next h =>
    obtain ⟨b, hb, hk⟩ := h
    have hsome : ((firsts key as).find? fun c => key c = key a).isSome := by
      rw [List.find?_isSome]
      exact ⟨b, hb, by simpa using hk⟩
    obtain ⟨c, hc⟩ := Option.isSome_iff_exists.mp hsome
    rw [put_of_mem key hc]
  · next h =>
    rw [put_of_fresh key]
    exact fun b hb hk => h ⟨b, hb, hk⟩

theorem puts_snoc (log : List α) (as : List α) (a : α) :
    puts key log (as ++ [a]) = (put key (puts key log as) a).2 := by
  rw [puts, puts, List.foldl_append]
  rfl

/-- Any sequence of puts into the empty log ends in the first writer of every key. -/
theorem puts_eq_firsts (as : List α) : puts key [] as = firsts key as := by
  induction as using List.reverseRecOn with
  | nil => rfl
  | append_singleton as a ih => rw [puts_snoc, ih, put_firsts]

/-! ## What a batch adds -/

/-- What the writes `as` add to a log they nowhere conflict with. -/
def added (log as : List α) : List α := (firsts key as).filter fun a => a ∉ log

variable {log as : List α} {a : α}

/-- A write that is in the log by then adds nothing. -/
theorem added_snoc_of_mem (h : a ∈ log ++ added key log as) :
    added key log (as ++ [a]) = added key log as := by
  rw [added, firsts_snoc]
  split
  · rfl
  · next hnew =>
    rcases List.mem_append.mp h with hlog | hadded
    · simp [added, List.filter_append, hlog]
    · exact absurd ⟨a, (List.mem_filter.mp hadded).1, rfl⟩ hnew

/-- A write whose key is new is added at the end. -/
theorem added_snoc_of_fresh (hall : ∀ b ∈ as, b ∈ log ++ added key log as)
    (h : ∀ b ∈ log ++ added key log as, key b ≠ key a) :
    added key log (as ++ [a]) = added key log as ++ [a] := by
  have hnew : ¬∃ b ∈ firsts key as, key b = key a := by
    intro hfound
    obtain ⟨b, hb, hk⟩ := hfound
    exact h b (hall b (List.mem_of_find?_eq_some ((mem_firsts_iff key as).mp hb))) hk
  have hlog : a ∉ log := fun ha => h a (List.mem_append_left _ ha) rfl
  rw [added, firsts_snoc, if_neg hnew, List.filter_append]
  simp [added, hlog]

end KeyedLog
