import Mathlib.Algebra.GroupWithZero.Nat
import Mathlib.Data.List.Nodup
import Mathlib.Data.List.Perm.Basic
import OrbitRelay.Lib.Lts

/-
  Bounded queues that drop and count.

  Producers send into a queue of fixed capacity without waiting: a value that
  finds the queue full is dropped, and its producer adds one to a counter, as a
  second step of its own; the counter stops at a limit. One consumer alternates
  between a check, which takes the counter to zero and is told what it held,
  and a take of the oldest value. The `Ledger` of such a queue follows every
  value by its position in the order of sending: accepted, and by now taken or
  waiting; or dropped, and by now uncounted, counted, announced, or lost to a
  counter at its limit. A check announces as many of the counted drops as it is
  told, so one that is told nothing announces none.

  `lossyQueue` allows exactly the moves such a queue can make. What is proved
  of every run:
    1. `Sound`: the accepted and the dropped split everything sent, in order,
       and every drop is in exactly one of the four places.
    2. `announced_before_iff`: a value is taken with every earlier drop
       announced iff none of these was still uncounted at the check before, and
       none was lost. The reason is `ahead`: after a check, the first waiting
       value is older than every drop that happens from then on, since a drop
       needs a full queue and nothing leaves the queue before the take.
    3. `drained_iff`: the same for finding the queue empty.
    4. `taken_append_waiting` and `missed_sum`: what the consumer got and has
       waiting is what was accepted, and what it was told adds up to the drops
       announced, each of which a check has announced (`mem_announced_iff`).
-/

namespace LossyQueue

variable {τ α : Type}

/-- One move of a producer or of the consumer. -/
inductive Move (τ α : Type) where
  /-- a value found room -/
  | accept (a : α)
  /-- a value of producer `t` found the queue full -/
  | drop (t : τ) (a : α)
  /-- producer `t` adds its drop to the counter -/
  | count (t : τ)
  /-- the consumer takes the counter to zero and is told what it held -/
  | check (missed : Nat)
  /-- the consumer takes the oldest waiting value -/
  | take (a : α)

namespace Move

def accepted? : Move τ α → Option α
  | .accept a => some a
  | _ => none

def dropped? : Move τ α → Option α
  | .drop _ a => some a
  | _ => none

def missed : Move τ α → Nat
  | .check missed => missed
  | _ => 0

def taken? : Move τ α → Option α
  | .take a => some a
  | _ => none

def dropper? : Move τ α → Option τ
  | .drop t _ => some t
  | _ => none

def counter? : Move τ α → Option τ
  | .count t => some t
  | _ => none

end Move

/-- Every value sent, by its position, and what became of it. -/
structure Ledger (τ α : Type) where
  sent : List α
  accepted : List (Nat × α)
  taken : Nat
  dropped : List (Nat × α)
  uncounted : List (τ × Nat)
  counted : List Nat
  announced : List Nat
  /-- the drops added to a counter at its limit -/
  lost : List Nat
  /-- the drops uncounted at the last check -/
  unsettled : List Nat
  /-- whether the consumer has checked since its last take -/
  fresh : Bool

namespace Ledger

/-- The ledger of a new queue. -/
def empty : Ledger τ α := ⟨[], [], 0, [], [], [], [], [], [], false⟩

/-- The accepted values not taken yet, oldest first. -/
def waiting (L : Ledger τ α) : List (Nat × α) := L.accepted.drop L.taken

/-- The positions of the drops that may still be announced. -/
def outstanding (L : Ledger τ α) : List Nat := L.uncounted.map Prod.snd ++ L.counted

variable [DecidableEq τ]

/-- The drops of a producer that it has not counted. -/
def owing (L : Ledger τ α) (t : τ) : List Nat := (L.uncounted.filter fun x => x.1 = t).map Prod.snd

/-- The ledger after a move, for a counter that stops at `limit`. -/
def record (limit : Nat) (L : Ledger τ α) : Move τ α → Ledger τ α
  | .accept a =>
    { L with sent := L.sent ++ [a], accepted := L.accepted ++ [(L.sent.length, a)] }
  | .drop t a =>
    { L with
      sent := L.sent ++ [a]
      dropped := L.dropped ++ [(L.sent.length, a)]
      uncounted := L.uncounted ++ [(t, L.sent.length)] }
  | .count t =>
    { L with
      uncounted := L.uncounted.filter fun x => x.1 ≠ t
      -- the additions that go beyond the limit are lost
      counted := L.counted ++ (L.owing t).take (limit - L.counted.length)
      lost := L.lost ++ (L.owing t).drop (limit - L.counted.length) }
  | .check missed =>
    { L with
      counted := L.counted.drop missed
      announced := L.announced ++ L.counted.take missed
      unsettled := L.uncounted.map Prod.snd
      fresh := true }
  | .take _ => { L with taken := L.taken + 1, fresh := false }

/-- The moves a queue of a capacity can make. -/
def Allows (capacity : Nat) (L : Ledger τ α) : Move τ α → Prop
  | .accept _ => L.waiting.length < capacity
  | .drop t _ => L.waiting.length = capacity ∧ t ∉ L.uncounted.map Prod.fst
  | .count t => t ∈ L.uncounted.map Prod.fst
  | .check missed => missed = L.counted.length
  | .take a => L.fresh = true ∧ L.waiting.head?.map Prod.snd = some a

instance [DecidableEq α] (capacity : Nat) (L : Ledger τ α) (m : Move τ α) :
    Decidable (L.Allows capacity m) := by
  cases m <;> unfold Allows <;> infer_instance

/-- The ledger after a list of moves. -/
def replay (limit : Nat) (L : Ledger τ α) (ms : List (Move τ α)) : Ledger τ α := ms.foldl (record limit) L

end Ledger

variable [DecidableEq τ] {capacity limit : Nat} {L : Ledger τ α}

/-! ## The invariant -/

/-- What holds of a ledger after any moves the queue allows. -/
structure Sound (capacity limit : Nat) (L : Ledger τ α) : Prop where
  /-- accepted and dropped values split the sent ones -/
  split : ((L.accepted ++ L.dropped).map Prod.fst).Perm (List.range L.sent.length)
  value : ∀ x ∈ L.accepted ++ L.dropped, L.sent[x.1]? = some x.2
  accepted_sorted : (L.accepted.map Prod.fst).Pairwise (· < ·)
  dropped_sorted : (L.dropped.map Prod.fst).Pairwise (· < ·)
  taken_le : L.taken ≤ L.accepted.length
  room : L.waiting.length ≤ capacity
  /-- every drop is uncounted, counted, lost or announced, and only one of them -/
  settled : (L.outstanding ++ L.lost ++ L.announced).Perm (L.dropped.map Prod.fst)
  owners : (L.uncounted.map Prod.fst).Nodup
  counted_le : L.counted.length ≤ limit
  /-- since a check, drops are younger than the first waiting value -/
  ahead : L.fresh = true → ∀ d ∈ L.outstanding, d ∉ L.unsettled →
    ∃ x, L.waiting.head? = some x ∧ x.1 < d
  late : L.fresh = true → ∀ d ∈ L.unsettled, d ∈ L.outstanding ++ L.lost

namespace Sound

omit [DecidableEq τ] in
theorem empty : Sound capacity limit (Ledger.empty : Ledger τ α) where
  split := by simp [Ledger.empty]
  value := by simp [Ledger.empty]
  accepted_sorted := by simp [Ledger.empty]
  dropped_sorted := by simp [Ledger.empty]
  taken_le := Nat.le_refl _
  room := by simp [Ledger.empty, Ledger.waiting]
  settled := by simp [Ledger.empty, Ledger.outstanding]
  owners := by simp [Ledger.empty]
  counted_le := Nat.zero_le _
  ahead := by simp [Ledger.empty]
  late := by simp [Ledger.empty]

omit [DecidableEq τ] in
theorem sent_lt (h : Sound capacity limit L) {x : Nat × α} (hx : x ∈ L.accepted ++ L.dropped) :
    x.1 < L.sent.length := by
  have := h.split.subset (List.mem_map_of_mem hx)
  simpa using this

theorem range_succ_perm {l : List Nat} {n : Nat} (h : l.Perm (List.range n)) :
    (l ++ [n]).Perm (List.range (n + 1)) := by
  rw [List.range_succ]
  exact h.append_right [n]

omit [DecidableEq τ] in
theorem waiting_append (L : Ledger τ α) (x : Nat × α) (h : L.taken ≤ L.accepted.length) :
    (L.accepted ++ [x]).drop L.taken = L.waiting ++ [x] := by
  rw [List.drop_append_of_le_length h, Ledger.waiting]

omit [DecidableEq τ] in
theorem sorted_snoc (h : Sound capacity limit L) {l : List (Nat × α)} (hl : l.Sublist L.accepted ∨ l.Sublist L.dropped)
    (hs : (l.map Prod.fst).Pairwise (· < ·)) (a : α) :
    ((l ++ [(L.sent.length, a)]).map Prod.fst).Pairwise (· < ·) := by
  rw [List.map_append, List.pairwise_append]
  refine ⟨hs, by simp, ?_⟩
  intro n hn k hk
  obtain ⟨x, hx, rfl⟩ := List.mem_map.mp hn
  simp only [List.map_cons, List.map_nil, List.mem_singleton] at hk
  subst hk
  rcases hl with hl | hl
  · exact h.sent_lt (List.mem_append_left _ (hl.subset hx))
  · exact h.sent_lt (List.mem_append_right _ (hl.subset hx))

omit [DecidableEq τ] in
theorem value_snoc (h : Sound capacity limit L) (a : α) {x : Nat × α}
    (hx : x ∈ L.accepted ++ L.dropped ∨ x = (L.sent.length, a)) : (L.sent ++ [a])[x.1]? = some x.2 := by
  rcases hx with hx | rfl
  · rw [List.getElem?_append_left (h.sent_lt hx)]
    exact h.value x hx
  · simp

theorem accept (h : Sound capacity limit L) (a : α) (hroom : L.waiting.length < capacity) :
    Sound capacity limit (L.record limit (.accept a)) where
  split := by
    have hperm : ((L.accepted ++ [(L.sent.length, a)] ++ L.dropped).map Prod.fst).Perm
        ((L.accepted ++ L.dropped).map Prod.fst ++ [L.sent.length]) := by
      simp only [List.map_append, List.append_assoc]
      exact List.perm_append_comm.append_left _
    simp only [Ledger.record, List.length_append, List.length_singleton]
    exact hperm.trans (range_succ_perm h.split)
  value := by
    intro x hx
    apply h.value_snoc a
    simp only [Ledger.record, List.mem_append, List.mem_singleton] at hx ⊢
    tauto
  accepted_sorted := h.sorted_snoc (.inl (List.Sublist.refl _)) h.accepted_sorted a
  dropped_sorted := h.dropped_sorted
  taken_le := by
    simp only [Ledger.record, List.length_append]
    exact Nat.le_add_right_of_le h.taken_le
  room := by
    simp only [Ledger.waiting, Ledger.record]
    rw [waiting_append L _ h.taken_le, List.length_append, List.length_singleton]
    exact hroom
  settled := h.settled
  owners := h.owners
  counted_le := h.counted_le
  ahead := by
    intro hf d hd hu
    obtain ⟨x, hx, hlt⟩ := h.ahead hf d hd hu
    refine ⟨x, ?_, hlt⟩
    simp only [Ledger.waiting, Ledger.record]
    rw [waiting_append L _ h.taken_le, List.head?_append, hx]
    rfl
  late := h.late

theorem drop (h : Sound capacity limit L) (hcap : 0 < capacity) (t : τ) (a : α)
    (hfull : L.waiting.length = capacity) (ht : t ∉ L.uncounted.map Prod.fst) :
    Sound capacity limit (L.record limit (.drop t a)) where
  split := by
    simp only [Ledger.record, List.length_append, List.length_singleton, ← List.append_assoc]
    rw [List.map_append]
    exact range_succ_perm h.split
  value := by
    intro x hx
    apply h.value_snoc a
    simp only [Ledger.record, List.mem_append, List.mem_singleton] at hx ⊢
    tauto
  accepted_sorted := h.accepted_sorted
  dropped_sorted := h.sorted_snoc (.inr (List.Sublist.refl _)) h.dropped_sorted a
  taken_le := h.taken_le
  room := h.room
  -- the new drop is the last of the uncounted ones, and the last of all
  settled := by
    rw [List.perm_iff_count]
    intro d
    have hsettled := h.settled.count_eq d
    simp only [Ledger.outstanding, Ledger.record, List.map_append, List.map_cons, List.map_nil,
      List.count_append] at hsettled ⊢
    omega
  owners := by
    simp only [Ledger.record, List.map_append, List.map_cons, List.map_nil]
    rw [List.nodup_append]
    refine ⟨h.owners, by simp, ?_⟩
    intro x hx y hy
    simp only [List.mem_singleton] at hy
    subst hy
    exact fun heq => ht (heq ▸ hx)
  counted_le := h.counted_le
  ahead := by
    -- the queue is full, so it has a first value, and that was sent before
    intro hf d hd hu
    have hne : L.waiting ≠ [] := by
      rw [← List.length_pos_iff, hfull]
      exact hcap
    obtain ⟨x, hx⟩ := Option.ne_none_iff_exists'.mp (mt List.head?_eq_none_iff.mp hne)
    by_cases hnew : d = L.sent.length
    · have hmem : x ∈ L.accepted := List.mem_of_mem_drop (List.mem_of_mem_head? hx)
      exact ⟨x, hx, hnew ▸ h.sent_lt (List.mem_append_left _ hmem)⟩
    · apply h.ahead hf d _ hu
      simp only [Ledger.outstanding, Ledger.record, List.map_append, List.map_cons, List.map_nil,
        List.mem_append, List.mem_singleton] at hd ⊢
      tauto
  late := by
    intro hf d hd
    have hlate := h.late hf d hd
    simp only [Ledger.outstanding, Ledger.record, List.map_append, List.mem_append] at hlate ⊢
    tauto

/-- A producer's drops are some of the uncounted ones, the rest are the others'. -/
theorem count_uncounted (L : Ledger τ α) (t : τ) (d : Nat) :
    (L.owing t).count d + ((L.uncounted.filter fun x => x.1 ≠ t).map Prod.snd).count d =
      (L.uncounted.map Prod.snd).count d := by
  have hsplit := ((List.filter_append_perm (fun x : τ × Nat => decide (x.1 = t)) L.uncounted).map Prod.snd).count_eq d
  rw [List.map_append, List.count_append] at hsplit
  simpa only [Ledger.owing, decide_not] using hsplit

/-- Counting moves a drop from one place to the next. -/
theorem count_places (limit : Nat) (L : Ledger τ α) (t : τ) :
    ((L.record limit (.count t)).outstanding ++ (L.record limit (.count t)).lost).Perm (L.outstanding ++ L.lost) := by
  rw [List.perm_iff_count]
  intro d
  have huncounted := count_uncounted L t d
  have howing := congrArg (List.count d) (List.take_append_drop (limit - L.counted.length) (L.owing t))
  rw [List.count_append] at howing
  simp only [Ledger.outstanding, Ledger.record, List.count_append]
  omega

theorem outstanding_of_count {t : τ} {d : Nat} (hd : d ∈ (L.record limit (.count t)).outstanding) :
    d ∈ L.outstanding := by
  simp only [Ledger.outstanding, Ledger.record, List.mem_append] at hd ⊢
  rcases hd with hd | hd | hd
  · exact .inl ((List.filter_sublist.map Prod.snd).subset hd)
  · exact .inr hd
  · exact .inl ((List.filter_sublist.map Prod.snd).subset (List.mem_of_mem_take hd))

theorem count (h : Sound capacity limit L) (t : τ) : Sound capacity limit (L.record limit (.count t)) where
  split := h.split
  value := h.value
  accepted_sorted := h.accepted_sorted
  dropped_sorted := h.dropped_sorted
  taken_le := h.taken_le
  room := h.room
  settled := ((count_places limit L t).append_right _).trans h.settled
  owners := h.owners.sublist (List.filter_sublist.map _)
  counted_le := by
    have hle := h.counted_le
    simp only [Ledger.record, List.length_append, List.length_take]
    omega
  ahead := fun hf d hd hu => h.ahead hf d (outstanding_of_count hd) hu
  late := fun hf d hd => (count_places limit L t).symm.subset (h.late hf d hd)

theorem check (h : Sound capacity limit L) {missed : Nat} (hmissed : missed = L.counted.length) :
    Sound capacity limit (L.record limit (.check missed)) where
  split := h.split
  value := h.value
  accepted_sorted := h.accepted_sorted
  dropped_sorted := h.dropped_sorted
  taken_le := h.taken_le
  room := h.room
  -- the counted drops are now the last of the announced ones
  settled := by
    refine List.Perm.trans ?_ h.settled
    rw [List.perm_iff_count]
    intro d
    simp only [Ledger.outstanding, Ledger.record, hmissed, List.drop_length, List.take_length, List.count_append,
      List.count_nil]
    omega
  owners := h.owners
  counted_le := by simp [Ledger.record, hmissed]
  -- what is outstanding at a check is what the check leaves unsettled
  ahead := by
    intro _ d hd hu
    simp only [Ledger.outstanding, Ledger.record, hmissed, List.drop_length, List.append_nil] at hd hu
    exact absurd hd hu
  late := by
    intro _ d hd
    exact List.mem_append_left _ (List.mem_append_left _ hd)

theorem take (h : Sound capacity limit L) {a : α} (ha : L.waiting.head?.map Prod.snd = some a) :
    Sound capacity limit (L.record limit (.take a)) where
  split := h.split
  value := h.value
  accepted_sorted := h.accepted_sorted
  dropped_sorted := h.dropped_sorted
  taken_le := by
    obtain ⟨x, hx, _⟩ := Option.map_eq_some_iff.mp ha
    have hpos := List.length_pos_of_mem (List.mem_of_mem_head? hx)
    simp only [Ledger.waiting, List.length_drop] at hpos
    simp only [Ledger.record]
    omega
  room := by
    have hroom := h.room
    simp only [Ledger.waiting, Ledger.record, List.length_drop] at hroom ⊢
    omega
  settled := h.settled
  owners := h.owners
  counted_le := h.counted_le
  ahead := by simp [Ledger.record]
  late := by simp [Ledger.record]

/-! ## What the consumer can rely on -/

omit [DecidableEq τ] in
/-- No drop is left out of the accounts. -/
theorem accounts (h : Sound capacity limit L) :
    L.announced.length + L.lost.length + L.counted.length + L.uncounted.length = L.dropped.length := by
  have hlength := h.settled.length_eq
  simp only [Ledger.outstanding, List.length_append, List.length_map] at hlength
  omega

omit [DecidableEq τ] in
/-- A drop is announced iff it is neither outstanding nor lost. -/
theorem announced_iff (h : Sound capacity limit L) {d : Nat} (hd : d ∈ L.dropped.map Prod.fst) :
    d ∈ L.announced ↔ d ∉ L.outstanding ++ L.lost := by
  have hnodup : (L.outstanding ++ L.lost ++ L.announced).Nodup :=
    h.settled.nodup_iff.mpr (h.dropped_sorted.imp fun hlt => Nat.ne_of_lt hlt)
  have hmem := h.settled.symm.subset hd
  rw [List.mem_append] at hmem
  constructor
  · intro ha ho
    exact (List.nodup_append.mp hnodup).2.2 d ho d ha rfl
  · intro ho
    exact hmem.resolve_left ho

omit [DecidableEq τ] in
/-- A drop that was uncounted at the check, or is lost, has not been announced. -/
theorem not_announced (h : Sound capacity limit L) (hf : L.fresh = true) {d : Nat} (hd : d ∈ L.unsettled ++ L.lost) :
    d ∈ L.dropped.map Prod.fst ∧ d ∉ L.announced := by
  have hout : d ∈ L.outstanding ++ L.lost := by
    rcases List.mem_append.mp hd with hd | hd
    · exact h.late hf d hd
    · exact List.mem_append_right _ hd
  have hdrop : d ∈ L.dropped.map Prod.fst := h.settled.subset (List.mem_append_left _ hout)
  exact ⟨hdrop, fun hannounced => (h.announced_iff hdrop).mp hannounced hout⟩

omit [DecidableEq τ] in
/-- An accepted position is no dropped one. -/
theorem accepted_ne_dropped (h : Sound capacity limit L) {x : Nat × α} (hx : x ∈ L.accepted) {d : Nat}
    (hd : d ∈ L.dropped.map Prod.fst) : x.1 ≠ d := by
  have hnodup : ((L.accepted ++ L.dropped).map Prod.fst).Nodup :=
    h.split.nodup_iff.mpr List.nodup_range
  rw [List.map_append] at hnodup
  exact (List.nodup_append.mp hnodup).2.2 x.1 (List.mem_map_of_mem hx) d hd

omit [DecidableEq τ] in
/-- **A gap is announced before it is crossed** exactly when no older drop was
still uncounted at the check before the take, or was lost. -/
theorem announced_before_iff (h : Sound capacity limit L) (hf : L.fresh = true) {x : Nat × α}
    (hx : L.waiting.head? = some x) :
    (∀ d ∈ L.dropped.map Prod.fst, d < x.1 → d ∈ L.announced) ↔ ∀ d ∈ L.unsettled ++ L.lost, x.1 < d := by
  have hacc : x ∈ L.accepted := List.mem_of_mem_drop (List.mem_of_mem_head? hx)
  constructor
  · intro hall d hd
    obtain ⟨hdrop, hnot⟩ := h.not_announced hf hd
    have hne := h.accepted_ne_dropped hacc hdrop
    by_contra hge
    have hlt : d < x.1 := by omega
    exact hnot (hall d hdrop hlt)
  · intro hall d hd hlt
    rw [h.announced_iff hd]
    intro hout
    by_cases hu : d ∈ L.unsettled ++ L.lost
    · have := hall d hu
      omega
    · simp only [List.mem_append, not_or] at hout hu
      obtain ⟨y, hy, hyd⟩ := h.ahead hf d (hout.resolve_right hu.2) hu.1
      rw [hx] at hy
      obtain rfl := Option.some.inj hy
      omega

omit [DecidableEq τ] in
/-- At the end of the queue every drop is announced exactly when none was
still uncounted at the last check and none was lost. -/
theorem drained_iff (h : Sound capacity limit L) (hf : L.fresh = true) (hempty : L.waiting = []) :
    (∀ d ∈ L.dropped.map Prod.fst, d ∈ L.announced) ↔ L.unsettled = [] ∧ L.lost = [] := by
  rw [← List.append_eq_nil_iff]
  constructor
  · intro hall
    rw [List.eq_nil_iff_forall_not_mem]
    intro d hd
    obtain ⟨hdrop, hnot⟩ := h.not_announced hf hd
    exact hnot (hall d hdrop)
  · intro hnil d hd
    obtain ⟨hunsettled, hlost⟩ := List.append_eq_nil_iff.mp hnil
    rw [h.announced_iff hd, hlost, List.append_nil]
    intro hout
    obtain ⟨x, hx, _⟩ := h.ahead hf d hout (by simp [hunsettled])
    simp [hempty] at hx

/-- A producer owes one addition for the drop it has not counted. -/
theorem owing_length (h : Sound capacity limit L) {t : τ} (ht : t ∈ L.uncounted.map Prod.fst) :
    (L.owing t).length = 1 := by
  have hcount := List.count_eq_one_of_mem h.owners ht
  rw [List.count, List.countP_map, List.countP_eq_length_filter] at hcount
  rw [Ledger.owing, List.length_map, ← hcount]
  congr 1

/-- Counting adds one, up to the limit. -/
theorem count_length (h : Sound capacity limit L) {t : τ} (ht : t ∈ L.uncounted.map Prod.fst) :
    (L.record limit (.count t)).counted.length = min (L.counted.length + 1) limit := by
  have hle := h.counted_le
  simp only [Ledger.record, List.length_append, List.length_take, h.owing_length ht]
  omega

end Sound

/-! ## The queue as a system -/

variable [DecidableEq α]

/-- A queue as a system of moves. -/
def lossyQueue (τ α : Type) [DecidableEq τ] [DecidableEq α] (capacity limit : Nat) :
    Lts (Ledger τ α) (Move τ α) where
  init := .empty
  step L m := if L.Allows capacity m then some (L.record limit m) else none

variable {L' : Ledger τ α} {m : Move τ α} {ms : List (Move τ α)}

theorem step_iff : (lossyQueue τ α capacity limit).step L m = some L' ↔
    L.Allows capacity m ∧ L.record limit m = L' := by
  simp [lossyQueue]

omit [DecidableEq α] in
theorem replay_snoc (limit : Nat) (L : Ledger τ α) (ms : List (Move τ α)) (m : Move τ α) :
    L.replay limit (ms ++ [m]) = (L.replay limit ms).record limit m := by
  rw [Ledger.replay, Ledger.replay, List.foldl_append]
  rfl

theorem run_replay (h : (lossyQueue τ α capacity limit).Run L ms L') : L' = L.replay limit ms := by
  refine Lts.Run.induct (P := fun ms L' => L' = L.replay limit ms) rfl ?_ h
  intro ms M m M' _ ih hstep
  rw [← (step_iff.mp hstep).2, ih, replay_snoc]

theorem Sound.step (hcap : 0 < capacity) (h : Sound capacity limit L)
    (hstep : (lossyQueue τ α capacity limit).step L m = some L') : Sound capacity limit L' := by
  obtain ⟨hallows, rfl⟩ := step_iff.mp hstep
  cases m with
  | accept a => exact h.accept a hallows
  | drop t a => exact h.drop hcap t a hallows.1 hallows.2
  | count t => exact h.count t
  | check missed => exact h.check hallows
  | take a => exact h.take hallows.2

theorem Sound.run (hcap : 0 < capacity) (h : (lossyQueue τ α capacity limit).Run .empty ms L) :
    Sound capacity limit L :=
  h.invariant (fun _ _ _ => Sound.step hcap) Sound.empty

/-! ## What the moves add up to -/

/-- What was taken and what is waiting is what was accepted, in order. -/
theorem taken_append_waiting (hcap : 0 < capacity) (h : (lossyQueue τ α capacity limit).Run .empty ms L) :
    ms.filterMap Move.taken? ++ L.waiting.map Prod.snd = ms.filterMap Move.accepted? := by
  refine Lts.Run.induct (P := fun ms L => ms.filterMap Move.taken? ++ L.waiting.map Prod.snd =
    ms.filterMap Move.accepted?) ?_ ?_ h
  · simp [Ledger.waiting, Ledger.empty]
  · intro ms L m L' hrun ih hstep
    have hsound := Sound.run hcap hrun
    obtain ⟨hallows, rfl⟩ := step_iff.mp hstep
    rw [List.filterMap_append, List.filterMap_append, ← ih]
    cases m with
    | accept a =>
      have hwaiting : (L.record limit (.accept a)).waiting = L.waiting ++ [(L.sent.length, a)] :=
        Sound.waiting_append L _ hsound.taken_le
      simp [hwaiting, List.filterMap_cons, Move.taken?, Move.accepted?]
    | take a =>
      obtain ⟨x, hx, rfl⟩ := Option.map_eq_some_iff.mp hallows.2
      have hwaiting : L.waiting = x :: (L.record limit (.take x.2)).waiting := by
        rw [Ledger.waiting, Ledger.record, Ledger.waiting, ← List.tail_drop]
        exact List.eq_cons_of_mem_head? hx
      simp [hwaiting, List.filterMap_cons, Move.taken?, Move.accepted?]
    | drop t a => simp [Ledger.waiting, Ledger.record, List.filterMap_cons, Move.taken?, Move.accepted?]
    | count t => simp [Ledger.waiting, Ledger.record, List.filterMap_cons, Move.taken?, Move.accepted?]
    | check missed => simp [Ledger.waiting, Ledger.record, List.filterMap_cons, Move.taken?, Move.accepted?]

theorem dropped_eq (h : (lossyQueue τ α capacity limit).Run .empty ms L) :
    L.dropped.map Prod.snd = ms.filterMap Move.dropped? := by
  refine Lts.Run.induct (P := fun ms L => L.dropped.map Prod.snd = ms.filterMap Move.dropped?) rfl ?_ h
  intro ms L m L' _ ih hstep
  obtain ⟨_, rfl⟩ := step_iff.mp hstep
  rw [List.filterMap_append, ← ih]
  cases m <;> simp [Ledger.record, List.filterMap_cons, Move.dropped?]

/-- What the consumer was told adds up to what was announced. -/
theorem missed_sum (h : (lossyQueue τ α capacity limit).Run .empty ms L) :
    (ms.map Move.missed).sum = L.announced.length := by
  refine Lts.Run.induct (P := fun ms L => (ms.map Move.missed).sum = L.announced.length) rfl ?_ h
  intro ms L m L' _ ih hstep
  obtain ⟨hallows, rfl⟩ := step_iff.mp hstep
  rw [List.map_append, List.sum_append, ih]
  cases m with
  | check missed =>
    obtain rfl : missed = L.counted.length := hallows
    simp [Move.missed, Ledger.record]
  | _ => simp [Move.missed, Ledger.record]

omit [DecidableEq α] in
/-- A drop is announced iff a check was told of it: it was among those that the
check found in the counter and was told the number of. -/
theorem mem_announced_iff (limit : Nat) (ms : List (Move τ α)) (d : Nat) :
    d ∈ (Ledger.empty.replay limit ms).announced ↔ ∃ pre missed post, ms = pre ++ .check missed :: post ∧
      d ∈ (Ledger.empty.replay limit pre).counted.take missed := by
  induction ms using List.reverseRecOn with
  | nil => simp [Ledger.replay, Ledger.empty]
  | append_singleton ms m ih =>
    have hstep : d ∈ ((Ledger.empty.replay limit ms).record limit m).announced ↔
        d ∈ (Ledger.empty.replay limit ms).announced ∨
          ∃ missed, m = .check missed ∧ d ∈ (Ledger.empty.replay limit ms).counted.take missed := by
      cases m <;> simp [Ledger.record]
    rw [replay_snoc, hstep, ih]
    constructor
    · intro h
      rcases h with ⟨pre, missed, post, rfl, hd⟩ | ⟨missed, rfl, hd⟩
      · exact ⟨pre, missed, post ++ [m], by simp, hd⟩
      · exact ⟨ms, missed, [], rfl, hd⟩
    · intro h
      obtain ⟨pre, missed, post, heq, hd⟩ := h
      -- the check is the last move, or one before it
      rcases List.eq_nil_or_concat post with rfl | ⟨post', m', rfl⟩
      · obtain ⟨rfl, hm⟩ := List.append_inj' heq rfl
        exact .inr ⟨missed, by simpa using hm, hd⟩
      · rw [List.concat_eq_append, ← List.cons_append, ← List.append_assoc] at heq
        obtain ⟨rfl, _⟩ := List.append_inj' heq rfl
        exact .inl ⟨pre, missed, post', rfl, hd⟩

/-- As long as no more was dropped than the counter can hold, nothing is lost. -/
theorem lost_eq_nil (hcap : 0 < capacity) (h : (lossyQueue τ α capacity limit).Run .empty ms L)
    (hlimit : L.dropped.length ≤ limit) : L.lost = [] := by
  refine Lts.Run.induct (P := fun ms L => L.dropped.length ≤ limit → L.lost = []) (fun _ => rfl) ?_ h hlimit
  intro ms L m L' hrun ih hstep hlimit
  have hsound := Sound.run hcap hrun
  obtain ⟨hallows, rfl⟩ := step_iff.mp hstep
  cases m with
  | count t =>
    -- the drop that is added now is one more than those in the counter
    have haccounts := hsound.accounts
    have huncounted : 0 < L.uncounted.length := by
      rw [← List.length_map (f := Prod.fst)]
      exact List.length_pos_of_mem hallows
    simp only [Ledger.record] at hlimit
    simp only [Ledger.record, ih hlimit, List.nil_append, List.drop_eq_nil_iff, hsound.owing_length hallows]
    omega
  | drop t a =>
    simp only [Ledger.record, List.length_append, List.length_singleton] at hlimit
    exact ih (by omega)
  | _ => exact ih hlimit

/-- An uncounted drop was made by its owner. -/
theorem drop_of_uncounted (h : (lossyQueue τ α capacity limit).Run .empty ms L) {t : τ}
    (ht : t ∈ L.uncounted.map Prod.fst) : ∃ a, Move.drop t a ∈ ms := by
  refine Lts.Run.induct (P := fun ms L => t ∈ L.uncounted.map Prod.fst → ∃ a, Move.drop t a ∈ ms)
    (by simp [Ledger.empty]) ?_ h ht
  intro ms L m L' _ ih hstep ht
  obtain ⟨_, rfl⟩ := step_iff.mp hstep
  have hold : t ∈ L.uncounted.map Prod.fst → ∃ a, Move.drop t a ∈ ms ++ [m] := fun hu =>
    (ih hu).imp fun _ ha => List.mem_append_left _ ha
  cases m with
  | drop t' a =>
    simp only [Ledger.record, List.map_append, List.mem_append, List.map_cons, List.map_nil,
      List.mem_singleton] at ht
    rcases ht with ht | rfl
    · exact hold ht
    · exact ⟨a, by simp⟩
  | count t' => exact hold ((List.filter_sublist.map Prod.fst).subset ht)
  | _ => exact hold ht

/-- A producer has counted all its drops but the one it may still have to. -/
theorem count_droppers (hcap : 0 < capacity) (h : (lossyQueue τ α capacity limit).Run .empty ms L) (t : τ) :
    (ms.filterMap Move.dropper?).count t =
      (ms.filterMap Move.counter?).count t + (L.uncounted.map Prod.fst).count t := by
  refine Lts.Run.induct (P := fun ms L => (ms.filterMap Move.dropper?).count t =
    (ms.filterMap Move.counter?).count t + (L.uncounted.map Prod.fst).count t) rfl ?_ h
  intro ms L m L' hrun ih hstep
  have hsound := Sound.run hcap hrun
  obtain ⟨hallows, rfl⟩ := step_iff.mp hstep
  rw [List.filterMap_append, List.filterMap_append, List.count_append, List.count_append, ih]
  cases m with
  | drop t' a =>
    simp only [List.filterMap_cons, List.filterMap_nil, Move.dropper?, Move.counter?, Ledger.record, List.map_append,
      List.map_cons, List.map_nil, List.count_append, List.count_nil]
    omega
  | count t' =>
    simp only [List.filterMap_cons, List.filterMap_nil, Move.dropper?, Move.counter?, Ledger.record, List.count_nil]
    -- its owner has exactly one uncounted drop, anyone else as many as before
    by_cases ht : t' = t
    · subst ht
      have hgone : ((L.uncounted.filter fun x => x.1 ≠ t').map Prod.fst).count t' = 0 := by
        rw [List.count_eq_zero]
        simp
      rw [hgone, List.count_eq_one_of_mem hsound.owners hallows]
      simp
    · have hkept : ((L.uncounted.filter fun x => x.1 ≠ t').map Prod.fst).count t =
          (L.uncounted.map Prod.fst).count t := by
        simp only [List.count_eq_countP, List.countP_map, List.countP_filter]
        apply List.countP_congr
        intro x _
        simp only [Function.comp, beq_iff_eq, Bool.and_eq_true, decide_eq_true_eq, and_iff_left_iff_imp]
        intro heq
        subst heq
        exact Ne.symm ht
      rw [hkept]
      simp [ht]
  | accept a => simp [Move.dropper?, Move.counter?, Ledger.record, List.filterMap_cons]
  | check missed => simp [Move.dropper?, Move.counter?, Ledger.record, List.filterMap_cons]
  | take a => simp [Move.dropper?, Move.counter?, Ledger.record, List.filterMap_cons]

end LossyQueue
