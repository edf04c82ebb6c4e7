import Mathlib.Data.List.Forall2
import OrbitRelay.Storage.Replay

/-
  Replay by windows of time (orbitrelay-storage: query.rs, memory.rs).

  A time range is half-open, so ranges that meet share no event and leave none
  out. A replay can then be split among readers, one for each window, who page
  at their own pace while the log grows: together they read what one reader of
  the whole range would, and nothing twice.

  Correspondence (Rust ↔ Lean):
    `EventQuery::with_time_range`  ↔ `EventQuery.withTimeRange`
    the readers                    ↔ `ReadBy`, one `Replay` for each query
-/

namespace OrbitRelay

/-- Restricts occurrence time to the half-open interval from `fr` until `til`. -/
def EventQuery.withTimeRange (q : EventQuery) (fr til : Timestamp) : EventQuery :=
  { q with occurredFrom := some fr, occurredUntil := some til }

/-- The query over each of the windows between successive times. -/
def EventQuery.windows (q : EventQuery) : List Timestamp → List EventQuery
  | fr :: til :: cuts => q.withTimeRange fr til :: q.windows (til :: cuts)
  | _ => []

namespace EventQuery

variable {q : EventQuery} {fr til : Timestamp} {cuts : List Timestamp} {event : Event}

/-- The conditions of a query other than those on time. -/
def untimed (q : EventQuery) : EventQuery := { q with occurredFrom := none, occurredUntil := none }

theorem matches_withTimeRange : (q.withTimeRange fr til).matches event = true ↔
    q.untimed.matches event = true ∧ fr ≤ event.occurredAt ∧ event.occurredAt < til := by
  have hsplit : (q.withTimeRange fr til).matches event =
      (q.untimed.matches event && decide (fr ≤ event.occurredAt) && decide (event.occurredAt < til)) := by
    show _ = (_ && true && true && _ && _)
    rw [Bool.and_true, Bool.and_true]
    rfl
  rw [hsplit, Bool.and_eq_true, Bool.and_eq_true, decide_eq_true_eq, decide_eq_true_eq, and_assoc]

/-- Every window is valid exactly if the times increase. -/
theorem windows_valid (htypes : ∀ t ∈ q.eventTypes, Text.trim t.value ≠ []) :
    ∀ cuts : List Timestamp, (∀ w ∈ q.windows cuts, w.FilterValid) ↔ cuts.IsChain (· < ·)
  | [] => by simp [windows]
  | [_] => by simp [windows]
  | fr :: til :: cuts => by
    have hhead : (q.withTimeRange fr til).FilterValid ↔ fr < til := by
      show (∀ t ∈ q.eventTypes, Text.trim t.value ≠ []) ∧ decide (til ≤ fr) = false ↔ fr < til
      have hlt : fr < til ↔ ¬til ≤ fr := Int.not_le.symm
      rw [hlt, decide_eq_false_iff_not]
      exact and_iff_right htypes
    rw [windows, List.forall_mem_cons, hhead, windows_valid htypes (til :: cuts), List.isChain_cons_cons]

/-- The last of some times, the first of which is there. -/
def untilLast (fr : Timestamp) : List Timestamp → Timestamp
  | [] => fr
  | til :: cuts => untilLast til cuts

theorem le_untilLast : ∀ (cuts : List Timestamp) (fr : Timestamp), (fr :: cuts).IsChain (· < ·) →
    fr ≤ untilLast fr cuts
  | [], fr, _ => Int.le_refl fr.nanos
  | til :: cuts, fr, h => by
    obtain ⟨hlt, hrest⟩ := List.isChain_cons_cons.mp h
    apply Int.le_trans (Int.le_of_lt hlt)
    exact le_untilLast cuts til hrest

/-- The windows together are the whole range. -/
theorem matches_windows : ∀ (cuts : List Timestamp) (fr : Timestamp), (fr :: cuts).IsChain (· < ·) →
    ((∃ w ∈ q.windows (fr :: cuts), w.matches event = true) ↔
      (q.withTimeRange fr (untilLast fr cuts)).matches event = true)
  | [], fr, _ => by
    rw [matches_withTimeRange]
    constructor
    · intro h
      obtain ⟨w, hw, _⟩ := h
      simp [windows] at hw
    · intro h
      obtain ⟨_, hfrom, huntil⟩ := h
      exact absurd hfrom (Int.not_le.mpr huntil)
  | til :: cuts, fr, h => by
    obtain ⟨hlt, hrest⟩ := List.isChain_cons_cons.mp h
    have hlast : til ≤ untilLast til cuts := le_untilLast cuts til hrest
    have ih := matches_windows cuts til hrest
    simp only [windows, List.mem_cons, exists_eq_or_imp]
    rw [ih, matches_withTimeRange, matches_withTimeRange, matches_withTimeRange, ← and_or_left]
    apply and_congr_right
    intro _
    show (fr.nanos ≤ event.occurredAt.nanos ∧ event.occurredAt.nanos < til.nanos) ∨
        (til.nanos ≤ event.occurredAt.nanos ∧ event.occurredAt.nanos < (untilLast til cuts).nanos) ↔
      fr.nanos ≤ event.occurredAt.nanos ∧ event.occurredAt.nanos < (untilLast til cuts).nanos
    have hlt' : fr.nanos < til.nanos := hlt
    have hlast' : til.nanos ≤ (untilLast til cuts).nanos := hlast
    omega

/-- No event is in two windows. -/
theorem windows_disjoint : ∀ (cuts : List Timestamp) (fr : Timestamp), (fr :: cuts).IsChain (· < ·) →
    (q.windows (fr :: cuts)).Pairwise fun w w' => ∀ event, w.matches event = true → w'.matches event = false
  | [], _, _ => List.Pairwise.nil
  | til :: cuts, fr, h => by
    obtain ⟨_, hrest⟩ := List.isChain_cons_cons.mp h
    rw [windows, List.pairwise_cons]
    refine ⟨?_, windows_disjoint cuts til hrest⟩
    intro w hw event hfirst
    obtain ⟨_, _, hbefore⟩ := matches_withTimeRange.mp hfirst
    apply Bool.eq_false_iff.mpr
    intro hlater
    -- what a later window has is not before its start
    obtain ⟨_, hafter, _⟩ := matches_withTimeRange.mp ((matches_windows cuts til hrest).mp ⟨w, hw, hlater⟩)
    exact absurd hafter (Int.not_le.mpr hbefore)

end EventQuery

namespace MemoryEventStore

open EventQuery (untilLast)

variable {storeId : EntityId} {σ₀ τ : State} {queries : List EventQuery} {pages : List (List EventPage)}

/-- A reader has paged the query to its end, some time before the state `τ`. -/
def ReadBy (storeId : EntityId) (σ₀ τ : State) (q : EventQuery) (pages : List EventPage) : Prop :=
  ∃ σ tr, Replay storeId q none σ₀ pages σ none ∧ (memoryEventStore storeId).Run σ tr τ

/-- What a reader has: what was there when it began, of what is there now, and
nothing twice. -/
theorem ReadBy.records {q : EventQuery} {ps : List EventPage} (h : ReadBy storeId σ₀ τ q ps) (hq : q.FilterValid) :
    (records ps).Nodup ∧ (∀ r ∈ σ₀.records, q.matches r.event = true → r ∈ records ps) ∧
      ∀ r ∈ records ps, r ∈ τ.records ∧ q.matches r.event = true := by
  obtain ⟨σ, tr, hreplay, hrun⟩ := h
  have hall := hreplay.complete hq σ₀.startsAt_none
  rw [List.drop_zero] at hall
  rw [hall]
  refine ⟨σ.nodup.filter _, ?_, ?_⟩
  · intro r hr hmatches
    exact List.mem_filter.mpr ⟨hreplay.extends.2.subset hr, hmatches⟩
  · intro r hr
    obtain ⟨hmem, hmatches⟩ := List.mem_filter.mp hr
    exact ⟨(run_extends hrun).2.subset hmem, hmatches⟩

/-- What readers have together, query by query. -/
theorem mem_of_readers (hvalid : ∀ q ∈ queries, q.FilterValid)
    (h : List.Forall₂ (ReadBy storeId σ₀ τ) queries pages) {r : StoredEvent} :
    (r ∈ pages.flatMap records → r ∈ τ.records ∧ ∃ q ∈ queries, q.matches r.event = true) ∧
      (r ∈ σ₀.records → (∃ q ∈ queries, q.matches r.event = true) → r ∈ pages.flatMap records) := by
  induction h with
  | nil => simp
  | @cons q ps queries pages hread _ ih =>
    obtain ⟨hq, hqs⟩ := List.forall_mem_cons.mp hvalid
    obtain ⟨_, hhad, hmine⟩ := hread.records hq
    obtain ⟨hothers, hothersHad⟩ := ih hqs
    rw [List.flatMap_cons, List.mem_append]
    constructor
    · intro hmem
      rcases hmem with hmem | hmem
      · obtain ⟨hr, hmatches⟩ := hmine r hmem
        exact ⟨hr, q, List.mem_cons_self, hmatches⟩
      · obtain ⟨hr, q', hq', hmatches⟩ := hothers hmem
        exact ⟨hr, q', List.mem_cons_of_mem q hq', hmatches⟩
    · intro hr hsome
      obtain ⟨q', hq', hmatches⟩ := hsome
      rcases List.mem_cons.mp hq' with rfl | hq'
      · exact .inl (hhad r hr hmatches)
      · exact .inr (hothersHad hr ⟨q', hq', hmatches⟩)

/-- Readers of queries that share no event read none twice. -/
theorem nodup_of_disjoint
    (hdisjoint : queries.Pairwise fun q q' => ∀ event, q.matches event = true → q'.matches event = false)
    (hvalid : ∀ q ∈ queries, q.FilterValid) (h : List.Forall₂ (ReadBy storeId σ₀ τ) queries pages) :
    (pages.flatMap records).Nodup := by
  induction h with
  | nil => exact List.nodup_nil
  | @cons q ps queries pages hread hreads ih =>
    obtain ⟨hfirst, hrest⟩ := List.pairwise_cons.mp hdisjoint
    obtain ⟨hq, hqs⟩ := List.forall_mem_cons.mp hvalid
    obtain ⟨hnodup, _, hmine⟩ := hread.records hq
    rw [List.flatMap_cons]
    apply List.nodup_append.mpr
    refine ⟨hnodup, ih hrest hqs, ?_⟩
    intro r hr r' hr' heq
    subst heq
    obtain ⟨_, q', hq', hother⟩ := (mem_of_readers hqs hreads).1 hr'
    have hnone := hfirst q' hq' r.event (hmine r hr).2
    simp [hother] at hnone

/-- **A replay split by time.** Let the times `fr`, .. increase. Then every
window between two of them is a valid query, and readers who page one window
each to its end, side by side and while the log grows, together have nothing
twice, all that was in the whole range when they began, and nothing that is not
in it. If the log did not grow they have just what one reader of the whole
range has. -/
theorem replay_split_by_windows (storeId : EntityId) (q : EventQuery) (fr : Timestamp) (cuts : List Timestamp)
    (htypes : ∀ t ∈ q.eventTypes, Text.trim t.value ≠ []) (hcuts : (fr :: cuts).IsChain (· < ·)) (σ₀ τ : State)
    (pages : List (List EventPage)) (h : List.Forall₂ (ReadBy storeId σ₀ τ) (q.windows (fr :: cuts)) pages) :
    let whole := q.withTimeRange fr (untilLast fr cuts)
    (∀ w ∈ q.windows (fr :: cuts), w.FilterValid) ∧
    (pages.flatMap records).Nodup ∧
    (∀ r ∈ σ₀.records, whole.matches r.event = true → r ∈ pages.flatMap records) ∧
    (∀ r ∈ pages.flatMap records, r ∈ τ.records ∧ whole.matches r.event = true) ∧
    (τ.records = σ₀.records → (pages.flatMap records).Perm (τ.records.filter fun r => whole.matches r.event)) := by
  intro whole
  have hvalid := (EventQuery.windows_valid htypes (fr :: cuts)).mpr hcuts
  have hnodup := nodup_of_disjoint (EventQuery.windows_disjoint cuts fr hcuts) hvalid h
  have hhad : ∀ r ∈ σ₀.records, whole.matches r.event = true → r ∈ pages.flatMap records := by
    intro r hr hmatches
    apply (mem_of_readers hvalid h).2 hr
    exact (EventQuery.matches_windows cuts fr hcuts).mpr hmatches
  have hmine : ∀ r ∈ pages.flatMap records, r ∈ τ.records ∧ whole.matches r.event = true := by
    intro r hr
    obtain ⟨hmem, hsome⟩ := (mem_of_readers hvalid h).1 hr
    exact ⟨hmem, (EventQuery.matches_windows cuts fr hcuts).mp hsome⟩
  refine ⟨hvalid, hnodup, hhad, hmine, ?_⟩
  intro hsame
  apply (List.perm_ext_iff_of_nodup hnodup (τ.nodup.filter _)).mpr
  intro r
  rw [List.mem_filter]
  constructor
  · exact hmine r
  · intro hr
    exact hhad r (hsame ▸ hr.1) hr.2

/-- Two events, five nanoseconds apart, appended latest first. -/
def apart : List Label :=
  let before := Event.plain ⟨"before", by decide⟩ ⟨"drawn"⟩
  let after := { Event.plain ⟨"after", by decide⟩ ⟨"drawn"⟩ with occurredAt := ⟨5, by decide⟩ }
  [.append after (.ok ⟨.forMemory default 1, after⟩), .append before (.ok ⟨.forMemory default 2, before⟩)]

theorem replay_split_by_windows_apart : ∃ pages : List (List EventPage), pages.length = 2 ∧
    (pages.flatMap records).Perm (((memoryEventStore default).after apart (by decide)).records.filter
      fun r => (EventQuery.all.withTimeRange .epoch ⟨9, by decide⟩).matches r.event) := by
  obtain ⟨page₁, hpage₁, hnext₁⟩ : ∃ page, ((memoryEventStore default).after apart (by decide)).query
      ((EventQuery.all.withTimeRange .epoch ⟨3, by decide⟩).page none 1) = .ok page ∧ page.nextCursor = none :=
    ⟨_, rfl, rfl⟩
  obtain ⟨page₂, hpage₂, hnext₂⟩ : ∃ page, ((memoryEventStore default).after apart (by decide)).query
      ((EventQuery.all.withTimeRange ⟨3, by decide⟩ ⟨9, by decide⟩).page none 1) = .ok page ∧
        page.nextCursor = none :=
    ⟨_, rfl, rfl⟩
  have hfirst := Replay.first (Lts.Run.nil (memoryEventStore default) _) (by decide) hpage₁
  have hsecond := Replay.first (Lts.Run.nil (memoryEventStore default) _) (by decide) hpage₂
  rw [hnext₁] at hfirst
  rw [hnext₂] at hsecond
  refine ⟨[[page₁], [page₂]], rfl, (replay_split_by_windows default .all .epoch [⟨3, by decide⟩, ⟨9, by decide⟩]
    (by decide) (by decide) _ _ _ ?_).2.2.2.2 rfl⟩
  exact .cons ⟨_, [], hfirst, Lts.Run.nil _ _⟩ (.cons ⟨_, [], hsecond, Lts.Run.nil _ _⟩ .nil)

end MemoryEventStore

end OrbitRelay
