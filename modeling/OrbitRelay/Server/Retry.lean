import OrbitRelay.Server.Fresh

/-
  Retrying a failed dispatch.

  An attempt that fails has stored a beginning of its batch and published
  nothing. The next one finds that beginning stored, each event with the content
  it has, and goes on from there; whatever other calls store in between is under
  other ids. So among the events of the batch the store holds, at any time, the
  first writers of the longest beginning that an attempt has reached, and what
  is sent of them is what the one successful attempt sends.
-/

namespace OrbitRelay.PipelineAdapter

open KeyedLog (firsts firsts_snoc exists_firsts_iff)
open MemoryEventBus (tries)

variable {storeId : EntityId} {queueCapacity : Nat} {σ σ' : State} {l : Label} {tr before later : List Label}
  {d : TaskId} {s : SubscriptionId} {f : EventFilter} {batch pre : List Event} {m : MemorySubscription}

/-- Some id is in both batches. -/
def Shares (events batch : List Event) : Prop := ∃ e ∈ events, ∃ b ∈ batch, e.id = b.id

instance (events batch : List Event) : Decidable (Shares events batch) :=
  inferInstanceAs (Decidable (∃ e ∈ events, ∃ b ∈ batch, e.id = b.id))

/-- The batch has been dispatched until call `d` succeeded: every other call with
one of its ids is an attempt too, and has failed. -/
structure Retried (σ : State) (batch : List Event) (d : TaskId) : Prop where
  consistent : ∀ a ∈ batch, ∀ b ∈ batch, a.id = b.id → a = b
  succeeded : σ.dispatches.lookup d = some ⟨batch, .returned (.ok ())⟩
  attempts : ∀ {d' call}, σ.dispatches.lookup d' = some call → d' ≠ d → Shares call.events batch →
    call.events = batch ∧ Failed σ d'

/-- A beginning that one more element leaves within the whole is no further
than another, or was as far. -/
theorem prefix_snoc {α : Type} {xs ys zs : List α} {a : α} (hys : ys <+: zs) (hxs : xs <+: ys)
    (hsnoc : xs ++ [a] <+: zs) : xs ++ [a] <+: ys ∨ ys = xs := by
  rcases List.prefix_or_prefix_of_prefix hsnoc hys with h | h
  · exact .inl h
  · rcases List.prefix_concat_iff.mp h with rfl | h
    · exact .inl (List.prefix_refl _)
    · exact .inr (h.eq_of_length_le hxs.length_le)

/-- A call that was dispatched keeps its batch. -/
theorem call_of_dispatch (h : (pipeline storeId queueCapacity).Run (State.new storeId queueCapacity) tr σ)
    {events : List Event} (hd : .dispatch d events ∈ tr) :
    ∃ call, σ.dispatches.lookup d = some call ∧ call.events = events := by
  refine h.since (I := fun σ => ∃ call, σ.dispatches.lookup d = some call ∧ call.events = events) ?_ ?_ hd
  · intro τ l υ hτ hstep
    obtain ⟨call, hcall, hevents⟩ := hτ
    have hset : ∀ {d₀ call₀ stage}, τ.dispatches.lookup d₀ = some call₀ →
        ∃ call, (τ.dispatches.insert d₀ { call₀ with stage }).lookup d = some call ∧ call.events = events := by
      intro d₀ call₀ stage running
      by_cases hd : d = d₀
      · subst hd
        obtain rfl := Option.some.inj (hcall.symm.trans running)
        exact ⟨_, AList.lookup_insert _, hevents⟩
      · exact ⟨call, (AList.lookup_insert_ne hd).trans hcall, hevents⟩
    cases step_effect hstep with
    | dispatch d₀ batch fresh =>
      have hd : d ≠ d₀ := by
        intro heq
        subst heq
        simp [fresh] at hcall
      exact ⟨call, (AList.lookup_insert_ne hd).trans hcall, hevents⟩
    | appended d₀ event rest call₀ r running => exact hset running
    | refused d₀ event rest call₀ error running => exact hset running
    | appendFailed d₀ event rest call₀ error running => exact hset running
    | persisted d₀ call₀ running => exact hset running
    | publish d₀ event rest call₀ bus running => exact hset running
    | published d₀ event rest call₀ running => exact hset running
    | returned d₀ call₀ running => exact hset running
    | _ => exact ⟨call, hcall, hevents⟩
  · intro τ υ (hstep : τ.step (.dispatch d events) = some υ)
    cases step_effect hstep with
    | dispatch d events fresh => exact ⟨_, AList.lookup_insert _, rfl⟩

/-- Before its dispatch a call has begun to publish nothing. -/
theorem begun_of_later
    (h : (pipeline storeId queueCapacity).Run (State.new storeId queueCapacity) (before ++ l :: later) σ)
    {events : List Event} (hd : .dispatch d events ∈ later) : begun d before = [] := by
  obtain ⟨early, late, rfl⟩ := List.append_of_mem hd
  rw [← List.cons_append, ← List.append_assoc] at h
  obtain ⟨τ, υ, hτ, hstep, _⟩ := run_split.mp h
  cases step_effect hstep with
  | dispatch d events fresh =>
    have hnone := ((Invariant.run hτ).uncalled fresh).2
    rw [begun_append] at hnone
    exact (List.append_eq_nil_iff.mp hnone).1

/-! ## The store -/

/-- The attempts have come as far as `pre`: so far the store has the batch, and
no attempt is further. -/
structure Reached (batch : List Event) (tr : List Label) (σ : State) (pre : List Event) : Prop where
  initial : pre <+: batch
  stored : (σ.store.events.filter fun e => e ∈ batch) = firsts Event.id pre
  attempts : ∀ {d call}, σ.dispatches.lookup d = some call → call.events = batch → appended d tr <+: pre

/-- A step that appends nothing. -/
theorem Reached.idle (h : Reached batch tr σ pre) (hinv : Invariant tr σ) (hstep : σ.step l = some σ')
    (hstore : σ'.store = σ.store) (hnone : ∀ d, appended d [l] = []) : Reached batch (tr ++ [l]) σ' pre where
  initial := h.initial
  stored := by rw [hstore, h.stored]
  attempts := by
    intro d call hcall hevents
    rw [appended_append, hnone, List.append_nil]
    rcases step_call hstep hcall with ⟨call₀, hcall₀, heq⟩ | rfl
    · exact h.attempts hcall₀ (heq ▸ hevents)
    · cases step_effect hstep with
      | dispatch d events fresh =>
        rw [(hinv.uncalled fresh).1]
        exact List.nil_prefix

/-- The next event of an attempt is stored, by it or before. -/
theorem Reached.append (h : Reached batch tr σ pre) {event : Event} {r : StoredEvent}
    (hprogress : appended d tr ++ [event] <+: batch) (hdone : appended d tr <+: pre)
    (answer : (σ.store.append event).1 = .ok r) : ∃ pre', pre <+: pre' ∧ pre' <+: batch ∧
      appended d tr ++ [event] <+: pre' ∧
      ((σ.store.append event).2.events.filter fun e => e ∈ batch) = firsts Event.id pre' := by
  have hbatch : event ∈ batch := hprogress.subset (by simp)
  have hstored : ∀ {e}, e ∈ firsts Event.id pre ↔ e ∈ σ.store.events ∧ e ∈ batch := by
    intro e
    rw [← h.stored, List.mem_filter, decide_eq_true_iff]
  have hmem := MemoryEventStore.State.append_ok_events answer
  rcases prefix_snoc h.initial hdone hprogress with hpast | rfl
  · -- an attempt has been here before
    refine ⟨pre, List.prefix_refl _, h.initial, hpast, ?_⟩
    have hin : ∃ e ∈ firsts Event.id pre, e.id = event.id :=
      (exists_firsts_iff Event.id).mpr ⟨event, hpast.subset (by simp), rfl⟩
    rcases hmem with ⟨_, hsame⟩ | ⟨hfresh, _⟩
    · rw [hsame, h.stored]
    · obtain ⟨e, he, hid⟩ := hin
      exact absurd hid (hfresh e (hstored.mp he).1)
  · refine ⟨appended d tr ++ [event], List.prefix_append _ _, hprogress, List.prefix_refl _, ?_⟩
    rw [firsts_snoc]
    rcases hmem with ⟨hold, hsame⟩ | ⟨hfresh, hevents⟩
    · rw [if_pos ⟨event, hstored.mpr ⟨hold, hbatch⟩, rfl⟩, hsame, h.stored]
    · have hnew : ¬∃ e ∈ firsts Event.id (appended d tr), e.id = event.id := by
        intro hin
        obtain ⟨e, he, hid⟩ := hin
        exact hfresh e (hstored.mp he).1 hid
      rw [if_neg hnew, hevents, List.filter_append, h.stored]
      simp [hbatch]

theorem Reached.step (h : Reached batch tr σ pre) (hinv : Invariant tr σ)
    (hsole : ∀ {d call}, σ.dispatches.lookup d = some call → Shares call.events batch → call.events = batch)
    (hstep : σ.step l = some σ') : ∃ pre', Reached batch (tr ++ [l]) σ' pre' := by
  cases step_effect hstep with
  | appended d event rest call r running stage answer =>
    have hprogress := hinv.call running
    rw [stage] at hprogress
    have happended : ∀ d', appended d' [.append d event (.ok r)] = if d = d' then [event] else [] := by
      intro d'
      by_cases hd : d = d' <;> simp [appended, hd]
    by_cases hbatch : call.events = batch
    · have hsnoc : appended d tr ++ [event] <+: batch := by
        rw [← hbatch, hprogress.1]
        exact ⟨rest, by simp⟩
      obtain ⟨pre', hgrow, hinit, hmine, hfilter⟩ := h.append hsnoc (h.attempts running hbatch) answer
      refine ⟨pre', hinit, hfilter, ?_⟩
      intro d' call' hcall' hevents
      rw [appended_append, happended]
      split
      · next hd => exact hd ▸ hmine
      · next hd =>
        rw [lookup_setStage_ne (Ne.symm hd)] at hcall'
        rw [List.append_nil]
        exact (h.attempts hcall' hevents).trans hgrow
    · -- a call of another batch: the event is not one of these
      have hother : event ∉ batch := by
        intro he
        have hmem : event ∈ call.events := by simp [hprogress.1]
        exact hbatch (hsole running ⟨event, hmem, event, he, rfl⟩)
      refine ⟨pre, h.initial, ?_, ?_⟩
      · rcases MemoryEventStore.State.append_ok_events answer with ⟨_, hsame⟩ | ⟨_, hevents⟩
        · simp only [setStage_store, hsame, h.stored]
        · simp [setStage_store, hevents, List.filter_append, hother, h.stored]
      · intro d' call' hcall' hevents
        have hd : d ≠ d' := by
          intro heq
          subst heq
          rw [lookup_setStage] at hcall'
          obtain rfl := Option.some.inj hcall'
          exact hbatch hevents
        rw [lookup_setStage_ne (Ne.symm hd)] at hcall'
        rw [appended_append, happended, if_neg hd, List.append_nil]
        exact h.attempts hcall' hevents
  | refused d event rest call error running stage answer =>
    exact ⟨pre, h.idle hinv hstep (MemoryEventStore.State.append_of_error answer) (fun _ => by simp [appended])⟩
  | _ => exact ⟨pre, h.idle hinv hstep rfl (fun _ => rfl)⟩

/-- At any time the store has the batch as far as an attempt has come. -/
theorem reached_run (h : (pipeline storeId queueCapacity).Run (State.new storeId queueCapacity) tr σ)
    (hsole : ∀ {d events}, .dispatch d events ∈ tr → Shares events batch → events = batch) :
    ∃ pre, Reached batch tr σ pre := by
  refine Lts.Run.induct (P := fun tr σ => (∀ {d events}, .dispatch d events ∈ tr → Shares events batch →
    events = batch) → ∃ pre, Reached batch tr σ pre) ?_ ?_ h hsole
  · intro _
    exact ⟨[], List.nil_prefix, rfl, by simp [State.new]⟩
  · intro tr τ l υ hrun ih hstep hsole
    obtain ⟨pre, hpre⟩ := ih fun hd hshares => hsole (List.mem_append_left _ hd) hshares
    exact hpre.step (Invariant.run hrun)
      (fun hcall hshares => hsole (List.mem_append_left _ (dispatch_of_call hrun hcall)) hshares) hstep

/-! ## The attempts together -/

namespace Retried

/-- An attempt has this batch. -/
theorem events_eq (h : Retried σ batch d) {d' : TaskId} {call : Dispatch} (hcall : σ.dispatches.lookup d' = some call)
    (hshares : Shares call.events batch) : call.events = batch := by
  by_cases hd : d' = d
  · subst hd
    obtain rfl := Option.some.inj (h.succeeded.symm.trans hcall)
    rfl
  · exact (h.attempts hcall hd hshares).1

theorem stored (h : Retried σ batch d)
    (hrun : (pipeline storeId queueCapacity).Run (State.new storeId queueCapacity) tr σ) :
    (σ.store.events.filter fun e => e ∈ batch) = firsts Event.id batch := by
  have hsole : ∀ {d' events}, .dispatch d' events ∈ tr → Shares events batch → events = batch := by
    intro d' events hdispatch hshares
    obtain ⟨call, hcall, rfl⟩ := call_of_dispatch hrun hdispatch
    exact h.events_eq hcall hshares
  obtain ⟨pre, hpre⟩ := reached_run hrun hsole
  have hprogress : appended d tr = batch ∧ begun d tr = batch := (Invariant.run hrun).call h.succeeded
  have hall : batch <+: pre := by
    rw [← hprogress.1]
    exact hpre.attempts h.succeeded rfl
  rw [hpre.stored, hpre.initial.eq_of_length_le hall.length_le]

/-- What is sent of the batch is sent by the attempt that succeeded. -/
theorem task_of_send (h : Retried σ batch d)
    (hrun : (pipeline storeId queueCapacity).Run (State.new storeId queueCapacity) tr σ) {d' : TaskId} {event : Event}
    {result : TrySend} (hsend : .bus (.send d' s event result) ∈ tr) : event ∈ batch ↔ d' = d := by
  obtain ⟨call, hcall, he⟩ := call_of_send hrun hsend
  constructor
  · intro hbatch
    by_contra hd
    have hfailed := (h.attempts hcall hd ⟨event, he, event, hbatch, rfl⟩).2
    have hbegun := begun_of_send hrun hsend
    rw [begun_of_failed hrun hfailed] at hbegun
    simp at hbegun
  · intro hd
    subst hd
    obtain rfl := Option.some.inj (h.succeeded.symm.trans hcall)
    exact he

end Retried

/-- **Retrying a failed dispatch is safe.** A batch whose ids are its own is
dispatched until a call returns Ok, with any number of failures anywhere before
and anything of other batches in between. In the end the store holds each event
of it once, in the order in which they first occur, and a subscription that was
there before the last attempt and is still open was sent each matching position
of the batch exactly once. -/
theorem retried_dispatch
    (h : (pipeline storeId queueCapacity).Run (State.new storeId queueCapacity) tr σ) (hretried : Retried σ batch d) :
    (σ.store.events.filter fun e => e ∈ batch) = firsts Event.id batch ∧
    (∀ e ∈ batch, σ.store.events.count e = 1) ∧
    ∀ before s f later m, tr = before ++ .bus (.subscribe s f) :: later → .dispatch d batch ∈ later →
      σ.bus.subscriptions.lookup s = some m → m.IsOpen →
      ((tries s (busTrace tr)).filter fun x => x.1 ∈ batch).map Prod.fst = batch.filter f.matches := by
  have hstored := hretried.stored h
  refine ⟨hstored, ?_, ?_⟩
  · intro e he
    apply List.count_eq_one_of_mem σ.store.nodup_events
    have hmem := (KeyedLog.mem_firsts_of_consistent Event.id hretried.consistent).mpr he
    rw [← hstored] at hmem
    exact (List.mem_filter.mp hmem).1
  · intro before s f later m htr hdispatch hm hopen
    subst htr
    have hprogress : _ ∧ begun d _ = batch := (Invariant.run h).call hretried.succeeded
    have hbegun : begun d (before ++ .bus (.subscribe s f) :: later) = begun d before ++ begun d later :=
      begun_append before _
    rw [hbegun, begun_of_later h hdispatch, List.nil_append] at hprogress
    rw [tries_of_sends (hretried.task_of_send h), offers_of_returned h hm hopen hretried.succeeded rfl, hprogress.2]

def retriedBatch : List Event :=
  [Event.plain ⟨"kept", by decide⟩ ⟨"stroke.begun"⟩, Event.plain ⟨"lost", by decide⟩ ⟨"stroke.ended"⟩]

/-- The first attempt loses its second event, another call comes between, and
the second attempt succeeds. -/
def attempts : List Label :=
  let kept := Event.plain ⟨"kept", by decide⟩ ⟨"stroke.begun"⟩
  let lost := Event.plain ⟨"lost", by decide⟩ ⟨"stroke.ended"⟩
  let foreign := Event.plain ⟨"foreign", by decide⟩ ⟨"chat.posted"⟩
  [.dispatch 1 retriedBatch, .append 1 kept (.ok ⟨.forMemory default 1, kept⟩),
    .appendFailed 1 lost (.backendUnavailable "store unavailable"),
    .dispatch 3 [foreign], .append 3 foreign (.ok ⟨.forMemory default 2, foreign⟩),
    .dispatch 2 retriedBatch, .append 2 kept (.ok ⟨.forMemory default 1, kept⟩),
    .append 2 lost (.ok ⟨.forMemory default 3, lost⟩), .persisted 2,
    .publish 2 kept, .bus (.send 2 default kept .sent), .bus (.endScan 2), .published 2,
    .publish 2 lost, .bus (.send 2 default lost .sent), .bus (.endScan 2), .published 2, .returned 2]

theorem retried_dispatch_attempts :
    ((tries default (busTrace (.bus (.subscribe default .all) :: attempts))).filter fun x =>
      x.1 ∈ retriedBatch).map Prod.fst = retriedBatch := by
  have hrun := (pipeline default 2).run_after (.bus (.subscribe default .all) :: attempts) (by decide)
  have hcalls : ∀ x ∈ ((pipeline default 2).after (.bus (.subscribe default .all) :: attempts)
      (by decide)).dispatches.entries, x.1 = 2 ∨ ¬Shares x.2.events retriedBatch ∨
        x = ⟨1, retriedBatch, .returned (.error (persistenceFailed (Event.plain ⟨"lost", by decide⟩ ⟨"stroke.ended"⟩)))⟩ := by
    decide
  have hretried : Retried ((pipeline default 2).after (.bus (.subscribe default .all) :: attempts) (by decide))
      retriedBatch 2 := {
    consistent := by decide
    succeeded := by decide
    attempts := by
      intro d' call hcall hd hshares
      rcases hcalls _ (Table.mem_entries_iff.mpr hcall) with h | h | h
      · exact absurd h hd
      · exact absurd hshares h
      · obtain ⟨rfl, hcall'⟩ := Sigma.mk.inj h
        obtain rfl := eq_of_heq hcall'
        exact ⟨rfl, _, _, hcall, rfl⟩ }
  exact (retried_dispatch hrun hretried).2.2 [] default .all attempts _ rfl (by simp [attempts])
    (Option.some_get (by decide)).symm (by decide)

end OrbitRelay.PipelineAdapter
