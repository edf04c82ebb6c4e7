import OrbitRelay.Runtime.ExactlyOnce
import OrbitRelay.Runtime.Provenance
import OrbitRelay.Storage.Pages

/-
  Which stored events are selected by their own type.

  A query and a filter refuse a type that is blank, each with a check of its
  own, and nothing between a handler and the store looks at the type of an
  event. So an event is selected by its type if that is not blank, and the types
  that reach the store are those of the handlers' drafts.
-/

namespace OrbitRelay

/-- Nothing but white space. -/
def EventType.Blank (t : EventType) : Prop := Text.trim t.value = []

instance (t : EventType) : Decidable t.Blank := inferInstanceAs (Decidable (_ = _))

theorem EventQuery.all_withEventType_validate (t : EventType) :
    (EventQuery.all.withEventType t).validate = .ok () ↔ ¬t.Blank := by
  rw [EventQuery.validate_ok_iff]
  simp [EventQuery.FilterValid, EventQuery.withEventType, EventQuery.all, EventQuery.timeRangeInverted,
    EventQuery.defaultLimit, EventQuery.maxLimit, EventType.Blank]

theorem EventQuery.all_withEventType_matches (event : Event) :
    (EventQuery.all.withEventType event.eventType).matches event = true := by
  simp [EventQuery.matches, EventQuery.withEventType, EventQuery.all]

theorem EventFilter.all_withEventType_validate (t : EventType) :
    (EventFilter.all.withEventType t).validate = .ok () ↔ ¬t.Blank := by
  rw [EventFilter.validate_ok_iff]
  simp [EventFilter.withEventType, EventFilter.all, EventType.Blank]

theorem EventFilter.all_withEventType_matches (event : Event) :
    (EventFilter.all.withEventType event.eventType).matches event = true := by
  simp [EventFilter.matches, EventFilter.withEventType, EventFilter.all]

namespace Runtime

open MemoryEventStore (Paged Replay records)

/-- The event can be selected by its type. -/
structure Selectable (store : MemoryEventStore.State) (event : Event) : Prop where
  queryValid : (EventQuery.all.withEventType event.eventType).validate = .ok ()
  filterValid : (EventFilter.all.withEventType event.eventType).validate = .ok ()
  queryMatches : (EventQuery.all.withEventType event.eventType).matches event = true
  filterMatches : (EventFilter.all.withEventType event.eventType).matches event = true
  /-- paging the query comes to an end, and has returned the event by then -/
  paged : ∃ pages, Paged store (EventQuery.all.withEventType event.eventType) none pages ∧
    event ∈ (records pages).map (·.event)
  /-- so it has with other limits, and where more is appended meanwhile -/
  replayed : ∀ storeId pages store',
    Replay storeId (EventQuery.all.withEventType event.eventType) none store pages store' none →
    event ∈ (records pages).map (·.event)

variable {storeId : EntityId} {queueCapacity : Nat} {ρ : State} {tr : List Label}
  {store : MemoryEventStore.State} {r : StoredEvent}

/-- A stored event is selected by its type exactly if that is not blank. -/
theorem selectable_iff (hr : r ∈ store.records) : Selectable store r.event ↔ ¬r.event.eventType.Blank := by
  constructor
  · intro h
    exact (EventQuery.all_withEventType_validate _).mp h.queryValid
  · intro hnamed
    have hvalid := (EventQuery.all_withEventType_validate _).mpr hnamed
    have hmatches := EventQuery.all_withEventType_matches r.event
    obtain ⟨hlimit, hfilter, _⟩ := (EventQuery.validate_ok_iff _).mp hvalid
    refine ⟨hvalid, (EventFilter.all_withEventType_validate _).mpr hnamed, hmatches,
      EventFilter.all_withEventType_matches r.event, ?_, ?_⟩
    · have hstart : store.startPosition none = .ok 0 := rfl
      obtain ⟨pages, hpaged, hrecords⟩ := MemoryEventStore.exists_paged hfilter hlimit hstart rfl
      refine ⟨pages, hpaged, List.mem_map.mpr ⟨r, ?_, rfl⟩⟩
      rw [hrecords]
      exact List.mem_filter.mpr ⟨hr, hmatches⟩
    · intro storeId pages store' hreplay
      have hkept : r ∈ store'.records := hreplay.extends.2.subset hr
      refine List.mem_map.mpr ⟨r, ?_, rfl⟩
      rw [hreplay.complete hfilter (MemoryEventStore.State.startsAt_none store)]
      exact List.mem_filter.mpr ⟨hkept, hmatches⟩

/-- A handler that drafts no blank event type. -/
def Named : Label → Prop
  | .handled _ _ (.ok drafts) => ∀ draft ∈ drafts, ¬draft.eventType.Blank
  | _ => True

instance (l : Label) : Decidable (Named l) := by
  unfold Named
  split <;> infer_instance

/-- The type of a stored event is that of a draft. -/
theorem draft_of_stored (h : (runtime storeId queueCapacity).Run (State.new storeId queueCapacity) tr ρ)
    (hr : r ∈ ρ.pipeline.store.records) :
    ∃ x handler drafts, .handled x handler (.ok drafts) ∈ tr ∧ r.event.draft ∈ drafts := by
  obtain ⟨x, i, c, hprovenance⟩ := provenance_of_stored h hr
  refine ⟨x, c.handler, c.drafts, hprovenance.approved.mem (by simp [Approval.steps]), ?_⟩
  exact List.mem_of_getElem? hprovenance.draft

/-- **Which stored events can be selected by their own type.** Those whose type
is not blank; and as long as the handlers draft no blank type, all of them. -/
theorem stored_selectable (h : (runtime storeId queueCapacity).Run (State.new storeId queueCapacity) tr ρ) :
    ((∀ l ∈ tr, Named l) → ∀ r ∈ ρ.pipeline.store.records, Selectable ρ.pipeline.store r.event) ∧
    ∀ r ∈ ρ.pipeline.store.records, (Selectable ρ.pipeline.store r.event ↔ ¬r.event.eventType.Blank) := by
  refine ⟨?_, fun r hr => selectable_iff hr⟩
  intro hnamed r hr
  obtain ⟨x, handler, drafts, hhandled, hdraft⟩ := draft_of_stored h hr
  have hdrafts : ∀ draft ∈ drafts, ¬draft.eventType.Blank := hnamed _ hhandled
  have hblank : ¬r.event.draft.eventType.Blank := hdrafts _ hdraft
  exact (selectable_iff hr).mpr hblank

theorem stored_selectable_drawing :
    let store := ((runtime default 1).after wholeCall (by decide)).pipeline.store
    ∀ r ∈ store.records, Selectable store r.event :=
  (stored_selectable ((runtime default 1).run_after wholeCall (by decide))).1 (by decide)

/-- An event whose type is a space. -/
def unnamed : EventDraft := ⟨⟨" "⟩, Payload.new, BTreeMap.new⟩
def unnamedEvent : Event := (Action.plain ⟨"canvas.draw"⟩).event unnamed ⟨default, Timestamp.epoch⟩

def unnamedCall : List Label :=
  [.register ⟨"canvas.draw"⟩ 1 (.ok ()), .execute 1 (Action.plain ⟨"canvas.draw"⟩), .lookup 1 (some 1),
    .validated 1 1 (.ok ()), .authorized 1 (.ok ()), .handled 1 1 (.ok [unnamed]),
    .dispatch 1 [⟨default, Timestamp.epoch⟩] [unnamedEvent],
    .pipeline (.append 1 unnamedEvent (.ok ⟨.forMemory default 1, unnamedEvent⟩)), .pipeline (.persisted 1),
    .pipeline (.publish 1 unnamedEvent), .pipeline (.bus (.endScan 1)), .pipeline (.published 1),
    .pipeline (.returned 1), .returned 1 (.ok [unnamedEvent])]

/-- Its call returns Ok, and the event is stored. -/
theorem stored_selectable_unnamed : ¬ ∀ storeId queueCapacity tr ρ,
    (runtime storeId queueCapacity).Run (State.new storeId queueCapacity) tr ρ →
    ∀ r ∈ ρ.pipeline.store.records, Selectable ρ.pipeline.store r.event := by
  intro hall
  have hrun := (runtime default 1).run_after unnamedCall (by decide)
  have hstored : ⟨.forMemory default 1, unnamedEvent⟩ ∈
      ((runtime default 1).after unnamedCall (by decide)).pipeline.store.records := by decide
  have hselectable := hall _ _ _ _ hrun _ hstored
  have hblank := (selectable_iff hstored).mp hselectable
  exact hblank (by decide)

end Runtime

end OrbitRelay
