import OrbitRelay.Server.Handover

/-
  Runs in which no event id is dispatched twice.

  An id then belongs to one event of one batch of one call, so what the store
  and the subscribers hold can be told apart by call: the records of a batch are
  what its call has appended, in the order of the batch and each once, and the
  sends of its events are the sends of its call.
-/

namespace OrbitRelay.PipelineAdapter

open MemoryEventBus (offers tries)

variable {storeId : EntityId} {queueCapacity : Nat} {σ σ' : State} {l : Label} {tr : List Label}
  {d d' : TaskId} {s : SubscriptionId} {call : Dispatch} {event : Event} {m : MemorySubscription}

/-! ## Batches -/

/-- The batch a step brings in. -/
def Label.batch : Label → List Event
  | .dispatch _ events => events
  | _ => []

/-- No event id is dispatched twice. -/
def FreshIds (tr : List Label) : Prop := (tr.flatMap fun l => l.batch.map (·.id)).Nodup

instance (tr : List Label) : Decidable (FreshIds tr) := inferInstanceAs (Decidable (List.Nodup _))

/-- A call keeps its batch. -/
theorem step_call (hstep : σ.step l = some σ') (hcall : σ'.dispatches.lookup d = some call) :
    (∃ call₀, σ.dispatches.lookup d = some call₀ ∧ call.events = call₀.events) ∨ l = .dispatch d call.events := by
  have hset : ∀ {d₀ call₀ stage}, σ.dispatches.lookup d₀ = some call₀ →
      (σ.dispatches.insert d₀ { call₀ with stage }).lookup d = some call →
      ∃ call₀, σ.dispatches.lookup d = some call₀ ∧ call.events = call₀.events := by
    intro d₀ call₀ stage running hlookup
    rcases Table.lookup_insert_eq_some.mp hlookup with ⟨rfl, rfl⟩ | ⟨_, hold⟩
    · exact ⟨call₀, running, rfl⟩
    · exact ⟨call, hold, rfl⟩
  cases step_effect hstep with
  | dispatch d₀ events fresh =>
    rcases Table.lookup_insert_eq_some.mp hcall with ⟨rfl, rfl⟩ | ⟨_, hold⟩
    · exact .inr rfl
    · exact .inl ⟨call, hold, rfl⟩
  | appended d₀ event rest call₀ r running => exact .inl (hset running hcall)
  | refused d₀ event rest call₀ error running => exact .inl (hset running hcall)
  | appendFailed d₀ event rest call₀ error running => exact .inl (hset running hcall)
  | persisted d₀ call₀ running => exact .inl (hset running hcall)
  | publish d₀ event rest call₀ bus running => exact .inl (hset running hcall)
  | published d₀ event rest call₀ running => exact .inl (hset running hcall)
  | returned d₀ call₀ running => exact .inl (hset running hcall)
  | _ => exact .inl ⟨call, hcall, rfl⟩

/-- A call was dispatched with the batch it has. -/
theorem dispatch_of_call (h : (pipeline storeId queueCapacity).Run (State.new storeId queueCapacity) tr σ)
    (hcall : σ.dispatches.lookup d = some call) : .dispatch d call.events ∈ tr := by
  refine Lts.Run.induct (P := fun tr σ => ∀ call, σ.dispatches.lookup d = some call → .dispatch d call.events ∈ tr)
    (by simp [State.new]) ?_ h call hcall
  intro tr τ l υ _ ih hstep call hcall
  rcases step_call hstep hcall with ⟨call₀, hcall₀, hevents⟩ | rfl
  · rw [hevents]
    exact List.mem_append_left _ (ih call₀ hcall₀)
  · exact List.mem_append_right _ (List.mem_singleton_self _)

/-- With fresh ids, an id belongs to one event of one batch of one call. -/
theorem FreshIds.unique (h : FreshIds tr) {events events' : List Event} (hd : .dispatch d events ∈ tr)
    (hd' : .dispatch d' events' ∈ tr) {e e' : Event} (he : e ∈ events) (he' : e' ∈ events') (hid : e.id = e'.id) :
    d = d' ∧ events = events' ∧ e = e' := by
  obtain ⟨hbatch, hdisjoint⟩ := List.nodup_flatMap.mp h
  have hlabel : Label.dispatch d events = .dispatch d' events' := by
    by_contra hne
    have : Std.Symm (Function.onFun List.Disjoint fun l : Label => l.batch.map (·.id)) := ⟨fun _ _ hxy => hxy.symm⟩
    apply hdisjoint.forall hd hd' hne (List.mem_map_of_mem he)
    rw [hid]
    exact List.mem_map_of_mem he'
  obtain ⟨rfl, rfl⟩ := Label.dispatch.inj hlabel
  exact ⟨rfl, rfl, List.inj_on_of_nodup_map (hbatch _ hd) he he' hid⟩

theorem FreshIds.mono {pre : List Label} (h : FreshIds tr) (hp : pre <+: tr) : FreshIds pre := by
  obtain ⟨rest, rfl⟩ := hp
  rw [FreshIds, List.flatMap_append] at h
  exact (List.nodup_append.mp h).1

theorem FreshIds.dispatchedOnce (h : FreshIds tr)
    (hrun : (pipeline storeId queueCapacity).Run (State.new storeId queueCapacity) tr σ)
    (hcall : σ.dispatches.lookup d = some call) (he : event ∈ call.events) : DispatchedOnce σ d call event where
  called := hcall
  mem := he
  once := List.count_eq_one_of_mem ((List.nodup_flatMap.mp h).1 _ (dispatch_of_call hrun hcall))
    (List.mem_map_of_mem he)
  elsewhere := by
    intro d' call' e hcall' he' hid
    exact (h.unique (dispatch_of_call hrun hcall') (dispatch_of_call hrun hcall) he' he hid).1

/-- With fresh ids, an event of one call is in the batch of no other. -/
theorem FreshIds.mem_iff (h : FreshIds tr)
    (hrun : (pipeline storeId queueCapacity).Run (State.new storeId queueCapacity) tr σ)
    (hcall : σ.dispatches.lookup d = some call) {call' : Dispatch}
    (hcall' : σ.dispatches.lookup d' = some call') (he' : event ∈ call'.events) :
    event ∈ call.events ↔ d' = d := by
  constructor
  · intro he
    exact (h.unique (dispatch_of_call hrun hcall') (dispatch_of_call hrun hcall) he' he rfl).1
  · intro heq
    subst heq
    obtain rfl := Option.some.inj (hcall.symm.trans hcall')
    exact he'

/-! ## The store -/

/-- The events appended, by any call. -/
def allAppended (tr : List Label) : List Event :=
  tr.filterMap fun
    | .append _ event (.ok _) => some event
    | _ => none

/-- With fresh ids, every append is of a new event. -/
theorem FreshIds.records_eq (h : FreshIds tr)
    (hrun : (pipeline storeId queueCapacity).Run (State.new storeId queueCapacity) tr σ) :
    σ.store.records.map (·.event) = allAppended tr := by
  refine Lts.Run.induct (P := fun tr σ => FreshIds tr → σ.store.records.map (·.event) = allAppended tr)
    (fun _ => rfl) ?_ hrun h
  intro tr τ l υ hrun ih hstep h
  have hpre := h.mono (List.prefix_append tr [l])
  have hlast : allAppended (tr ++ [l]) = allAppended tr ++ allAppended [l] := List.filterMap_append
  rw [hlast, ← ih hpre]
  cases step_effect hstep with
  | appended d event rest call r running stage answer =>
    have hevent := (MemoryEventStore.State.get_of_append_ok answer).2
    rcases MemoryEventStore.State.append_ok_cases answer with hsame | hrec
    · -- the event would have been appended before, by this call
      exfalso
      have hinv := Invariant.run hrun
      have hprogress := hinv.call running
      rw [stage] at hprogress
      have hget := (MemoryEventStore.State.get_of_append_ok answer).1
      rw [hsame] at hget
      obtain ⟨d', hd'⟩ := hinv.origin (MemoryEventStore.State.get_eq_some_iff.mp hget).1
      rw [hevent] at hd'
      obtain ⟨call', hcall', he'⟩ := hinv.mem_of_appended hd'
      have hdispatch := dispatch_of_call hrun running
      have he : event ∈ call.events := by simp [hprogress.1]
      obtain ⟨rfl, _, _⟩ := hpre.unique (dispatch_of_call hrun hcall') hdispatch he' he rfl
      have hnodup := List.Nodup.of_map _ ((List.nodup_flatMap.mp hpre).1 _ hdispatch)
      have hbatch : (Label.dispatch d' call.events).batch = call.events := rfl
      rw [hbatch, hprogress.1] at hnodup
      exact (List.nodup_append.mp hnodup).2.2 event hd' event List.mem_cons_self rfl
    · simp only [setStage_store, hrec, List.map_append, List.map_cons, List.map_nil, hevent]
      rfl
  | refused d event rest call error running stage answer =>
    simp only [setStage_store, MemoryEventStore.State.append_of_error answer]
    exact (List.append_nil _).symm
  | _ => exact (List.append_nil _).symm

/-- The records of a batch are what its call has appended, in the same order. -/
theorem FreshIds.records_of_call (h : FreshIds tr)
    (hrun : (pipeline storeId queueCapacity).Run (State.new storeId queueCapacity) tr σ)
    (hcall : σ.dispatches.lookup d = some call) :
    (σ.store.records.map (·.event)).filter (· ∈ call.events) = appended d tr := by
  have hinv := Invariant.run hrun
  rw [h.records_eq hrun, allAppended, List.filter_filterMap, appended]
  apply List.filterMap_congr
  intro l hl
  cases l with
  | append d' event result =>
    cases result with
    | error => rfl
    | ok r =>
      have hd' : event ∈ appended d' tr := List.mem_filterMap.mpr ⟨_, hl, by simp⟩
      obtain ⟨call', hcall', he'⟩ := hinv.mem_of_appended hd'
      have hiff := h.mem_iff hrun hcall hcall' he'
      by_cases hd : d' = d <;> simp [Option.filter, hiff, hd]
  | _ => rfl

/-! ## The subscribers -/

/-- An event that was sent belongs to the batch of the call that sent it. -/
theorem call_of_send (h : (pipeline storeId queueCapacity).Run (State.new storeId queueCapacity) tr σ)
    {result : TrySend} (hsend : .bus (.send d s event result) ∈ tr) :
    ∃ call, σ.dispatches.lookup d = some call ∧ event ∈ call.events := by
  obtain ⟨call, hcall, he, _⟩ := (Invariant.run h).batch_of_begun (begun_of_send h hsend)
  exact ⟨call, hcall, he⟩

/-- With fresh ids, no event is sent to an open subscription twice. -/
theorem count_tries_le (h : (pipeline storeId queueCapacity).Run (State.new storeId queueCapacity) tr σ)
    (hfresh : FreshIds tr) (hm : σ.bus.subscriptions.lookup s = some m) (hopen : m.IsOpen) (event : Event) :
    ((tries s (busTrace tr)).map Prod.fst).count event ≤ 1 := by
  -- the sends of an event that was sent are those of its call, which publishes it once
  by_cases hin : event ∈ (tries s (busTrace tr)).map Prod.fst
  · obtain ⟨x, hx, rfl⟩ := List.mem_map.mp hin
    obtain ⟨pre, d, post, htr⟩ := MemoryEventBus.mem_tries hx
    have hsend : .bus (.send d s x.1 x.2) ∈ tr := (mem_busTrace rfl).mp (by simp [htr])
    obtain ⟨call, hcall, he⟩ := call_of_send h hsend
    have honce := hfresh.dispatchedOnce h hcall he
    calc ((tries s (busTrace tr)).map Prod.fst).count x.1
        = (offers d s (busTrace tr)).count x.1 := honce.count_tries h
      _ ≤ (begun d tr).count x.1 := by
          rw [← published_busTrace h]
          exact MemoryEventBus.count_offers_le (bus_run h) hm hopen d x.1
      _ ≤ call.events.count x.1 := ((Invariant.run h).begun_of_batch hcall).sublist.count_le x.1
      _ = 1 := honce.count_events
  · rw [List.count_eq_zero_of_not_mem hin]
    exact Nat.zero_le 1

/-- If only call `d` has sent events of its batch, then its sends are the sends of
those events. -/
theorem tries_of_sends {events : List Event}
    (h : ∀ {d' event result}, .bus (.send d' s event result) ∈ tr → (event ∈ events ↔ d' = d)) :
    ((tries s (busTrace tr)).filter fun x => x.1 ∈ events).map Prod.fst = offers d s (busTrace tr) := by
  rw [tries, List.filter_filterMap, ← List.filterMap_eq_map, List.filterMap_filterMap, offers]
  apply List.filterMap_congr
  intro k hk
  cases k with
  | send d' s' event result =>
    by_cases hs : s' = s
    · subst hs
      have hiff := h ((mem_busTrace rfl).mp hk)
      by_cases hd : d' = d <;> simp [Option.filter, hiff, hd]
    · simp [hs]
  | _ => rfl

/-- With fresh ids, the sends of the events of a batch are those of its call. -/
theorem FreshIds.tries_of_call (h : FreshIds tr)
    (hrun : (pipeline storeId queueCapacity).Run (State.new storeId queueCapacity) tr σ)
    (hcall : σ.dispatches.lookup d = some call) :
    ((tries s (busTrace tr)).filter fun x => x.1 ∈ call.events).map Prod.fst = offers d s (busTrace tr) := by
  apply tries_of_sends
  intro d' event result hsend
  obtain ⟨call', hcall', he'⟩ := call_of_send hrun hsend
  exact h.mem_iff hrun hcall hcall' he'

end OrbitRelay.PipelineAdapter
