import OrbitRelay.Server.Pipeline

/-
  How far every call has come.

  `storeLabel` and `busLabel` read a trace of the pipeline as a trace of its
  store and one of its bus, so whatever holds of their runs holds here. What is
  new is the program counter of each call: `Progress` ties its stage to the
  events it has appended and to those it has begun to publish, and `Invariant`
  ties the calls to the store and to the publishes in progress.
-/

namespace OrbitRelay.PipelineAdapter

open MemoryEventStore (Extends)

/-- What a step is to the store. -/
def storeLabel : Label → Option MemoryEventStore.Label
  | .append _ event result => some (.append event result)
  | .get id result => some (.get id result)
  | .query q result => some (.query q result)
  | _ => none

/-- What a step is to the bus. -/
def busLabel : Label → Option MemoryEventBus.Label
  | .publish d event => some (.publish d event)
  | .bus l => some l
  | _ => none

/-- The trace of the bus. -/
def busTrace (tr : List Label) : List MemoryEventBus.Label := tr.filterMap busLabel

/-- The trace of the store. -/
def storeTrace (tr : List Label) : List MemoryEventStore.Label := tr.filterMap storeLabel

/-- The events call `d` has appended. -/
def appended (d : TaskId) (tr : List Label) : List Event :=
  tr.filterMap fun
    | .append d' event (.ok _) => if d' = d then some event else none
    | _ => none

/-- The events call `d` has begun to publish. -/
def begun (d : TaskId) (tr : List Label) : List Event :=
  tr.filterMap fun
    | .publish d' event => if d' = d then some event else none
    | _ => none

variable {storeId : EntityId} {queueCapacity : Nat} {σ σ' : State} {l : Label} {tr tr' : List Label}
  {d d' : TaskId} {call : Dispatch} {event : Event} {stage : Stage}

theorem busTrace_append (tr tr' : List Label) : busTrace (tr ++ tr') = busTrace tr ++ busTrace tr' :=
  List.filterMap_append

theorem appended_append (tr tr' : List Label) : appended d (tr ++ tr') = appended d tr ++ appended d tr' :=
  List.filterMap_append

theorem begun_append (tr tr' : List Label) : begun d (tr ++ tr') = begun d tr ++ begun d tr' :=
  List.filterMap_append

theorem appended_mono (he : event ∈ appended d tr) : event ∈ appended d (tr ++ tr') := by
  rw [appended_append]
  exact List.mem_append_left _ he

@[simp] theorem setStage_store : (σ.setStage d call stage).store = σ.store := rfl

@[simp] theorem lookup_setStage :
    (σ.setStage d call stage).dispatches.lookup d = some { call with stage } :=
  AList.lookup_insert _

theorem lookup_setStage_ne (h : d' ≠ d) :
    (σ.setStage d call stage).dispatches.lookup d' = σ.dispatches.lookup d' :=
  AList.lookup_insert_ne h

/-! ## The store and the bus of the pipeline -/

/-- The pipeline, seen from its store. -/
def storeOf (storeId : EntityId) (queueCapacity : Nat) :
    Lts.Simulation (pipeline storeId queueCapacity) (MemoryEventStore.memoryEventStore storeId) where
  rel σ x := σ.store = x
  label := storeLabel
  start := rfl
  follow := by
    intro σ _ l σ' heq hstep
    subst heq
    refine ⟨σ'.store, ?_, rfl⟩
    cases step_effect hstep with
    | appended d event rest call r running stage answer =>
      exact Lts.Run.single (MemoryEventStore.step_append_iff.mpr ⟨answer, rfl⟩)
    | refused d event rest call error running stage answer =>
      exact Lts.Run.single (MemoryEventStore.step_append_iff.mpr ⟨answer, rfl⟩)
    | get id => exact Lts.Run.single (MemoryEventStore.step_get_iff.mpr ⟨rfl, rfl⟩)
    | query q => exact Lts.Run.single (MemoryEventStore.step_query_iff.mpr ⟨rfl, rfl⟩)
    | _ => exact Lts.Run.nil _ _

/-- The pipeline, seen from its bus. -/
def busOf (storeId : EntityId) (queueCapacity : Nat) :
    Lts.Simulation (pipeline storeId queueCapacity) (MemoryEventBus.memoryEventBus queueCapacity) where
  rel σ x := σ.bus = x
  label := busLabel
  start := rfl
  follow := by
    intro σ _ l σ' heq hstep
    subst heq
    refine ⟨σ'.bus, ?_, rfl⟩
    cases step_effect hstep with
    | publish d event rest call bus running stage begun => exact Lts.Run.single begun
    | bus l bus foreign stepped => exact Lts.Run.single stepped
    | _ => exact Lts.Run.nil _ _

theorem bus_run (h : (pipeline storeId queueCapacity).Run σ tr σ') :
    (MemoryEventBus.memoryEventBus queueCapacity).Run σ.bus (busTrace tr) σ'.bus := by
  obtain ⟨_, hrun, rfl⟩ := (busOf storeId queueCapacity).run_from rfl h
  exact hrun

theorem store_run (h : (pipeline storeId queueCapacity).Run σ tr σ') :
    (MemoryEventStore.memoryEventStore storeId).Run σ.store (storeTrace tr) σ'.store := by
  obtain ⟨_, hrun, rfl⟩ := (storeOf storeId queueCapacity).run_from rfl h
  exact hrun

/-- The clients of the bus do not publish. -/
theorem foreign_of_mem (h : (pipeline storeId queueCapacity).Run σ tr σ') {k : MemoryEventBus.Label}
    (hk : .bus k ∈ tr) : isForeign k = true := by
  obtain ⟨_, _, σ₀, σ₁, _, _, (hstep : σ₀.step (.bus k) = some σ₁), _⟩ := h.at_label hk
  cases step_effect hstep with
  | bus l bus foreign => exact foreign

/-- What the bus sees of a task is what its call has begun to publish. -/
theorem published_busTrace (h : (pipeline storeId queueCapacity).Run σ tr σ') :
    MemoryEventBus.published d (busTrace tr) = begun d tr := by
  rw [MemoryEventBus.published, busTrace, List.filterMap_filterMap]
  apply List.filterMap_congr
  intro l hl
  cases l with
  | bus k =>
    have hforeign := foreign_of_mem h hl
    cases k <;> simp_all [busLabel, isForeign]
  | _ => rfl

theorem step_extends (h : σ.step l = some σ') : Extends σ.store σ'.store := by
  cases step_effect h with
  | appended d event => exact Extends.append σ.store event
  | refused d event => exact Extends.append σ.store event
  | _ => exact Extends.refl σ.store

/-! ## The program counters -/

/-- What a call has appended and begun to publish, at each of its stages. -/
def Progress (events : List Event) : Stage → List Event → List Event → Prop
  | .appending rest, done, published => events = done ++ rest ∧ published = []
  | .publishing rest, done, published => done = events ∧ events = published ++ rest
  | .inFlight event rest, done, published =>
    done = events ∧ events = published ++ rest ∧ published.getLast? = some event
  | .returned (.ok _), done, published => done = events ∧ published = events
  | .returned (.error _), done, published => done <+: events ∧ published = []

/-- At every stage what is appended and what is published are beginnings of the
batch, and nothing is published before all of it is appended. -/
theorem Progress.batch {events done published : List Event} (h : Progress events stage done published) :
    done <+: events ∧ published <+: events ∧ (published = [] ∨ done = events) := by
  cases stage with
  | appending rest =>
    obtain ⟨rfl, rfl⟩ := h
    exact ⟨List.prefix_append _ _, List.nil_prefix, .inl rfl⟩
  | publishing rest =>
    obtain ⟨rfl, hsplit⟩ := h
    exact ⟨List.prefix_refl _, ⟨rest, hsplit.symm⟩, .inr rfl⟩
  | inFlight event rest =>
    obtain ⟨rfl, hsplit, _⟩ := h
    exact ⟨List.prefix_refl _, ⟨rest, hsplit.symm⟩, .inr rfl⟩
  | returned result =>
    cases result with
    | ok =>
      obtain ⟨rfl, rfl⟩ := h
      exact ⟨List.prefix_refl _, List.prefix_refl _, .inr rfl⟩
    | error =>
      obtain ⟨hinit, rfl⟩ := h
      exact ⟨hinit, List.nil_prefix, .inl rfl⟩

/-- How the calls, the store, the bus and the trace fit together. -/
structure Invariant (tr : List Label) (σ : State) : Prop where
  bus : MemoryEventBus.WellFormed σ.bus
  alive : σ.bus.alive = true
  call : ∀ {d call}, σ.dispatches.lookup d = some call →
    Progress call.events call.stage (appended d tr) (begun d tr)
  uncalled : ∀ {d}, σ.dispatches.lookup d = none → appended d tr = [] ∧ begun d tr = []
  publishing : ∀ {d pub}, σ.bus.publishes.lookup d = some pub →
    ∃ call rest, σ.dispatches.lookup d = some call ∧ call.stage = .inFlight pub.event rest
  stored : ∀ {d event}, event ∈ appended d tr → ∃ r, σ.store.get event.id = some r ∧ r.event = event
  origin : ∀ {r}, r ∈ σ.store.records → ∃ d, r.event ∈ appended d tr

namespace Invariant

theorem new (storeId : EntityId) (queueCapacity : Nat) : Invariant [] (State.new storeId queueCapacity) where
  bus := MemoryEventBus.WellFormed.new queueCapacity
  alive := rfl
  call := by simp [State.new]
  uncalled := fun _ => ⟨rfl, rfl⟩
  publishing := by simp [State.new, MemoryEventBus.State.new]
  stored := by simp [appended]
  origin := by simp [State.new, MemoryEventStore.State.new]

/-- A step that no call takes. -/
theorem client (h : Invariant tr σ) (hstore : σ'.store = σ.store) (hcalls : σ'.dispatches = σ.dispatches)
    (hbus : MemoryEventBus.WellFormed σ'.bus) (halive : σ'.bus.alive = true)
    (hpub : ∀ {d pub'}, σ'.bus.publishes.lookup d = some pub' →
      ∃ pub, σ.bus.publishes.lookup d = some pub ∧ pub.event = pub'.event)
    (hl : ∀ d, appended d [l] = [] ∧ begun d [l] = []) : Invariant (tr ++ [l]) σ' where
  bus := hbus
  alive := halive
  call := by
    intro d call hcall
    rw [appended_append, begun_append, (hl d).1, (hl d).2, List.append_nil, List.append_nil]
    exact h.call (hcalls ▸ hcall)
  uncalled := by
    intro d hnone
    rw [appended_append, begun_append, (hl d).1, (hl d).2, List.append_nil, List.append_nil]
    exact h.uncalled (hcalls ▸ hnone)
  publishing := by
    intro d pub' hp
    obtain ⟨pub, hold, hevent⟩ := hpub hp
    rw [hcalls, ← hevent]
    exact h.publishing hold
  stored := by
    intro d event he
    rw [appended_append, (hl d).1, List.append_nil] at he
    rw [hstore]
    exact h.stored he
  origin := by
    intro r hr
    rw [hstore] at hr
    obtain ⟨d, hd⟩ := h.origin hr
    exact ⟨d, appended_mono hd⟩

/-- A step of call `d`: its stage and its part of the trace change, the store
may grow, and the bus is what the publishes in progress say. -/
theorem advance (h : Invariant tr σ) (stage : Stage) (hcall : σ.dispatches.lookup d = some call)
    (hprogress : Progress call.events stage (appended d (tr ++ [l])) (begun d (tr ++ [l])))
    (hothers : ∀ d', d' ≠ d → appended d' [l] = [] ∧ begun d' [l] = [])
    (hcalls : σ'.dispatches = σ.dispatches.insert d { call with stage })
    (hbus : MemoryEventBus.WellFormed σ'.bus) (halive : σ'.bus.alive = true)
    (hpub : ∀ {d' pub}, σ'.bus.publishes.lookup d' = some pub →
      (d' = d ∧ ∃ rest, stage = .inFlight pub.event rest) ∨ (d' ≠ d ∧ σ.bus.publishes.lookup d' = some pub))
    (hstored : ∀ {d' event}, event ∈ appended d' (tr ++ [l]) →
      ∃ r, σ'.store.get event.id = some r ∧ r.event = event)
    (horigin : ∀ {r}, r ∈ σ'.store.records → ∃ d', r.event ∈ appended d' (tr ++ [l])) :
    Invariant (tr ++ [l]) σ' where
  bus := hbus
  alive := halive
  call := by
    intro d' call' h'
    rw [hcalls] at h'
    rcases Table.lookup_insert_eq_some.mp h' with ⟨rfl, rfl⟩ | ⟨hne, h'⟩
    · exact hprogress
    · rw [appended_append, begun_append, (hothers d' hne).1, (hothers d' hne).2, List.append_nil, List.append_nil]
      exact h.call h'
  uncalled := by
    intro d' hnone
    have hne : d' ≠ d := by
      intro heq
      subst heq
      rw [hcalls, AList.lookup_insert] at hnone
      simp at hnone
    rw [hcalls, AList.lookup_insert_ne hne] at hnone
    rw [appended_append, begun_append, (hothers d' hne).1, (hothers d' hne).2, List.append_nil, List.append_nil]
    exact h.uncalled hnone
  publishing := by
    intro d' pub hp
    rcases hpub hp with ⟨rfl, rest, hstage⟩ | ⟨hne, hold⟩
    · exact ⟨_, rest, by rw [hcalls]; exact AList.lookup_insert _, hstage⟩
    · obtain ⟨call', rest, h', hstage⟩ := h.publishing hold
      exact ⟨call', rest, by rw [hcalls, AList.lookup_insert_ne hne]; exact h', hstage⟩
  stored := hstored
  origin := horigin

/-- The same for a step that leaves the store alone. -/
theorem advance_store (h : Invariant tr σ) (stage : Stage) (hcall : σ.dispatches.lookup d = some call)
    (hprogress : Progress call.events stage (appended d (tr ++ [l])) (begun d (tr ++ [l])))
    (hothers : ∀ d', d' ≠ d → begun d' [l] = []) (hnone : ∀ d', appended d' [l] = [])
    (hcalls : σ'.dispatches = σ.dispatches.insert d { call with stage })
    (hbus : MemoryEventBus.WellFormed σ'.bus) (halive : σ'.bus.alive = true)
    (hpub : ∀ {d' pub}, σ'.bus.publishes.lookup d' = some pub →
      (d' = d ∧ ∃ rest, stage = .inFlight pub.event rest) ∨ (d' ≠ d ∧ σ.bus.publishes.lookup d' = some pub))
    (hstore : σ'.store = σ.store) : Invariant (tr ++ [l]) σ' := by
  refine h.advance stage hcall hprogress (fun d' hne => ⟨hnone d', hothers d' hne⟩) hcalls hbus halive hpub ?_ ?_
  · intro d' event he
    rw [appended_append, hnone d', List.append_nil] at he
    rw [hstore]
    exact h.stored he
  · intro r hr
    rw [hstore] at hr
    obtain ⟨d', hd'⟩ := h.origin hr
    exact ⟨d', appended_mono hd'⟩

/-- While a call is not in a publish, the bus has none of it. -/
theorem not_publishing (h : Invariant tr σ) (hcall : σ.dispatches.lookup d = some call)
    (hstage : ∀ event rest, call.stage ≠ .inFlight event rest) {d' : TaskId} {pub : MemoryEventBus.Publish}
    (hp : σ.bus.publishes.lookup d' = some pub) : d' ≠ d := by
  intro heq
  subst heq
  obtain ⟨call', rest, h', hin⟩ := h.publishing hp
  obtain rfl := Option.some.inj (hcall.symm.trans h')
  exact hstage _ _ hin

/-- A call that fails to append is over. -/
theorem fail {rest : List Event} {error : PipelineError} (h : Invariant tr σ)
    (running : σ.dispatches.lookup d = some call) (hstage : call.stage = .appending (event :: rest))
    (hcalls : σ'.dispatches = σ.dispatches.insert d { call with stage := .returned (.error error) })
    (hbegun : ∀ d', begun d' [l] = []) (happended : ∀ d', appended d' [l] = []) (hstore : σ'.store = σ.store)
    (hbus : σ'.bus = σ.bus) : Invariant (tr ++ [l]) σ' := by
  have hprogress := h.call running
  rw [hstage] at hprogress
  refine h.advance_store (.returned (.error error)) running ?_ (fun d' _ => hbegun d') happended hcalls
    (hbus ▸ h.bus) (hbus ▸ h.alive) ?_ hstore
  · rw [appended_append, begun_append, hbegun, happended, hprogress.2]
    exact ⟨⟨event :: rest, by rw [List.append_nil]; exact hprogress.1.symm⟩, rfl⟩
  · intro d' pub hp
    rw [hbus] at hp
    exact .inr ⟨h.not_publishing running (by simp [hstage]) hp, hp⟩

/-- A call starts with its whole batch to append. -/
theorem dispatched {events : List Event} (h : Invariant tr σ) (fresh : σ.dispatches.lookup d = none) :
    Invariant (tr ++ [.dispatch d events])
      { σ with dispatches := σ.dispatches.insert d ⟨events, .appending events⟩ } where
  bus := h.bus
  alive := h.alive
  call := by
    intro d' call hcall
    rw [appended_append, begun_append]
    rcases Table.lookup_insert_eq_some.mp hcall with ⟨rfl, rfl⟩ | ⟨_, hcall⟩
    · obtain ⟨ha, hb⟩ := h.uncalled fresh
      rw [ha, hb]
      exact ⟨rfl, rfl⟩
    · simpa [appended, begun] using h.call hcall
  uncalled := by
    intro d' hnone
    rw [appended_append, begun_append]
    have hne : d' ≠ d := by
      intro heq
      subst heq
      simp [AList.lookup_insert] at hnone
    rw [AList.lookup_insert_ne hne] at hnone
    simpa [appended, begun] using h.uncalled hnone
  -- a publish in progress is of a call that had begun before, so not of this one
  publishing := by
    intro d' pub hp
    obtain ⟨call, rest, hcall, hstage⟩ := h.publishing hp
    have hne : d' ≠ d := by
      intro heq
      subst heq
      simp [fresh] at hcall
    exact ⟨call, rest, (AList.lookup_insert_ne hne).trans hcall, hstage⟩
  stored := by
    intro d' event he
    rw [appended_append] at he
    exact h.stored (by simpa [appended] using he)
  origin := by
    intro r hr
    obtain ⟨d', hd'⟩ := h.origin hr
    exact ⟨d', appended_mono hd'⟩

/-- A call appends an event. The store grows by at most this one, and keeps what
it held. -/
theorem appended_one {rest : List Event} {r : StoredEvent} (h : Invariant tr σ)
    (running : σ.dispatches.lookup d = some call) (hstage : call.stage = .appending (event :: rest))
    (answer : (σ.store.append event).1 = .ok r) :
    Invariant (tr ++ [.append d event (.ok r)])
      ({ σ with store := (σ.store.append event).2 }.setStage d call (.appending rest)) := by
  have hlast : appended d [.append d event (.ok r)] = [event] := by simp [appended]
  have hprogress := h.call running
  rw [hstage] at hprogress
  obtain ⟨hget, hevent⟩ := MemoryEventStore.State.get_of_append_ok answer
  refine h.advance (.appending rest) running ?_ ?_ rfl h.bus h.alive ?_ ?_ ?_
  · rw [appended_append, begun_append, hlast, hprogress.2]
    exact ⟨by rw [hprogress.1, List.append_assoc]; rfl, rfl⟩
  · intro d' hne
    simp [appended, begun, Ne.symm hne]
  · intro d' pub hp
    exact .inr ⟨h.not_publishing running (by simp [hstage]) hp, hp⟩
  · intro d' e he
    rw [appended_append, List.mem_append] at he
    rcases he with he | he
    · obtain ⟨r', hr', hevent'⟩ := h.stored he
      exact ⟨r', MemoryEventStore.State.get_of_prefix (σ.store.append_prefix event) hr', hevent'⟩
    · obtain rfl : event = e := by
        by_cases hd : d = d' <;> simp_all [appended]
      exact ⟨r, hget, hevent⟩
  · intro r' hr'
    rcases MemoryEventStore.State.mem_append_ok answer hr' with hold | hnew
    · obtain ⟨d', hd'⟩ := h.origin hold
      exact ⟨d', appended_mono hd'⟩
    · refine ⟨d, ?_⟩
      rw [appended_append, hlast, hnew, hevent]
      exact List.mem_append_right _ (List.mem_singleton_self _)

/-- A call begins to publish an event. The one new publish of the bus is the one
the call now waits for. -/
theorem begun_one {rest : List Event} {bus : MemoryEventBus.State} (h : Invariant tr σ)
    (running : σ.dispatches.lookup d = some call) (hstage : call.stage = .publishing (event :: rest))
    (begins : σ.bus.step (.publish d event) = some bus) :
    Invariant (tr ++ [.publish d event]) { σ.setStage d call (.inFlight event rest) with bus } := by
  have hlast : begun d [.publish d event] = [event] := by simp [begun]
  have hprogress := h.call running
  rw [hstage] at hprogress
  refine h.advance_store (.inFlight event rest) running ?_ ?_ (fun _ => rfl) rfl
    (h.bus.step begins) ((MemoryEventBus.State.step_alive begins (by simp)).trans h.alive) ?_ rfl
  · rw [appended_append, begun_append, hlast]
    exact ⟨by rw [← hprogress.1]; exact List.append_nil _, by rw [hprogress.2, List.append_assoc]; rfl, by simp⟩
  · intro d' hne
    simp [begun, Ne.symm hne]
  · intro d' pub hp
    by_cases hd : d' = d
    · subst hd
      rcases MemoryEventBus.State.step_publishes begins hp with ⟨pub₀, hold, _⟩ | hnew
      · exact absurd rfl (h.not_publishing running (by simp [hstage]) hold)
      · obtain ⟨_, rfl⟩ := MemoryEventBus.Label.publish.inj hnew
        exact .inl ⟨rfl, rest, rfl⟩
    · refine .inr ⟨hd, ?_⟩
      cases MemoryEventBus.step_effect begins with
      | publish p event alive idle => exact (AList.lookup_insert_ne hd).symm.trans hp

theorem step (h : Invariant tr σ) (hstep : σ.step l = some σ') : Invariant (tr ++ [l]) σ' := by
  cases step_effect hstep with
  | dispatch d events fresh => exact h.dispatched fresh
  | appended d event rest call r running stage answer => exact h.appended_one running stage answer
  | refused d event rest call error running stage answer =>
    exact h.fail running stage rfl (fun _ => rfl) (by simp [appended])
      (MemoryEventStore.State.append_of_error answer) rfl
  | appendFailed d event rest call error running stage =>
    exact h.fail running stage rfl (fun _ => rfl) (fun _ => rfl) rfl rfl
  | persisted d call running stage =>
    have hprogress := h.call running
    rw [stage] at hprogress
    refine h.advance_store (.publishing call.events) running ?_ (fun _ _ => rfl) (fun _ => rfl) rfl
      h.bus h.alive ?_ rfl
    · rw [appended_append, begun_append, hprogress.2]
      exact ⟨by simp [appended, hprogress.1], rfl⟩
    · intro d' pub hp
      exact .inr ⟨h.not_publishing running (by simp [stage]) hp, hp⟩
  | publish d event rest call bus running stage begins => exact h.begun_one running stage begins
  | published d event rest call running stage ended =>
    have hprogress := h.call running
    rw [stage] at hprogress
    refine h.advance_store (.publishing rest) running ?_ (fun _ _ => rfl) (fun _ => rfl) rfl
      h.bus h.alive ?_ rfl
    · rw [appended_append, begun_append]
      exact ⟨by rw [← hprogress.1]; exact List.append_nil _, by rw [hprogress.2.1]; simp [begun]⟩
    -- the publish it waited for is gone from the bus
    · intro d' pub hp
      refine .inr ⟨?_, hp⟩
      intro heq
      subst heq
      exact absurd (hp.symm.trans ended) (by simp)
  | returned d call running stage =>
    have hprogress := h.call running
    rw [stage] at hprogress
    refine h.advance_store (.returned (.ok ())) running ?_ (fun _ _ => rfl) (fun _ => rfl) rfl
      h.bus h.alive ?_ rfl
    · rw [appended_append, begun_append]
      exact ⟨by rw [← hprogress.1]; exact List.append_nil _, by rw [hprogress.2]; simp [begun]⟩
    · intro d' pub hp
      exact .inr ⟨h.not_publishing running (by simp [stage]) hp, hp⟩
  | bus l bus foreign stepped =>
    refine h.client rfl rfl (h.bus.step stepped) ?_ ?_ fun _ => ⟨rfl, rfl⟩
    · have hkept : l ≠ .dropBus := by
        intro heq
        simp [heq, isForeign] at foreign
      exact (MemoryEventBus.State.step_alive stepped hkept).trans h.alive
    · intro d pub' hp
      rcases MemoryEventBus.State.step_publishes stepped hp with hold | rfl
      · exact hold
      · simp [isForeign] at foreign
  | get id => exact h.client rfl rfl h.bus h.alive (fun hp => ⟨_, hp, rfl⟩) fun _ => ⟨rfl, rfl⟩
  | query q => exact h.client rfl rfl h.bus h.alive (fun hp => ⟨_, hp, rfl⟩) fun _ => ⟨rfl, rfl⟩

theorem run (h : (pipeline storeId queueCapacity).Run (State.new storeId queueCapacity) tr σ) :
    Invariant tr σ :=
  Lts.Run.induct (P := Invariant) (Invariant.new storeId queueCapacity) (fun _ _ _ _ _ ih hstep => ih.step hstep) h

/-- What a call has begun to publish is the beginning of its batch. -/
theorem begun_of_batch (h : Invariant tr σ) (hcall : σ.dispatches.lookup d = some call) :
    begun d tr <+: call.events :=
  (h.call hcall).batch.2.1

/-- What a call has appended is the beginning of its batch. -/
theorem appended_of_batch (h : Invariant tr σ) (hcall : σ.dispatches.lookup d = some call) :
    appended d tr <+: call.events :=
  (h.call hcall).batch.1

/-- A call has begun to publish an event only with its whole batch appended. -/
theorem batch_of_begun (h : Invariant tr σ) (he : event ∈ begun d tr) :
    ∃ call, σ.dispatches.lookup d = some call ∧ event ∈ call.events ∧ appended d tr = call.events := by
  cases hcall : σ.dispatches.lookup d with
  | none => simp [(h.uncalled hcall).2] at he
  | some call =>
    obtain ⟨_, hbegun, hnone | hall⟩ := (h.call hcall).batch
    · simp [hnone] at he
    · exact ⟨call, rfl, hbegun.subset he, hall⟩

end Invariant

end OrbitRelay.PipelineAdapter
