import OrbitRelay.Server.Progress

/-
  What a failed dispatch leaves behind.

  The call is taken by itself here: from any state of the store and of the bus
  the steps are its own to the end. It fails at the first event of its batch
  that conflicts with what is stored by then. Nothing has gone to the bus, but
  the events before that one are stored, and the store has no operation that
  would take a record back.
-/

namespace OrbitRelay.PipelineAdapter

open KeyedLog (added)

/-- The call whose publish takes a step of the bus. -/
def busTask : MemoryEventBus.Label → Option TaskId
  | .publish p _ => some p
  | .skip p _ => some p
  | .send p _ _ _ => some p
  | .countMissed p _ => some p
  | .endScan p => some p
  | .cleanUp p => some p
  | _ => none

/-- A step that call `d` takes. A memory store always answers an append, so
`appendFailed` is none of them. -/
def ownStep (d : TaskId) : Label → Bool
  | .append d' _ _ => d' = d
  | .persisted d' => d' = d
  | .publish d' _ => d' = d
  | .published d' => d' = d
  | .returned d' => d' = d
  | .bus l => busTask l = some d
  | _ => false

variable {storeId : EntityId} {queueCapacity : Nat} {σ τ υ : State} {l : Label} {tr : List Label} {d : TaskId}
  {events done : List Event} {event : Event} {error : PipelineError}

/-- Without a publish of the call the bus has no step for it. -/
theorem bus_step_eq_none {b : MemoryEventBus.State} (hidle : b.publishes.lookup d = none)
    {k : MemoryEventBus.Label} (hforeign : isForeign k = true) (htask : busTask k = some d) : b.step k = none := by
  rw [Option.eq_none_iff_forall_ne_some]
  intro b' hstep
  have hrunning : ∀ {p pub}, b.publishes.lookup p = some pub → busTask k = some p → False := by
    intro p pub running hp
    obtain rfl := Option.some.inj (hp.symm.trans htask)
    simp [hidle] at running
  cases MemoryEventBus.step_effect hstep with
  | publish p event => simp [isForeign] at hforeign
  | skip p s pub entry running => exact hrunning running rfl
  | send p s result pub entry m channel running => exact hrunning running rfl
  | countMissed p s pub m running => exact hrunning running rfl
  | published p pub running => exact hrunning running rfl
  | scanned p pub running => exact hrunning running rfl
  | cleanUp p pub running => exact hrunning running rfl
  | _ => simp [busTask] at htask

/-- What the first loop has made of the state `σ` once it has stored `done`. -/
structure Looped (σ : State) (done : List Event) (τ : State) : Prop where
  bus : τ.bus = σ.bus
  stored : ∀ e ∈ done, e ∈ τ.store.events
  events : τ.store.events = σ.store.events ++ added Event.id σ.store.events done
  same : (∀ e ∈ done, e ∈ σ.store.events) → τ.store = σ.store
  records : σ.store.records <+: τ.store.records

namespace Looped

theorem refl (σ : State) : Looped σ [] σ where
  bus := rfl
  stored := by simp
  events := (List.append_nil _).symm
  same := fun _ => rfl
  records := List.prefix_refl _

/-- One more event is stored. -/
theorem append (h : Looped σ done τ) {r : StoredEvent} (answer : (τ.store.append event).1 = .ok r)
    (hbus : υ.bus = τ.bus) (hstore : υ.store = (τ.store.append event).2) : Looped σ (done ++ [event]) υ where
  bus := hbus.trans h.bus
  stored := by
    intro e he
    rw [hstore]
    rcases MemoryEventStore.State.append_ok_events answer with ⟨hmem, hsame⟩ | ⟨_, hevents⟩
    · rw [hsame]
      rcases List.mem_append.mp he with he | he
      · exact h.stored e he
      · rwa [List.mem_singleton.mp he]
    · rw [hevents]
      rcases List.mem_append.mp he with he | he
      · exact List.mem_append_left _ (h.stored e he)
      · exact List.mem_append_right _ he
  events := by
    have hstored := h.stored
    rw [h.events] at hstored
    rw [hstore]
    rcases MemoryEventStore.State.append_ok_events answer with ⟨hmem, hsame⟩ | ⟨hfresh, hevents⟩
    · rw [h.events] at hmem
      rw [hsame, h.events, KeyedLog.added_snoc_of_mem Event.id hmem]
    · rw [h.events] at hfresh
      rw [hevents, h.events, KeyedLog.added_snoc_of_fresh Event.id hstored hfresh, List.append_assoc]
  same := by
    intro hall
    have hτ : τ.store = σ.store := h.same fun e he => hall e (List.mem_append_left _ he)
    have hmem : event ∈ τ.store.events := by
      rw [hτ]
      exact hall event (by simp)
    rcases MemoryEventStore.State.append_ok_events answer with ⟨_, hsame⟩ | ⟨hfresh, _⟩
    · rw [hstore, hsame, hτ]
    · exact absurd rfl (hfresh event hmem)
  records := by
    rw [hstore]
    exact h.records.trans (τ.store.append_prefix event)

end Looped

/-- How far the call has come, by itself from the state `σ`: in its first loop,
failed there, or past it. -/
def Alone (σ : State) (events : List Event) (τ : State) : Stage → Prop
  | .appending rest => ∃ done, events = done ++ rest ∧ Looped σ done τ
  | .returned (.error error) => ∃ done event rest, events = done ++ event :: rest ∧
      error = persistenceFailed event ∧ Looped σ done τ ∧
      ∃ r, τ.store.get event.id = some r ∧ r.event ≠ event
  | _ => True

/-- One step of the call. -/
theorem Alone.step {call : Dispatch} (h : Alone σ call.events τ call.stage)
    (hcall : τ.dispatches.lookup d = some call) (hidle : σ.bus.publishes.lookup d = none)
    (hown : ownStep d l = true) (hstep : τ.step l = some υ) :
    ∃ stage, υ.dispatches.lookup d = some { call with stage } ∧ Alone σ call.events υ stage := by
  have hself : ∀ {d' call'}, τ.dispatches.lookup d' = some call' → d' = d → call' = call ∧ d' = d := by
    intro d' call' hcall' hd
    subst hd
    exact ⟨Option.some.inj (hcall'.symm.trans hcall), rfl⟩
  cases step_effect hstep with
  | appended d' event rest call' r running stage answer =>
    obtain ⟨rfl, rfl⟩ := hself running (by simpa [ownStep] using hown)
    rw [stage] at h
    obtain ⟨done, hevents, hlooped⟩ := h
    refine ⟨_, lookup_setStage, done ++ [event], ?_, hlooped.append answer rfl rfl⟩
    rw [hevents, List.append_assoc]
    rfl
  | refused d' event rest call' error running stage answer =>
    obtain ⟨rfl, rfl⟩ := hself running (by simpa [ownStep] using hown)
    rw [stage] at h
    obtain ⟨done, hevents, hlooped⟩ := h
    have hsame := MemoryEventStore.State.append_of_error answer
    refine ⟨_, lookup_setStage, done, event, rest, hevents, rfl, ?_, ?_⟩
    · exact ⟨hlooped.bus, by simpa [hsame] using hlooped.stored, by simpa [hsame] using hlooped.events,
        by simpa [hsame] using hlooped.same, by simpa [hsame] using hlooped.records⟩
    · -- what refused it is the record with its id
      simp only [setStage_store, hsame]
      cases hget : τ.store.get event.id with
      | none =>
        rw [(MemoryEventStore.State.append_of_get_none hget).1] at answer
        simp at answer
      | some r =>
        refine ⟨r, rfl, ?_⟩
        intro heq
        rw [MemoryEventStore.State.append_of_get_some hget, if_pos heq] at answer
        simp at answer
  | appendFailed d' event rest call' => simp [ownStep] at hown
  | persisted d' call' running stage =>
    obtain ⟨rfl, rfl⟩ := hself running (by simpa [ownStep] using hown)
    exact ⟨_, lookup_setStage, trivial⟩
  | publish d' event rest call' bus running stage =>
    obtain ⟨rfl, rfl⟩ := hself running (by simpa [ownStep] using hown)
    exact ⟨_, lookup_setStage, trivial⟩
  | published d' event rest call' running stage =>
    obtain ⟨rfl, rfl⟩ := hself running (by simpa [ownStep] using hown)
    exact ⟨_, lookup_setStage, trivial⟩
  | returned d' call' running stage =>
    obtain ⟨rfl, rfl⟩ := hself running (by simpa [ownStep] using hown)
    exact ⟨_, lookup_setStage, trivial⟩
  | bus k bus foreign stepped =>
    have htask : busTask k = some d := by simpa [ownStep] using hown
    -- before its first publish the call has nothing on the bus, and `σ.bus` is the bus
    have hnone : ∀ {done}, Looped σ done τ → False := by
      intro done hlooped
      have hidle' : τ.bus.publishes.lookup d = none := by rw [hlooped.bus, hidle]
      exact absurd ((bus_step_eq_none hidle' foreign htask).symm.trans stepped) (by simp)
    refine ⟨call.stage, hcall, ?_⟩
    cases hstage : call.stage with
    | appending rest =>
      rw [hstage] at h
      obtain ⟨_, _, hlooped⟩ := h
      exact (hnone hlooped).elim
    | returned result =>
      cases result with
      | error error =>
        rw [hstage] at h
        obtain ⟨_, _, _, _, _, hlooped, _⟩ := h
        exact (hnone hlooped).elim
      | ok => trivial
    | publishing rest => trivial
    | inFlight event rest => trivial
  | _ => simp [ownStep] at hown

/-- **What a failed dispatch leaves behind.** A call by itself that returns an
error has stopped at an event that conflicts with the record stored under its
id. The bus is as it was. The store has kept its records and their places, and
has gained the events before that one, each once, in the order of the batch; so
it is as it was exactly if it had them all before. -/
theorem failed_dispatch_alone (h : (pipeline storeId queueCapacity).Run σ (.dispatch d events :: tr) τ)
    (hidle : σ.bus.publishes.lookup d = none) (hown : ∀ l ∈ tr, ownStep d l = true)
    (hcall : τ.dispatches.lookup d = some ⟨events, .returned (.error error)⟩) :
    τ.bus = σ.bus ∧
    ∃ done event rest, events = done ++ event :: rest ∧ error = persistenceFailed event ∧
      (∃ r, τ.store.get event.id = some r ∧ r.event ≠ event) ∧
      σ.store.records <+: τ.store.records ∧
      (∀ id i, σ.store.eventIndices.lookup id = some i → τ.store.eventIndices.lookup id = some i) ∧
      τ.store.events = σ.store.events ++ added Event.id σ.store.events done ∧
      (τ.store = σ.store ↔ ∀ e ∈ done, e ∈ σ.store.events) := by
  obtain ⟨σ₁, (hdispatch : σ.step (.dispatch d events) = some σ₁), hrun⟩ := Lts.run_cons.mp h
  have hstart : σ₁.dispatches.lookup d = some ⟨events, .appending events⟩ ∧
      Alone σ events σ₁ (.appending events) := by
    cases step_effect hdispatch with
    | dispatch d events fresh =>
      have hlooped := Looped.refl σ
      exact ⟨AList.lookup_insert _, [], rfl, hlooped.bus, hlooped.stored, hlooped.events, hlooped.same,
        hlooped.records⟩
  have hend : ∃ stage, τ.dispatches.lookup d = some ⟨events, stage⟩ ∧ Alone σ events τ stage := by
    refine Lts.Run.induct (P := fun tr τ => (∀ l ∈ tr, ownStep d l = true) →
      ∃ stage, τ.dispatches.lookup d = some ⟨events, stage⟩ ∧ Alone σ events τ stage) ?_ ?_ hrun hown
    · exact fun _ => ⟨_, hstart⟩
    · intro tr ρ l υ _ ih hstep hown
      obtain ⟨stage, hρ, halone⟩ := ih fun l hl => hown l (List.mem_append_left _ hl)
      exact halone.step hρ hidle (hown l (by simp)) hstep
  obtain ⟨stage, hτ, halone⟩ := hend
  obtain ⟨_, rfl⟩ := Dispatch.mk.inj (Option.some.inj (hτ.symm.trans hcall))
  obtain ⟨done, event, rest, hevents, herror, hlooped, hconflict⟩ := halone
  refine ⟨hlooped.bus, done, event, rest, hevents, herror, hconflict, hlooped.records, ?_, hlooped.events, ?_, hlooped.same⟩
  · intro id i hi
    obtain ⟨r, hr, hid⟩ := Option.map_eq_some_iff.mp ((σ.store.indexed id i).mp hi)
    apply (τ.store.indexed id i).mpr
    obtain ⟨more, hmore⟩ := hlooped.records
    rw [← hmore, List.getElem?_append_left (List.getElem?_eq_some_iff.mp hr).1, hr, Option.map_some, hid]
  · intro hsame e he
    rw [← hsame]
    exact hlooped.stored e he

/-- A batch of two, the second with the id of the first. -/
def halfBatch : List Event := [Event.plain default ⟨"half.kept"⟩, Event.plain default ⟨"half.refused"⟩]

def halfDispatched : List Label :=
  let kept := Event.plain default ⟨"half.kept"⟩
  let refused := Event.plain default ⟨"half.refused"⟩
  [.append 1 kept (.ok ⟨.forMemory default 1, kept⟩), .append 1 refused (.error (.eventConflict refused.id))]

theorem failed_dispatch_alone_half :
    ∃ done event rest, halfBatch = done ++ event :: rest ∧
      ((pipeline default 1).after (.dispatch 1 halfBatch :: halfDispatched) (by decide)).store.events =
        added Event.id [] done := by
  have hrun := (pipeline default 1).run_after (.dispatch 1 halfBatch :: halfDispatched) (by decide)
  have hcall : ((pipeline default 1).after (.dispatch 1 halfBatch :: halfDispatched) (by decide)).dispatches.lookup 1 =
      some ⟨halfBatch, .returned (.error (persistenceFailed (Event.plain default ⟨"half.refused"⟩)))⟩ := by decide
  obtain ⟨_, done, event, rest, hbatch, _, _, _, _, hevents, _⟩ :=
    failed_dispatch_alone hrun rfl (by decide) hcall
  exact ⟨done, event, rest, hbatch, hevents⟩

/-- The first of the two stays. -/
theorem failed_dispatch_keeps_events : ¬ ∀ σ τ tr d events error,
    (pipeline default 1).Run σ (.dispatch d events :: tr) τ → σ.bus.publishes.lookup d = none →
    (∀ l ∈ tr, ownStep d l = true) → τ.dispatches.lookup d = some ⟨events, .returned (.error error)⟩ →
    τ.store.records = σ.store.records ∧ τ.bus = σ.bus := by
  intro hall
  have hrun := (pipeline default 1).run_after (.dispatch 1 halfBatch :: halfDispatched) (by decide)
  have hcall : ((pipeline default 1).after (.dispatch 1 halfBatch :: halfDispatched) (by decide)).dispatches.lookup 1 =
      some ⟨halfBatch, .returned (.error (persistenceFailed (Event.plain default ⟨"half.refused"⟩)))⟩ := by decide
  have hsame := (hall _ _ _ _ _ _ hrun rfl (by decide) hcall).1
  exact absurd (congrArg List.length hsame) (by decide)

end OrbitRelay.PipelineAdapter
