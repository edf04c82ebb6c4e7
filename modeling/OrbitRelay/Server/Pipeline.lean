import OrbitRelay.Runtime.Handler
import OrbitRelay.Storage.Log
import OrbitRelay.Sync.Delivery

/-
  The pipeline from the store to the bus (orbitrelay-server: pipeline.rs).

  `dispatch` appends its whole batch to the store and then publishes it, event
  by event. Calls run side by side: between two steps of one come steps of the
  others, of the publishes they have started, and of the clients of the store
  and of the bus. An append is one step, since it runs under the store's lock;
  a publish is as many as the bus takes for it.

  The adapter holds a handle of the bus, so `dropBus` is no step here, and
  every publish is one of a dispatch. `MemoryEventBus::publish` never fails, so
  the second `map_err` of the source is never reached; the first is, by a
  conflict or by a store that fails to append and changes nothing.

  Correspondence (Rust ↔ Lean):
    `dispatch`, first loop     ↔ `append`, `appendFailed`, `persisted`
    `dispatch`, second loop    ↔ `publish`, `published`, `returned`
    `PipelineError::new(..)`   ↔ `persistenceFailed`
-/

namespace OrbitRelay

namespace PipelineAdapter

/-- The error for an event that was not stored. -/
def persistenceFailed (event : Event) : PipelineError :=
  ⟨"event persistence failed for `" ++ event.id.entityId.text ++ "`"⟩

/-- Where a call of `dispatch` stands, with what its loop has left. -/
inductive Stage where
  | appending (rest : List Event)
  | publishing (rest : List Event)
  /-- waiting for the publish of an event -/
  | inFlight (event : Event) (rest : List Event)
  | returned (result : Except PipelineError Unit)
  deriving DecidableEq

/-- A call of `dispatch`. -/
structure Dispatch where
  events : List Event
  stage : Stage
  deriving DecidableEq

/-- A store and a bus, and the calls of the adapter that joins them. -/
structure State where
  store : MemoryEventStore.State
  bus : MemoryEventBus.State
  dispatches : Table TaskId Dispatch

inductive Label where
  | dispatch (d : TaskId) (events : List Event)
  | append (d : TaskId) (event : Event) (result : Except StorageError StoredEvent)
  /-- the store fails to append and changes nothing -/
  | appendFailed (d : TaskId) (event : Event) (error : StorageError)
  | persisted (d : TaskId)
  | publish (d : TaskId) (event : Event)
  | published (d : TaskId)
  | returned (d : TaskId)
  /-- a step of the bus that is not the start of a publish -/
  | bus (l : MemoryEventBus.Label)
  | get (id : EventId) (result : Option StoredEvent)
  | query (q : EventQuery) (result : Except StorageError EventPage)

/-- The steps of the bus that are not for the adapter to take. -/
def isForeign : MemoryEventBus.Label → Bool
  | .publish _ _ => false
  | .dropBus => false
  | _ => true

namespace State

def new (storeId : EntityId) (queueCapacity : Nat) : State :=
  ⟨MemoryEventStore.State.new storeId, MemoryEventBus.State.new queueCapacity, ∅⟩

/-- The state with the call `d` at another stage. -/
def setStage (σ : State) (d : TaskId) (call : Dispatch) (stage : Stage) : State :=
  { σ with dispatches := σ.dispatches.insert d { call with stage } }

def step (σ : State) : Label → Option State
  | .dispatch d events =>
    if σ.dispatches.lookup d = none then
      some { σ with dispatches := σ.dispatches.insert d ⟨events, .appending events⟩ }
    else none
  | .append d event result => do
    let call ← σ.dispatches.lookup d
    match call.stage with
    | .appending (e :: rest) =>
      if e = event ∧ (σ.store.append event).1 = result then
        let σ := { σ with store := (σ.store.append event).2 }
        match result with
        | .ok _ => some (σ.setStage d call (.appending rest))
        | .error _ => some (σ.setStage d call (.returned (.error (persistenceFailed event))))
      else none
    | _ => none
  | .appendFailed d event _ => do
    let call ← σ.dispatches.lookup d
    match call.stage with
    | .appending (e :: _) =>
      if e = event then some (σ.setStage d call (.returned (.error (persistenceFailed event)))) else none
    | _ => none
  | .persisted d => do
    let call ← σ.dispatches.lookup d
    if call.stage = .appending [] then some (σ.setStage d call (.publishing call.events)) else none
  | .publish d event => do
    let call ← σ.dispatches.lookup d
    match call.stage with
    | .publishing (e :: rest) =>
      if e = event then
        (σ.bus.step (.publish d event)).map fun bus => { σ.setStage d call (.inFlight event rest) with bus }
      else none
    | _ => none
  | .published d => do
    let call ← σ.dispatches.lookup d
    match call.stage with
    | .inFlight _ rest =>
      if σ.bus.publishes.lookup d = none then some (σ.setStage d call (.publishing rest)) else none
    | _ => none
  | .returned d => do
    let call ← σ.dispatches.lookup d
    if call.stage = .publishing [] then some (σ.setStage d call (.returned (.ok ()))) else none
  | .bus l => if isForeign l then (σ.bus.step l).map fun bus => { σ with bus } else none
  | .get id result => if σ.store.get id = result then some σ else none
  | .query q result => if σ.store.query q = result then some σ else none

end State

/-- The adapter with its callers, and the clients of its store and its bus. -/
def pipeline (storeId : EntityId) (queueCapacity : Nat) : Lts State Label :=
  ⟨State.new storeId queueCapacity, State.step⟩

theorem run_split {storeId : EntityId} {queueCapacity : Nat} {σ τ : State} {pre post : List Label} {l : Label} :
    (pipeline storeId queueCapacity).Run σ (pre ++ l :: post) τ ↔
      ∃ σ₀ σ₁, (pipeline storeId queueCapacity).Run σ pre σ₀ ∧ σ₀.step l = some σ₁ ∧
        (pipeline storeId queueCapacity).Run σ₁ post τ :=
  Lts.run_split

/-! ## What a step does -/

/-- The ways a step can go, each with what it finds and what it leaves. -/
inductive Effect (σ : State) : Label → State → Prop where
  | dispatch (d : TaskId) (events : List Event) (fresh : σ.dispatches.lookup d = none) :
      Effect σ (.dispatch d events)
        { σ with dispatches := σ.dispatches.insert d ⟨events, .appending events⟩ }
  | appended (d : TaskId) (event : Event) (rest : List Event) (call : Dispatch) (r : StoredEvent)
      (running : σ.dispatches.lookup d = some call) (stage : call.stage = .appending (event :: rest))
      (answer : (σ.store.append event).1 = .ok r) :
      Effect σ (.append d event (.ok r))
        ({ σ with store := (σ.store.append event).2 }.setStage d call (.appending rest))
  | refused (d : TaskId) (event : Event) (rest : List Event) (call : Dispatch) (error : StorageError)
      (running : σ.dispatches.lookup d = some call) (stage : call.stage = .appending (event :: rest))
      (answer : (σ.store.append event).1 = .error error) :
      Effect σ (.append d event (.error error))
        ({ σ with store := (σ.store.append event).2 }.setStage d call
          (.returned (.error (persistenceFailed event))))
  | appendFailed (d : TaskId) (event : Event) (rest : List Event) (call : Dispatch) (error : StorageError)
      (running : σ.dispatches.lookup d = some call) (stage : call.stage = .appending (event :: rest)) :
      Effect σ (.appendFailed d event error)
        (σ.setStage d call (.returned (.error (persistenceFailed event))))
  | persisted (d : TaskId) (call : Dispatch) (running : σ.dispatches.lookup d = some call)
      (stage : call.stage = .appending []) :
      Effect σ (.persisted d) (σ.setStage d call (.publishing call.events))
  | publish (d : TaskId) (event : Event) (rest : List Event) (call : Dispatch) (bus : MemoryEventBus.State)
      (running : σ.dispatches.lookup d = some call) (stage : call.stage = .publishing (event :: rest))
      (begun : σ.bus.step (.publish d event) = some bus) :
      Effect σ (.publish d event) { σ.setStage d call (.inFlight event rest) with bus }
  | published (d : TaskId) (event : Event) (rest : List Event) (call : Dispatch)
      (running : σ.dispatches.lookup d = some call) (stage : call.stage = .inFlight event rest)
      (ended : σ.bus.publishes.lookup d = none) :
      Effect σ (.published d) (σ.setStage d call (.publishing rest))
  | returned (d : TaskId) (call : Dispatch) (running : σ.dispatches.lookup d = some call)
      (stage : call.stage = .publishing []) :
      Effect σ (.returned d) (σ.setStage d call (.returned (.ok ())))
  | bus (l : MemoryEventBus.Label) (bus : MemoryEventBus.State) (foreign : isForeign l = true)
      (stepped : σ.bus.step l = some bus) : Effect σ (.bus l) { σ with bus }
  | get (id : EventId) : Effect σ (.get id (σ.store.get id)) σ
  | query (q : EventQuery) : Effect σ (.query q (σ.store.query q)) σ

theorem step_effect {σ σ' : State} {l : Label} (h : σ.step l = some σ') : Effect σ l σ' := by
  cases l with
  | dispatch d events =>
    simp only [State.step, Option.ite_none_right_eq_some, Option.some.injEq] at h
    obtain ⟨fresh, rfl⟩ := h
    exact .dispatch d events fresh
  | append d event result =>
    simp only [State.step, Option.bind_eq_bind, Option.bind_eq_some_iff] at h
    obtain ⟨call, running, h⟩ := h
    split at h
    · next e rest stage =>
      simp only [Option.ite_none_right_eq_some] at h
      obtain ⟨⟨rfl, answer⟩, h⟩ := h
      split at h
      · obtain rfl := Option.some.inj h
        exact .appended d e rest call _ running stage answer
      · obtain rfl := Option.some.inj h
        exact .refused d e rest call _ running stage answer
    · simp at h
  | appendFailed d event error =>
    simp only [State.step, Option.bind_eq_bind, Option.bind_eq_some_iff] at h
    obtain ⟨call, running, h⟩ := h
    split at h
    · next e rest stage =>
      simp only [Option.ite_none_right_eq_some, Option.some.injEq] at h
      obtain ⟨rfl, rfl⟩ := h
      exact .appendFailed d e rest call error running stage
    · simp at h
  | persisted d =>
    simp only [State.step, Option.bind_eq_bind, Option.bind_eq_some_iff, Option.ite_none_right_eq_some,
      Option.some.injEq] at h
    obtain ⟨call, running, stage, rfl⟩ := h
    exact .persisted d call running stage
  | publish d event =>
    simp only [State.step, Option.bind_eq_bind, Option.bind_eq_some_iff] at h
    obtain ⟨call, running, h⟩ := h
    split at h
    · next e rest stage =>
      simp only [Option.ite_none_right_eq_some, Option.map_eq_some_iff] at h
      obtain ⟨rfl, bus, begun, rfl⟩ := h
      exact .publish d e rest call bus running stage begun
    · simp at h
  | published d =>
    simp only [State.step, Option.bind_eq_bind, Option.bind_eq_some_iff] at h
    obtain ⟨call, running, h⟩ := h
    split at h
    · next e rest stage =>
      simp only [Option.ite_none_right_eq_some, Option.some.injEq] at h
      obtain ⟨ended, rfl⟩ := h
      exact .published d e rest call running stage ended
    · simp at h
  | returned d =>
    simp only [State.step, Option.bind_eq_bind, Option.bind_eq_some_iff, Option.ite_none_right_eq_some,
      Option.some.injEq] at h
    obtain ⟨call, running, stage, rfl⟩ := h
    exact .returned d call running stage
  | bus l =>
    simp only [State.step, Option.ite_none_right_eq_some, Option.map_eq_some_iff] at h
    obtain ⟨foreign, bus, stepped, rfl⟩ := h
    exact .bus l bus foreign stepped
  | get id result =>
    simp only [State.step, Option.ite_none_right_eq_some, Option.some.injEq] at h
    obtain ⟨rfl, rfl⟩ := h
    exact .get id
  | query q result =>
    simp only [State.step, Option.ite_none_right_eq_some, Option.some.injEq] at h
    obtain ⟨rfl, rfl⟩ := h
    exact .query q

end PipelineAdapter

end OrbitRelay
