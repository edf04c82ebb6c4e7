import OrbitRelay.Runtime.Handler
import OrbitRelay.Server.Pipeline

/-
  The execution of actions (orbitrelay-runtime: runtime.rs).

  `execute` looks its handler up once, awaits the handler, the authorizer and
  the handler again, makes the events and awaits the pipeline. Calls run side by
  side, and the registry changes under them; a call keeps the handler it found.
  The events are made in one step with the start of the dispatch, since the
  source does not await in between and only reads the clock and draws ids.

  The pipeline is a `PipelineAdapter`, and its dispatches are those of the calls
  here: a call and its dispatch have the same task. All other steps of the
  pipeline, of its store and of its bus, are `pipeline` steps.

  Correspondence (Rust ↔ Lean):
    `HandlerRegistry::register`, `unregister`  ↔ `register`, `unregister`
    `self.registry.get(..)`                    ↔ `lookup`
    `handler.validate(..).await`               ↔ `validated`
    `authorizer().authorize(..).await`         ↔ `authorized`
    `handler.handle(..).await`                 ↔ `handled`
    `into_iter().map(..)`, `dispatch(&events)` ↔ `dispatch`
    the end of `.await` on the dispatch        ↔ `returned`
-/

namespace OrbitRelay.Runtime

/-- Where a call of `execute` stands. -/
inductive Stage where
  | started
  | validating (handler : HandlerId)
  | authorizing (handler : HandlerId)
  | handling (handler : HandlerId)
  | handled (drafts : List EventDraft)
  | dispatching (events : List Event)
  | returned (result : Except RuntimeError (List Event))
  deriving DecidableEq

/-- A call of `execute`. -/
structure Execution where
  action : Action
  stage : Stage
  deriving DecidableEq

/-- A runtime, and the calls in progress or over. -/
structure State where
  registry : HandlerRegistry
  pipeline : PipelineAdapter.State
  executions : Table TaskId Execution

inductive Label where
  | register (actionType : ActionType) (handler : HandlerId) (result : Except RegistryError Unit)
  | unregister (actionType : ActionType) (result : Option HandlerId)
  | execute (x : TaskId) (action : Action)
  | lookup (x : TaskId) (result : Option HandlerId)
  | validated (x : TaskId) (handler : HandlerId) (result : Except HandlerError Unit)
  | authorized (x : TaskId) (result : Except AuthorizationError Unit)
  | handled (x : TaskId) (handler : HandlerId) (result : Except HandlerError (List EventDraft))
  | dispatch (x : TaskId) (stamps : List Stamp) (events : List Event)
  | returned (x : TaskId) (result : Except RuntimeError (List Event))
  /-- a step of the pipeline that is not the start of a dispatch -/
  | pipeline (l : PipelineAdapter.Label)

/-- The steps of the pipeline that are not for the runtime to take. -/
def isForeign : PipelineAdapter.Label → Bool
  | .dispatch _ _ => false
  | _ => true

/-- Where the call goes with what the lookup found. -/
def afterLookup (action : Action) : Option HandlerId → Stage
  | some handler => .validating handler
  | none => .returned (.error (.handlerNotFound action.actionType))

def afterValidate (action : Action) (handler : HandlerId) : Except HandlerError Unit → Stage
  | .ok () => .authorizing handler
  | .error source => .returned (.error (.validationFailed action.id source))

def afterAuthorize (action : Action) (handler : HandlerId) : Except AuthorizationError Unit → Stage
  | .ok () => .handling handler
  | .error source => .returned (.error (.authorizationFailed action.id source))

def afterHandle (action : Action) : Except HandlerError (List EventDraft) → Stage
  | .ok drafts => .handled drafts
  | .error source => .returned (.error (.handlerFailed action.id source))

/-- What the call returns with what the dispatch did. -/
def afterDispatch (action : Action) (events : List Event) :
    Except PipelineError Unit → Except RuntimeError (List Event)
  | .ok () => .ok events
  | .error source => .error (.pipelineFailed action.id source)

namespace State

def new (storeId : EntityId) (queueCapacity : Nat) : State :=
  ⟨HandlerRegistry.new, PipelineAdapter.State.new storeId queueCapacity, ∅⟩

/-- The state with the call `x` at another stage. -/
def setStage (ρ : State) (x : TaskId) (e : Execution) (stage : Stage) : State :=
  { ρ with executions := ρ.executions.insert x { e with stage } }

def step (ρ : State) : Label → Option State
  | .register actionType handler result =>
    if (ρ.registry.register actionType handler).1 = result then
      some { ρ with registry := (ρ.registry.register actionType handler).2 }
    else none
  | .unregister actionType result =>
    if (ρ.registry.unregister actionType).1 = result then
      some { ρ with registry := (ρ.registry.unregister actionType).2 }
    else none
  | .execute x action =>
    if ρ.executions.lookup x = none then
      some { ρ with executions := ρ.executions.insert x ⟨action, .started⟩ }
    else none
  | .lookup x result => do
    let e ← ρ.executions.lookup x
    if e.stage = .started ∧ ρ.registry.get e.action.actionType = result then
      some (ρ.setStage x e (afterLookup e.action result))
    else none
  -- the handler is the one the call holds, whatever the registry has by now
  | .validated x handler result => do
    let e ← ρ.executions.lookup x
    if e.stage = .validating handler then some (ρ.setStage x e (afterValidate e.action handler result)) else none
  | .authorized x result => do
    let e ← ρ.executions.lookup x
    match e.stage with
    | .authorizing handler => some (ρ.setStage x e (afterAuthorize e.action handler result))
    | _ => none
  | .handled x handler result => do
    let e ← ρ.executions.lookup x
    if e.stage = .handling handler then some (ρ.setStage x e (afterHandle e.action result)) else none
  | .dispatch x stamps events => do
    let e ← ρ.executions.lookup x
    match e.stage with
    | .handled drafts =>
      -- one id and one reading of the clock for each draft
      if stamps.length = drafts.length ∧ e.action.materialize drafts stamps = events then
        (ρ.pipeline.step (.dispatch x events)).map fun pipeline =>
          { ρ.setStage x e (.dispatching events) with pipeline }
      else none
    | _ => none
  | .returned x result => do
    let e ← ρ.executions.lookup x
    let call ← ρ.pipeline.dispatches.lookup x
    match e.stage, call.stage with
    | .dispatching events, .returned outcome =>
      if afterDispatch e.action events outcome = result then some (ρ.setStage x e (.returned result)) else none
    | _, _ => none
  | .pipeline l => if isForeign l then (ρ.pipeline.step l).map fun pipeline => { ρ with pipeline } else none

end State

/-- A runtime with its callers, and the clients of its registry, its store and
its bus. -/
def runtime (storeId : EntityId) (queueCapacity : Nat) : Lts State Label :=
  ⟨State.new storeId queueCapacity, State.step⟩

theorem run_split {storeId : EntityId} {queueCapacity : Nat} {ρ τ : State} {pre post : List Label} {l : Label} :
    (runtime storeId queueCapacity).Run ρ (pre ++ l :: post) τ ↔
      ∃ ρ₀ ρ₁, (runtime storeId queueCapacity).Run ρ pre ρ₀ ∧ ρ₀.step l = some ρ₁ ∧
        (runtime storeId queueCapacity).Run ρ₁ post τ :=
  Lts.run_split

/-! ## What a step does -/

/-- The ways a step can go, each with what it finds and what it leaves. -/
inductive Effect (ρ : State) : Label → State → Prop where
  | register (actionType : ActionType) (handler : HandlerId) :
      Effect ρ (.register actionType handler (ρ.registry.register actionType handler).1)
        { ρ with registry := (ρ.registry.register actionType handler).2 }
  | unregister (actionType : ActionType) :
      Effect ρ (.unregister actionType (ρ.registry.unregister actionType).1)
        { ρ with registry := (ρ.registry.unregister actionType).2 }
  | execute (x : TaskId) (action : Action) (fresh : ρ.executions.lookup x = none) :
      Effect ρ (.execute x action) { ρ with executions := ρ.executions.insert x ⟨action, .started⟩ }
  | lookup (x : TaskId) (e : Execution) (running : ρ.executions.lookup x = some e) (stage : e.stage = .started) :
      Effect ρ (.lookup x (ρ.registry.get e.action.actionType))
        (ρ.setStage x e (afterLookup e.action (ρ.registry.get e.action.actionType)))
  | validated (x : TaskId) (handler : HandlerId) (result : Except HandlerError Unit) (e : Execution)
      (running : ρ.executions.lookup x = some e) (stage : e.stage = .validating handler) :
      Effect ρ (.validated x handler result) (ρ.setStage x e (afterValidate e.action handler result))
  | authorized (x : TaskId) (handler : HandlerId) (result : Except AuthorizationError Unit) (e : Execution)
      (running : ρ.executions.lookup x = some e) (stage : e.stage = .authorizing handler) :
      Effect ρ (.authorized x result) (ρ.setStage x e (afterAuthorize e.action handler result))
  | handled (x : TaskId) (handler : HandlerId) (result : Except HandlerError (List EventDraft)) (e : Execution)
      (running : ρ.executions.lookup x = some e) (stage : e.stage = .handling handler) :
      Effect ρ (.handled x handler result) (ρ.setStage x e (afterHandle e.action result))
  | dispatch (x : TaskId) (stamps : List Stamp) (e : Execution) (drafts : List EventDraft)
      (pipeline : PipelineAdapter.State) (running : ρ.executions.lookup x = some e) (stage : e.stage = .handled drafts)
      (stamped : stamps.length = drafts.length)
      (begun : ρ.pipeline.step (.dispatch x (e.action.materialize drafts stamps)) = some pipeline) :
      Effect ρ (.dispatch x stamps (e.action.materialize drafts stamps))
        { ρ.setStage x e (.dispatching (e.action.materialize drafts stamps)) with pipeline }
  | returned (x : TaskId) (e : Execution) (events : List Event) (call : PipelineAdapter.Dispatch)
      (outcome : Except PipelineError Unit) (running : ρ.executions.lookup x = some e)
      (stage : e.stage = .dispatching events) (called : ρ.pipeline.dispatches.lookup x = some call)
      (ended : call.stage = .returned outcome) :
      Effect ρ (.returned x (afterDispatch e.action events outcome))
        (ρ.setStage x e (.returned (afterDispatch e.action events outcome)))
  | pipeline (l : PipelineAdapter.Label) (pipeline : PipelineAdapter.State) (foreign : isForeign l = true)
      (stepped : ρ.pipeline.step l = some pipeline) : Effect ρ (.pipeline l) { ρ with pipeline }

theorem step_effect {ρ ρ' : State} {l : Label} (h : ρ.step l = some ρ') : Effect ρ l ρ' := by
  cases l with
  | register actionType handler result =>
    simp only [State.step, Option.ite_none_right_eq_some, Option.some.injEq] at h
    obtain ⟨rfl, rfl⟩ := h
    exact .register actionType handler
  | unregister actionType result =>
    simp only [State.step, Option.ite_none_right_eq_some, Option.some.injEq] at h
    obtain ⟨rfl, rfl⟩ := h
    exact .unregister actionType
  | execute x action =>
    simp only [State.step, Option.ite_none_right_eq_some, Option.some.injEq] at h
    obtain ⟨fresh, rfl⟩ := h
    exact .execute x action fresh
  | lookup x result =>
    simp only [State.step, Option.bind_eq_bind, Option.bind_eq_some_iff, Option.ite_none_right_eq_some,
      Option.some.injEq] at h
    obtain ⟨e, running, ⟨stage, rfl⟩, rfl⟩ := h
    exact .lookup x e running stage
  | validated x handler result =>
    simp only [State.step, Option.bind_eq_bind, Option.bind_eq_some_iff, Option.ite_none_right_eq_some,
      Option.some.injEq] at h
    obtain ⟨e, running, stage, rfl⟩ := h
    exact .validated x handler result e running stage
  | authorized x result =>
    simp only [State.step, Option.bind_eq_bind, Option.bind_eq_some_iff] at h
    obtain ⟨e, running, h⟩ := h
    split at h
    · next handler stage =>
      obtain rfl := Option.some.inj h
      exact .authorized x handler result e running stage
    · simp at h
  | handled x handler result =>
    simp only [State.step, Option.bind_eq_bind, Option.bind_eq_some_iff, Option.ite_none_right_eq_some,
      Option.some.injEq] at h
    obtain ⟨e, running, stage, rfl⟩ := h
    exact .handled x handler result e running stage
  | dispatch x stamps events =>
    simp only [State.step, Option.bind_eq_bind, Option.bind_eq_some_iff] at h
    obtain ⟨e, running, h⟩ := h
    split at h
    · next drafts stage =>
      simp only [Option.ite_none_right_eq_some, Option.map_eq_some_iff] at h
      obtain ⟨⟨stamped, rfl⟩, pipeline, begun, rfl⟩ := h
      exact .dispatch x stamps e drafts pipeline running stage stamped begun
    · simp at h
  | returned x result =>
    simp only [State.step, Option.bind_eq_bind, Option.bind_eq_some_iff] at h
    obtain ⟨e, running, call, called, h⟩ := h
    split at h
    · next events outcome stage ended =>
      simp only [Option.ite_none_right_eq_some, Option.some.injEq] at h
      obtain ⟨rfl, rfl⟩ := h
      exact .returned x e events call outcome running stage called ended
    · simp at h
  | pipeline l =>
    simp only [State.step, Option.ite_none_right_eq_some, Option.map_eq_some_iff] at h
    obtain ⟨foreign, pipeline, stepped, rfl⟩ := h
    exact .pipeline l pipeline foreign stepped

end OrbitRelay.Runtime
