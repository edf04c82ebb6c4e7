import OrbitRelay.Lib.Table
import OrbitRelay.Protocol

/-
  Handlers, drafts and the registry (orbitrelay-runtime: handler.rs,
  registry.rs, error.rs).

  A handler is code of the application. It is known here by the identity of its
  `Arc`; what its methods answer is part of each label of a run, so a statement
  about every run is one about every handler. The same goes for the authorizer
  and the clock.
-/

namespace OrbitRelay

/-- An error returned while validating or handling an action. -/
structure HandlerError where
  message : String
  deriving DecidableEq

/-- An error returned by an external action authorizer. -/
structure AuthorizationError where
  message : String
  deriving DecidableEq

/-- An error returned while dispatching generated events. -/
structure PipelineError where
  message : String
  deriving DecidableEq

/-- Errors produced while changing the handler registry. -/
inductive RegistryError where
  | alreadyRegistered (actionType : ActionType)
  deriving DecidableEq

/-- Errors produced while executing an action lifecycle. -/
inductive RuntimeError where
  | handlerNotFound (actionType : ActionType)
  | validationFailed (actionId : ActionId) (source : HandlerError)
  | authorizationFailed (actionId : ActionId) (source : AuthorizationError)
  | handlerFailed (actionId : ActionId) (source : HandlerError)
  | pipelineFailed (actionId : ActionId) (source : PipelineError)
  deriving DecidableEq

/-- The handler-produced portion of an event. -/
structure EventDraft where
  eventType : EventType
  payload : Payload
  metadata : Metadata
  deriving DecidableEq

/-- What the runtime takes from outside for one event: a new id and the time. -/
structure Stamp where
  id : EventId
  now : Timestamp
  deriving DecidableEq

/-- The event for one draft. -/
def Action.event (action : Action) (draft : EventDraft) (stamp : Stamp) : Event where
  id := stamp.id
  sessionId := action.sessionId
  actorId := action.actorId
  actionId := action.id
  eventType := draft.eventType
  occurredAt := stamp.now
  payload := draft.payload
  metadata := draft.metadata

/-- The events for the drafts of a call, each with its stamp. -/
def Action.materialize (action : Action) (drafts : List EventDraft) (stamps : List Stamp) : List Event :=
  (drafts.zip stamps).map fun x => action.event x.1 x.2

/-- The handler's part of an event. -/
def Event.draft (event : Event) : EventDraft := ⟨event.eventType, event.payload, event.metadata⟩

section

variable {action : Action} {drafts : List EventDraft} {stamps : List Stamp}

/-- The events carry the drafts, in their order. -/
theorem Action.materialize_draft (h : stamps.length = drafts.length) :
    (action.materialize drafts stamps).map Event.draft = drafts := by
  rw [materialize, List.map_map]
  exact List.map_fst_zip (Nat.le_of_eq h.symm)

/-- The events carry the ids, in their order. -/
theorem Action.materialize_id (h : stamps.length = drafts.length) :
    (action.materialize drafts stamps).map (·.id) = stamps.map (·.id) := by
  calc (action.materialize drafts stamps).map (·.id)
      = ((drafts.zip stamps).map Prod.snd).map (·.id) := by
        rw [materialize, List.map_map, List.map_map]
        rfl
    _ = stamps.map (·.id) := by rw [List.map_snd_zip (Nat.le_of_eq h)]

/-- Every event is that of one draft, at the same place. -/
theorem Action.materialize_getElem? {i : Nat} {event : Event} :
    (action.materialize drafts stamps)[i]? = some event ↔
      ∃ draft stamp, drafts[i]? = some draft ∧ stamps[i]? = some stamp ∧ action.event draft stamp = event := by
  rw [materialize, List.getElem?_map, Option.map_eq_some_iff]
  constructor
  · intro h
    obtain ⟨⟨draft, stamp⟩, hzip, rfl⟩ := h
    obtain ⟨hdraft, hstamp⟩ := List.getElem?_zip_eq_some.mp hzip
    exact ⟨draft, stamp, hdraft, hstamp, rfl⟩
  · intro h
    obtain ⟨draft, stamp, hdraft, hstamp, rfl⟩ := h
    exact ⟨(draft, stamp), List.getElem?_zip_eq_some.mpr ⟨hdraft, hstamp⟩, rfl⟩

end

/-! ## The registry -/

/-- A handler, by the identity of its `Arc`. -/
abbrev HandlerId := Nat

/-- A mapping from action types to shared handlers. -/
abbrev HandlerRegistry := Table ActionType HandlerId

namespace HandlerRegistry

def new : HandlerRegistry := ∅

/-- Registers a handler without replacing an existing registration. -/
def register (handlers : HandlerRegistry) (actionType : ActionType) (handler : HandlerId) :
    Except RegistryError Unit × HandlerRegistry :=
  if (handlers.lookup actionType).isSome then (.error (.alreadyRegistered actionType), handlers)
  else (.ok (), handlers.insert actionType handler)

/-- Removes and returns the handler registered for an action type. -/
def unregister (handlers : HandlerRegistry) (actionType : ActionType) : Option HandlerId × HandlerRegistry :=
  (handlers.lookup actionType, handlers.erase actionType)

/-- Returns the handler for an action type. -/
def get (handlers : HandlerRegistry) (actionType : ActionType) : Option HandlerId := handlers.lookup actionType

end HandlerRegistry

end OrbitRelay
