import OrbitRelay.Core

/-
  orbitrelay-protocol: identifiers, actions, events, actors and envelopes.

  The five domain identifiers are one macro in the source, each a wrapper of
  `EntityId` that is a type of its own. A payload is a JSON object; its values
  belong to serde_json and are only ever compared, so a value is kept as its
  canonical text.
-/

namespace OrbitRelay

/-- Identifies an actor participating in the protocol. -/
structure ActorId where
  entityId : EntityId
  deriving DecidableEq, Inhabited

/-- Identifies a real-time collaboration session. -/
structure SessionId where
  entityId : EntityId
  deriving DecidableEq, Inhabited

/-- Identifies an action request. -/
structure ActionId where
  entityId : EntityId
  deriving DecidableEq, Inhabited

/-- Identifies an event fact. -/
structure EventId where
  entityId : EntityId
  deriving DecidableEq, Inhabited

/-- Identifies a protocol message envelope. -/
structure MessageId where
  entityId : EntityId
  deriving DecidableEq, Inhabited

/-- A JSON value, by a canonical text: two values have the same one exactly if
`serde_json`'s `==` identifies them, so `0.0` and `-0.0` have one text. -/
structure Value where
  canonical : String
  deriving DecidableEq

/-- A JSON-compatible payload whose top level is always an object. -/
structure Payload where
  fields : BTreeMap Value
  deriving DecidableEq

/-- An empty object payload. -/
def Payload.new : Payload := ⟨BTreeMap.new⟩

/-- An extensible action type such as `canvas.draw`. -/
structure ActionType where
  value : String
  deriving DecidableEq

/-- An extensible event type such as `canvas.drawn`. -/
structure EventType where
  value : String
  deriving DecidableEq

/-- A request by an actor to perform an operation in a session. -/
structure Action where
  id : ActionId
  sessionId : SessionId
  actorId : ActorId
  actionType : ActionType
  requestedAt : Timestamp
  payload : Payload
  metadata : Metadata
  deriving DecidableEq

/-- The infrastructure-level category of an actor. -/
inductive ActorType where
  | human
  | agent
  | plugin
  | service
  deriving DecidableEq

/-- A participant that can interact through the protocol. -/
structure Actor where
  id : ActorId
  actorType : ActorType
  metadata : Metadata
  deriving DecidableEq

/-- An extensible message type such as `action` or `event`. -/
structure MessageType where
  value : String
  deriving DecidableEq

/-- A versioned message envelope with a strongly typed payload. -/
structure MessageEnvelope (τ : Type) where
  version : Version
  messageId : MessageId
  messageType : MessageType
  payload : τ
  deriving DecidableEq

/-- A real-time collaboration space without connection or permission state. -/
structure Session where
  id : SessionId
  createdAt : Timestamp
  metadata : Metadata
  deriving DecidableEq

/-- A fact that occurred after an action was processed. -/
structure Event where
  id : EventId
  sessionId : SessionId
  actorId : ActorId
  actionId : ActionId
  eventType : EventType
  occurredAt : Timestamp
  payload : Payload
  metadata : Metadata
  deriving DecidableEq

/-- An event of no particular session, actor or action, for worked instances. -/
def Event.plain (id : EntityId) (eventType : EventType) : Event where
  id := ⟨id⟩
  sessionId := default
  actorId := default
  actionId := default
  eventType := eventType
  occurredAt := Timestamp.epoch
  payload := Payload.new
  metadata := BTreeMap.new

/-- An action of no particular session or actor, for worked instances. -/
def Action.plain (actionType : ActionType) : Action where
  id := default
  sessionId := default
  actorId := default
  actionType := actionType
  requestedAt := Timestamp.epoch
  payload := Payload.new
  metadata := BTreeMap.new

end OrbitRelay
