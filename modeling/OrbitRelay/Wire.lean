import OrbitRelay.Lib.Outcome
import OrbitRelay.Protocol
import OrbitRelay.Time

/-
  Decoding (orbitrelay-core: time.rs; orbitrelay-protocol: action.rs, event.rs,
  session.rs).

  A timestamp is read as a date-time with an offset and changed to UTC. The other
  types derive their decoders: these go through the fields as they come, read
  each one once, pass over those they do not know, and then look for what is
  missing. An array gives the fields in the order of their declaration.

  How a single value is read belongs to serde, serde_json, uuid and time, and so
  do the errors: `Wire` has what they offer, over any type of encoded values. A
  call of theirs may fail and does not panic; `to_offset` does.

  Correspondence (Rust ↔ Lean):
    `Timestamp::deserialize`                   ↔ `Timestamp.deserialize`
    `derive(Deserialize)` of `Action`, `Event`,
      `Session`                                ↔ `visit`, `finish`, `deserialize` of each
-/

namespace OrbitRelay

/-- What the decoders are given to read values of `ω` with, and their errors. -/
structure Wire (ω ε : Type) where
  entityId : ω → Except ε EntityId
  string : ω → Except ε String
  payload : ω → Except ε Payload
  metadata : ω → Except ε Metadata
  offsetDateTime : ω → Except ε OffsetDateTime
  toUtc : OffsetDateTime → Option PrimitiveDateTime
  duplicateField : String → ε
  missingField : String → ε
  invalidLength : Nat → ε
  trailingValues : ε

variable {ω ε α β σ : Type} {wire : Wire ω ε} {w : ω}

def Timestamp.deserialize (wire : Wire ω ε) (w : ω) : Fallible ε Timestamp := do
  let value ← Fallible.ofExcept (wire.offsetDateTime w)
  match wire.toUtc value with
  | some t => return .ofUtc t
  | none => .panic

/-- What is encoded where a record is expected. After the values of an object or
an array the text may be malformed, which is found when they have been read. -/
inductive Body (ω ε : Type) where
  | object (entries : List (String × ω)) (broken : Option ε)
  | array (values : List ω) (broken : Option ε)
  | other (error : ε)

/-- The fields that are read, of a record with these names. -/
def Body.fields (names : List String) : Body ω ε → List (String × ω)
  | .object entries _ => entries
  | .array values _ => names.zip values
  | .other _ => []

namespace Wire

/-- A value that is wrapped. -/
def wrap (read : ω → Except ε α) (mk : α → β) (w : ω) : Fallible ε β := mk <$> Fallible.ofExcept (read w)

/-- A field that is not to be read twice. -/
def once (wire : Wire ω ε) (name : String) (slot : Option α) (read : ω → Fallible ε α) (w : ω) :
    Fallible ε (Option α) :=
  if slot.isSome then .err (wire.duplicateField name) else some <$> read w

/-- A field that is not to be missing. -/
def required (wire : Wire ω ε) (name : String) : Option α → Fallible ε α
  | some a => .ok a
  | none => .err (wire.missingField name)

/-- A derived decoder. -/
def record (wire : Wire ω ε) (names : List String) (visit : σ → String × ω → Fallible ε σ) (start : σ)
    (finish : σ → Fallible ε α) : Body ω ε → Fallible ε α
  | .object entries broken => do
    let fields ← entries.foldlM visit start
    match broken with
    | some error => .err error
    | none => finish fields
  | .array values broken => do
    let fields ← (names.zip values).foldlM visit start
    if values.length < names.length then .err (broken.getD (wire.invalidLength values.length))
    else if names.length < values.length then .err wire.trailingValues
    else
      match broken with
      | some error => .err error
      | none => finish fields
  | .other error => .err error

end Wire

/-! ## The records -/

/-- The fields of an action that have been read. -/
structure Action.Fields where
  id : Option ActionId
  sessionId : Option SessionId
  actorId : Option ActorId
  actionType : Option ActionType
  requestedAt : Option Timestamp
  payload : Option Payload
  metadata : Option Metadata

namespace Action

def fieldNames : List String :=
  ["id", "session_id", "actor_id", "action_type", "requested_at", "payload", "metadata"]

def visit (wire : Wire ω ε) (fields : Fields) : String × ω → Fallible ε Fields
  | ("id", w) => ({ fields with id := · }) <$> wire.once "id" fields.id (Wire.wrap wire.entityId ActionId.mk) w
  | ("session_id", w) =>
    ({ fields with sessionId := · }) <$>
      wire.once "session_id" fields.sessionId (Wire.wrap wire.entityId SessionId.mk) w
  | ("actor_id", w) =>
    ({ fields with actorId := · }) <$> wire.once "actor_id" fields.actorId (Wire.wrap wire.entityId ActorId.mk) w
  | ("action_type", w) =>
    ({ fields with actionType := · }) <$>
      wire.once "action_type" fields.actionType (Wire.wrap wire.string ActionType.mk) w
  | ("requested_at", w) =>
    ({ fields with requestedAt := · }) <$> wire.once "requested_at" fields.requestedAt (Timestamp.deserialize wire) w
  | ("payload", w) =>
    ({ fields with payload := · }) <$> wire.once "payload" fields.payload (Fallible.ofExcept ∘ wire.payload) w
  | ("metadata", w) =>
    ({ fields with metadata := · }) <$> wire.once "metadata" fields.metadata (Fallible.ofExcept ∘ wire.metadata) w
  | _ => pure fields

def finish (wire : Wire ω ε) (fields : Fields) : Fallible ε Action := do
  let id ← wire.required "id" fields.id
  let sessionId ← wire.required "session_id" fields.sessionId
  let actorId ← wire.required "actor_id" fields.actorId
  let actionType ← wire.required "action_type" fields.actionType
  let requestedAt ← wire.required "requested_at" fields.requestedAt
  let payload ← wire.required "payload" fields.payload
  let metadata ← wire.required "metadata" fields.metadata
  return ⟨id, sessionId, actorId, actionType, requestedAt, payload, metadata⟩

def deserialize (wire : Wire ω ε) : Body ω ε → Fallible ε Action :=
  wire.record fieldNames (visit wire) ⟨none, none, none, none, none, none, none⟩ (finish wire)

end Action

/-- The fields of an event that have been read. -/
structure Event.Fields where
  id : Option EventId
  sessionId : Option SessionId
  actorId : Option ActorId
  actionId : Option ActionId
  eventType : Option EventType
  occurredAt : Option Timestamp
  payload : Option Payload
  metadata : Option Metadata

namespace Event

def fieldNames : List String :=
  ["id", "session_id", "actor_id", "action_id", "event_type", "occurred_at", "payload", "metadata"]

def visit (wire : Wire ω ε) (fields : Fields) : String × ω → Fallible ε Fields
  | ("id", w) => ({ fields with id := · }) <$> wire.once "id" fields.id (Wire.wrap wire.entityId EventId.mk) w
  | ("session_id", w) =>
    ({ fields with sessionId := · }) <$>
      wire.once "session_id" fields.sessionId (Wire.wrap wire.entityId SessionId.mk) w
  | ("actor_id", w) =>
    ({ fields with actorId := · }) <$> wire.once "actor_id" fields.actorId (Wire.wrap wire.entityId ActorId.mk) w
  | ("action_id", w) =>
    ({ fields with actionId := · }) <$> wire.once "action_id" fields.actionId (Wire.wrap wire.entityId ActionId.mk) w
  | ("event_type", w) =>
    ({ fields with eventType := · }) <$>
      wire.once "event_type" fields.eventType (Wire.wrap wire.string EventType.mk) w
  | ("occurred_at", w) =>
    ({ fields with occurredAt := · }) <$> wire.once "occurred_at" fields.occurredAt (Timestamp.deserialize wire) w
  | ("payload", w) =>
    ({ fields with payload := · }) <$> wire.once "payload" fields.payload (Fallible.ofExcept ∘ wire.payload) w
  | ("metadata", w) =>
    ({ fields with metadata := · }) <$> wire.once "metadata" fields.metadata (Fallible.ofExcept ∘ wire.metadata) w
  | _ => pure fields

def finish (wire : Wire ω ε) (fields : Fields) : Fallible ε Event := do
  let id ← wire.required "id" fields.id
  let sessionId ← wire.required "session_id" fields.sessionId
  let actorId ← wire.required "actor_id" fields.actorId
  let actionId ← wire.required "action_id" fields.actionId
  let eventType ← wire.required "event_type" fields.eventType
  let occurredAt ← wire.required "occurred_at" fields.occurredAt
  let payload ← wire.required "payload" fields.payload
  let metadata ← wire.required "metadata" fields.metadata
  return ⟨id, sessionId, actorId, actionId, eventType, occurredAt, payload, metadata⟩

def deserialize (wire : Wire ω ε) : Body ω ε → Fallible ε Event :=
  wire.record fieldNames (visit wire) ⟨none, none, none, none, none, none, none, none⟩ (finish wire)

end Event

/-- The fields of a session that have been read. -/
structure Session.Fields where
  id : Option SessionId
  createdAt : Option Timestamp
  metadata : Option Metadata

namespace Session

def fieldNames : List String := ["id", "created_at", "metadata"]

def visit (wire : Wire ω ε) (fields : Fields) : String × ω → Fallible ε Fields
  | ("id", w) => ({ fields with id := · }) <$> wire.once "id" fields.id (Wire.wrap wire.entityId SessionId.mk) w
  | ("created_at", w) =>
    ({ fields with createdAt := · }) <$> wire.once "created_at" fields.createdAt (Timestamp.deserialize wire) w
  | ("metadata", w) =>
    ({ fields with metadata := · }) <$> wire.once "metadata" fields.metadata (Fallible.ofExcept ∘ wire.metadata) w
  | _ => pure fields

def finish (wire : Wire ω ε) (fields : Fields) : Fallible ε Session := do
  let id ← wire.required "id" fields.id
  let createdAt ← wire.required "created_at" fields.createdAt
  let metadata ← wire.required "metadata" fields.metadata
  return ⟨id, createdAt, metadata⟩

def deserialize (wire : Wire ω ε) : Body ω ε → Fallible ε Session :=
  wire.record fieldNames (visit wire) ⟨none, none, none⟩ (finish wire)

end Session

end OrbitRelay
