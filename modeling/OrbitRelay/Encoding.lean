import Mathlib.Data.Finset.Sort
import OrbitRelay.Lib.Record
import OrbitRelay.Node
import OrbitRelay.Storage.Record
import OrbitRelay.Wire

/-
  The derived codecs (orbitrelay-core: time.rs, version.rs; orbitrelay-protocol:
  action.rs, actor.rs, event.rs, message.rs, session.rs; orbitrelay-node: node.rs,
  state.rs, capability.rs; orbitrelay-storage: record.rs).

  A `Format` is what serde and a format offer to write with, beside what `Wire`
  has to read with. A wrapper is written as what it wraps, an enumeration as the
  name of its variant, and a record with its fields in the order of declaration.
  A record decoder that is written out in `Wire` keeps its own definition; the
  others are `Record.visit` over their fields.

  Correspondence (Rust ↔ Lean):
    `Timestamp::serialize`                 ↔ `Timestamp.serialize`
    `#[serde(transparent)]`                ↔ `Codec.wrap`
    `#[serde(rename_all = "snake_case")]`  ↔ `variants` of the enumeration
    `derive(Serialize, Deserialize)`       ↔ `fields`, `serialize`, `deserialize` of each
-/

namespace OrbitRelay

/-- What a format offers. A sequence may turn out malformed when its elements
have been read. -/
structure Format (ω ε : Type) extends Wire ω ε where
  body : ω → Body ω ε
  items : ω → Except ε (List ω × Option ε)
  option : ω → Except ε (Option ω)
  u16 : ω → Except ε UInt16
  variant : ω → Except ε String
  unitVariant : ω → Except ε Unit
  unknownVariant : String → ε
  writeEntityId : EntityId → Except ε ω
  writeString : String → Except ε ω
  writePayload : Payload → Except ε ω
  writeMetadata : Metadata → Except ε ω
  writeOffsetDateTime : OffsetDateTime → Except ε ω
  writeItems : List ω → Except ε ω
  writeOption : Option ω → Except ε ω
  writeU16 : UInt16 → Except ε ω
  writeVariant : String → Except ε ω
  writeRecord : List (String × ω) → Except ε ω

variable {ω ε α σ τ : Type}

/-! ## Timestamps -/

namespace Timestamp

/-- The date at UTC. -/
def utcDate (t : Timestamp) : Calendar.Date :=
  (Calendar.Date.firstOfYear 1970).addDays (t.nanos / 1000000000 / 86400)

theorem dayNumber_utcDate (t : Timestamp) :
    t.utcDate.dayNumber = Calendar.daysBeforeYear 1970 + t.nanos / 1000000000 / 86400 := by
  rw [utcDate, Calendar.Date.dayNumber_addDays]
  rfl

/-- The date-time at UTC. -/
def utc (t : Timestamp) : PrimitiveDateTime where
  date := t.utcDate
  time := Time.ofSeconds (t.nanos / 1000000000 % 86400).toNat (t.nanos % 1000000000).toNat (by omega) (by omega)
  inRange := by
    have hfirst : Calendar.daysBeforeYear (-9999) = -3652059 := by decide
    have hend : Calendar.daysBeforeYear (9999 + 1) = 3652425 := by decide
    have hepoch : Calendar.daysBeforeYear 1970 = 719528 := by decide
    have hrange := t.inRange
    rw [minNanos, maxNanos] at hrange
    rw [Calendar.Date.le_year_iff, Calendar.Date.year_le_iff, dayNumber_utcDate, hfirst, hend, hepoch]
    omega

/-- The instant is that of its date-time. -/
theorem nanos_utc (t : Timestamp) : t.utc.nanos = t.nanos := by
  rw [PrimitiveDateTime.nanos]
  simp only [utc, dayNumber_utcDate, Time.seconds_ofSeconds, Time.nanosecond_ofSeconds]
  omega

def serialize (F : Format ω ε) (t : Timestamp) : Except ε ω :=
  F.writeOffsetDateTime ⟨t.utc, ⟨0, by decide⟩⟩

end Timestamp

/-! ## Values -/

namespace Format

variable (F : Format ω ε)

def entityIdCodec : Codec ω ε EntityId := ⟨fun w => .ofExcept (F.entityId w), F.writeEntityId, none⟩

def stringCodec : Codec ω ε String := ⟨fun w => .ofExcept (F.string w), F.writeString, none⟩

def u16Codec : Codec ω ε UInt16 := ⟨fun w => .ofExcept (F.u16 w), F.writeU16, none⟩

def payloadCodec : Codec ω ε Payload := ⟨fun w => .ofExcept (F.payload w), F.writePayload, none⟩

def metadataCodec : Codec ω ε Metadata := ⟨fun w => .ofExcept (F.metadata w), F.writeMetadata, none⟩

def timestampCodec : Codec ω ε Timestamp := ⟨Timestamp.deserialize F.toWire, Timestamp.serialize F, none⟩

/-- A value that may be null, and is if it is missing. -/
def optionCodec (c : Codec ω ε α) : Codec ω ε (Option α) where
  read w := do
    match ← Fallible.ofExcept (F.option w) with
    | some v => some <$> c.read v
    | none => return none
  write
    | some a => do F.writeOption (some (← c.write a))
    | none => F.writeOption none
  absent := some none

/-- A sequence. -/
def itemsCodec (c : Codec ω ε α) : Codec ω ε (List α) where
  read w := do
    let (ws, broken) ← Fallible.ofExcept (F.items w)
    let as ← ws.mapM c.read
    match broken with
    | some error => .err error
    | none => return as
  write as := do F.writeItems (← as.mapM c.write)
  absent := none

/-- An enumeration of units. -/
def variantCodec (variants : List (String × α)) (name : α → String) : Codec ω ε α where
  read w := do
    let found ← Fallible.ofExcept (F.variant w)
    match variants.lookup found with
    | some a =>
      Fallible.ofExcept (F.unitVariant w)
      return a
    | none => .err (F.unknownVariant found)
  write a := F.writeVariant (name a)
  absent := none

end Format

def ActionId.codec (F : Format ω ε) : Codec ω ε ActionId := F.entityIdCodec.wrap ActionId.mk (·.entityId)
def ActorId.codec (F : Format ω ε) : Codec ω ε ActorId := F.entityIdCodec.wrap ActorId.mk (·.entityId)
def EventId.codec (F : Format ω ε) : Codec ω ε EventId := F.entityIdCodec.wrap EventId.mk (·.entityId)
def MessageId.codec (F : Format ω ε) : Codec ω ε MessageId := F.entityIdCodec.wrap MessageId.mk (·.entityId)
def NodeId.codec (F : Format ω ε) : Codec ω ε NodeId := F.entityIdCodec.wrap NodeId.mk (·.entityId)
def SessionId.codec (F : Format ω ε) : Codec ω ε SessionId := F.entityIdCodec.wrap SessionId.mk (·.entityId)
def ActionType.codec (F : Format ω ε) : Codec ω ε ActionType := F.stringCodec.wrap ActionType.mk (·.value)
def EventType.codec (F : Format ω ε) : Codec ω ε EventType := F.stringCodec.wrap EventType.mk (·.value)
def MessageType.codec (F : Format ω ε) : Codec ω ε MessageType := F.stringCodec.wrap MessageType.mk (·.value)
def EventCursor.codec (F : Format ω ε) : Codec ω ε EventCursor := F.stringCodec.wrap EventCursor.mk (·.token)
def Capability.codec (F : Format ω ε) : Codec ω ε Capability := F.stringCodec.wrap Capability.mk (·.value)

def ActorType.name : ActorType → String
  | .human => "human"
  | .agent => "agent"
  | .plugin => "plugin"
  | .service => "service"

def ActorType.variants : List (String × ActorType) :=
  [("human", .human), ("agent", .agent), ("plugin", .plugin), ("service", .service)]

def ActorType.codec (F : Format ω ε) : Codec ω ε ActorType := F.variantCodec variants name

def NodeState.name : NodeState → String
  | .starting => "starting"
  | .ready => "ready"
  | .draining => "draining"
  | .offline => "offline"

def NodeState.variants : List (String × NodeState) :=
  [("starting", .starting), ("ready", .ready), ("draining", .draining), ("offline", .offline)]

def NodeState.codec (F : Format ω ε) : Codec ω ε NodeState := F.variantCodec variants name

/-- A `BTreeSet` of capabilities is written in its order, and takes each once. -/
def Capability.setCodec (F : Format ω ε) : Codec ω ε (Finset Capability) :=
  (F.itemsCodec (Capability.codec F)).wrap (·.toFinset) (·.sort)

/-! ## Records -/

open Record (Field Makes Schema)

/-- A record is written with all its fields. -/
def Format.serialize (F : Format ω ε) (S : Schema ω ε σ α) (a : α) : Except ε ω := do
  F.writeRecord (← S.encode a)

/-- A record is read by its fields. -/
def Format.deserialize (F : Format ω ε) (S : Schema ω ε σ α) : Body ω ε → Fallible ε α :=
  F.record S.names (Record.visit F.duplicateField S.fields) S.start S.finish

/-- The value of a field, or the one for a field that is missing. -/
def Format.field (F : Format ω ε) (c : Codec ω ε α) (name : String) (slot : Option α) : Fallible ε α :=
  F.required name (slot.or c.absent)

theorem Wire.required_eq_ok_iff {wire : Wire ω ε} {name : String} {slot : Option α} {a : α} :
    wire.required name slot = .ok a ↔ slot = some a := by
  cases slot <;> simp [required]

theorem Format.field_eq_ok_iff {F : Format ω ε} {c : Codec ω ε α} {name : String} {slot : Option α} {a : α} :
    F.field c name slot = .ok a ↔ slot.or c.absent = some a :=
  Wire.required_eq_ok_iff

namespace Action

def fields (F : Format ω ε) : List (Field ω ε Fields Action) :=
  [⟨"id", ActionId, (·.id), fun s v => { s with id := some v }, ActionId.codec F, (·.id)⟩,
    ⟨"session_id", SessionId, (·.sessionId), fun s v => { s with sessionId := some v },
      SessionId.codec F, (·.sessionId)⟩,
    ⟨"actor_id", ActorId, (·.actorId), fun s v => { s with actorId := some v }, ActorId.codec F, (·.actorId)⟩,
    ⟨"action_type", ActionType, (·.actionType), fun s v => { s with actionType := some v },
      ActionType.codec F, (·.actionType)⟩,
    ⟨"requested_at", Timestamp, (·.requestedAt), fun s v => { s with requestedAt := some v },
      F.timestampCodec, (·.requestedAt)⟩,
    ⟨"payload", Payload, (·.payload), fun s v => { s with payload := some v }, F.payloadCodec, (·.payload)⟩,
    ⟨"metadata", Metadata, (·.metadata), fun s v => { s with metadata := some v },
      F.metadataCodec, (·.metadata)⟩]

def schema (F : Format ω ε) : Schema ω ε Fields Action where
  fields := fields F
  start := ⟨none, none, none, none, none, none, none⟩
  finish := finish F.toWire
  distinct := ⟨by simp [fields], by simp [fields], by simp [fields]⟩
  starts := by simp [fields]
  makes := by
    intro t a
    obtain ⟨id, sessionId, actorId, actionType, requestedAt, payload, metadata⟩ := a
    simp [finish, Makes, fields, Fallible.bind_eq_ok, Wire.required_eq_ok_iff, ActionId.codec,
      SessionId.codec, ActorId.codec, ActionType.codec, Codec.wrap, Format.entityIdCodec,
      Format.stringCodec, Format.payloadCodec, Format.metadataCodec, Format.timestampCodec]

def serialize (F : Format ω ε) : Action → Except ε ω := F.serialize (schema F)

def codec (F : Format ω ε) : Codec ω ε Action := ⟨fun w => deserialize F.toWire (F.body w), serialize F, none⟩

end Action

namespace Event

def fields (F : Format ω ε) : List (Field ω ε Fields Event) :=
  [⟨"id", EventId, (·.id), fun s v => { s with id := some v }, EventId.codec F, (·.id)⟩,
    ⟨"session_id", SessionId, (·.sessionId), fun s v => { s with sessionId := some v },
      SessionId.codec F, (·.sessionId)⟩,
    ⟨"actor_id", ActorId, (·.actorId), fun s v => { s with actorId := some v }, ActorId.codec F, (·.actorId)⟩,
    ⟨"action_id", ActionId, (·.actionId), fun s v => { s with actionId := some v },
      ActionId.codec F, (·.actionId)⟩,
    ⟨"event_type", EventType, (·.eventType), fun s v => { s with eventType := some v },
      EventType.codec F, (·.eventType)⟩,
    ⟨"occurred_at", Timestamp, (·.occurredAt), fun s v => { s with occurredAt := some v },
      F.timestampCodec, (·.occurredAt)⟩,
    ⟨"payload", Payload, (·.payload), fun s v => { s with payload := some v }, F.payloadCodec, (·.payload)⟩,
    ⟨"metadata", Metadata, (·.metadata), fun s v => { s with metadata := some v },
      F.metadataCodec, (·.metadata)⟩]

def schema (F : Format ω ε) : Schema ω ε Fields Event where
  fields := fields F
  start := ⟨none, none, none, none, none, none, none, none⟩
  finish := finish F.toWire
  distinct := ⟨by simp [fields], by simp [fields], by simp [fields]⟩
  starts := by simp [fields]
  makes := by
    intro t a
    obtain ⟨id, sessionId, actorId, actionId, eventType, occurredAt, payload, metadata⟩ := a
    simp [finish, Makes, fields, Fallible.bind_eq_ok, Wire.required_eq_ok_iff, EventId.codec,
      SessionId.codec, ActorId.codec, ActionId.codec, EventType.codec, Codec.wrap, Format.entityIdCodec,
      Format.stringCodec, Format.payloadCodec, Format.metadataCodec, Format.timestampCodec]

def serialize (F : Format ω ε) : Event → Except ε ω := F.serialize (schema F)

def codec (F : Format ω ε) : Codec ω ε Event := ⟨fun w => deserialize F.toWire (F.body w), serialize F, none⟩

end Event

namespace Session

def fields (F : Format ω ε) : List (Field ω ε Fields Session) :=
  [⟨"id", SessionId, (·.id), fun s v => { s with id := some v }, SessionId.codec F, (·.id)⟩,
    ⟨"created_at", Timestamp, (·.createdAt), fun s v => { s with createdAt := some v },
      F.timestampCodec, (·.createdAt)⟩,
    ⟨"metadata", Metadata, (·.metadata), fun s v => { s with metadata := some v },
      F.metadataCodec, (·.metadata)⟩]

def schema (F : Format ω ε) : Schema ω ε Fields Session where
  fields := fields F
  start := ⟨none, none, none⟩
  finish := finish F.toWire
  distinct := ⟨by simp [fields], by simp [fields], by simp [fields]⟩
  starts := by simp [fields]
  makes := by
    intro t a
    obtain ⟨id, createdAt, metadata⟩ := a
    simp [finish, Makes, fields, Fallible.bind_eq_ok, Wire.required_eq_ok_iff, SessionId.codec,
      Codec.wrap, Format.entityIdCodec, Format.metadataCodec, Format.timestampCodec]

def serialize (F : Format ω ε) : Session → Except ε ω := F.serialize (schema F)

def codec (F : Format ω ε) : Codec ω ε Session := ⟨fun w => deserialize F.toWire (F.body w), serialize F, none⟩

end Session

namespace Version

structure Fields where
  major : Option UInt16
  minor : Option UInt16
  patch : Option UInt16

def fields (F : Format ω ε) : List (Field ω ε Fields Version) :=
  [⟨"major", UInt16, (·.major), fun s v => { s with major := some v }, F.u16Codec, (·.major)⟩,
    ⟨"minor", UInt16, (·.minor), fun s v => { s with minor := some v }, F.u16Codec, (·.minor)⟩,
    ⟨"patch", UInt16, (·.patch), fun s v => { s with patch := some v }, F.u16Codec, (·.patch)⟩]

def finish (F : Format ω ε) (s : Fields) : Fallible ε Version := do
  let major ← F.field F.u16Codec "major" s.major
  let minor ← F.field F.u16Codec "minor" s.minor
  let patch ← F.field F.u16Codec "patch" s.patch
  return ⟨major, minor, patch⟩

def schema (F : Format ω ε) : Schema ω ε Fields Version where
  fields := fields F
  start := ⟨none, none, none⟩
  finish := finish F
  distinct := ⟨by simp [fields], by simp [fields], by simp [fields]⟩
  starts := by simp [fields]
  makes := by
    intro t a
    obtain ⟨major, minor, patch⟩ := a
    simp [finish, Makes, fields, Fallible.bind_eq_ok, Format.field_eq_ok_iff]

def serialize (F : Format ω ε) : Version → Except ε ω := F.serialize (schema F)

def deserialize (F : Format ω ε) : Body ω ε → Fallible ε Version := F.deserialize (schema F)

def codec (F : Format ω ε) : Codec ω ε Version := ⟨fun w => deserialize F (F.body w), serialize F, none⟩

end Version

namespace Actor

structure Fields where
  id : Option ActorId
  actorType : Option ActorType
  metadata : Option Metadata

def fields (F : Format ω ε) : List (Field ω ε Fields Actor) :=
  [⟨"id", ActorId, (·.id), fun s v => { s with id := some v }, ActorId.codec F, (·.id)⟩,
    ⟨"actor_type", ActorType, (·.actorType), fun s v => { s with actorType := some v },
      ActorType.codec F, (·.actorType)⟩,
    ⟨"metadata", Metadata, (·.metadata), fun s v => { s with metadata := some v },
      F.metadataCodec, (·.metadata)⟩]

def finish (F : Format ω ε) (s : Fields) : Fallible ε Actor := do
  let id ← F.field (ActorId.codec F) "id" s.id
  let actorType ← F.field (ActorType.codec F) "actor_type" s.actorType
  let metadata ← F.field F.metadataCodec "metadata" s.metadata
  return ⟨id, actorType, metadata⟩

def schema (F : Format ω ε) : Schema ω ε Fields Actor where
  fields := fields F
  start := ⟨none, none, none⟩
  finish := finish F
  distinct := ⟨by simp [fields], by simp [fields], by simp [fields]⟩
  starts := by simp [fields]
  makes := by
    intro t a
    obtain ⟨id, actorType, metadata⟩ := a
    simp [finish, Makes, fields, Fallible.bind_eq_ok, Format.field_eq_ok_iff]

def serialize (F : Format ω ε) : Actor → Except ε ω := F.serialize (schema F)

def deserialize (F : Format ω ε) : Body ω ε → Fallible ε Actor := F.deserialize (schema F)

def codec (F : Format ω ε) : Codec ω ε Actor := ⟨fun w => deserialize F (F.body w), serialize F, none⟩

end Actor

namespace MessageEnvelope

structure Fields (τ : Type) where
  version : Option Version
  messageId : Option MessageId
  messageType : Option MessageType
  payload : Option τ

def fields (F : Format ω ε) (c : Codec ω ε τ) : List (Field ω ε (Fields τ) (MessageEnvelope τ)) :=
  [⟨"version", Version, (·.version), fun s v => { s with version := some v }, Version.codec F, (·.version)⟩,
    ⟨"message_id", MessageId, (·.messageId), fun s v => { s with messageId := some v },
      MessageId.codec F, (·.messageId)⟩,
    ⟨"message_type", MessageType, (·.messageType), fun s v => { s with messageType := some v },
      MessageType.codec F, (·.messageType)⟩,
    ⟨"payload", τ, (·.payload), fun s v => { s with payload := some v }, c, (·.payload)⟩]

def finish (F : Format ω ε) (c : Codec ω ε τ) (s : Fields τ) : Fallible ε (MessageEnvelope τ) := do
  let version ← F.field (Version.codec F) "version" s.version
  let messageId ← F.field (MessageId.codec F) "message_id" s.messageId
  let messageType ← F.field (MessageType.codec F) "message_type" s.messageType
  let payload ← F.field c "payload" s.payload
  return ⟨version, messageId, messageType, payload⟩

def schema (F : Format ω ε) (c : Codec ω ε τ) : Schema ω ε (Fields τ) (MessageEnvelope τ) where
  fields := fields F c
  start := ⟨none, none, none, none⟩
  finish := finish F c
  distinct := ⟨by simp [fields], by simp [fields], by simp [fields]⟩
  starts := by simp [fields]
  makes := by
    intro t a
    obtain ⟨version, messageId, messageType, payload⟩ := a
    simp [finish, Makes, fields, Fallible.bind_eq_ok, Format.field_eq_ok_iff]

def serialize (F : Format ω ε) (c : Codec ω ε τ) : MessageEnvelope τ → Except ε ω := F.serialize (schema F c)

def deserialize (F : Format ω ε) (c : Codec ω ε τ) : Body ω ε → Fallible ε (MessageEnvelope τ) :=
  F.deserialize (schema F c)

def codec (F : Format ω ε) (c : Codec ω ε τ) : Codec ω ε (MessageEnvelope τ) :=
  ⟨fun w => deserialize F c (F.body w), serialize F c, none⟩

end MessageEnvelope

namespace StoredEvent

structure Fields where
  cursor : Option EventCursor
  event : Option Event

def fields (F : Format ω ε) : List (Field ω ε Fields StoredEvent) :=
  [⟨"cursor", EventCursor, (·.cursor), fun s v => { s with cursor := some v },
      EventCursor.codec F, (·.cursor)⟩,
    ⟨"event", Event, (·.event), fun s v => { s with event := some v }, Event.codec F, (·.event)⟩]

def finish (F : Format ω ε) (s : Fields) : Fallible ε StoredEvent := do
  let cursor ← F.field (EventCursor.codec F) "cursor" s.cursor
  let event ← F.field (Event.codec F) "event" s.event
  return ⟨cursor, event⟩

def schema (F : Format ω ε) : Schema ω ε Fields StoredEvent where
  fields := fields F
  start := ⟨none, none⟩
  finish := finish F
  distinct := ⟨by simp [fields], by simp [fields], by simp [fields]⟩
  starts := by simp [fields]
  makes := by
    intro t a
    obtain ⟨cursor, event⟩ := a
    simp [finish, Makes, fields, Fallible.bind_eq_ok, Format.field_eq_ok_iff]

def serialize (F : Format ω ε) : StoredEvent → Except ε ω := F.serialize (schema F)

def deserialize (F : Format ω ε) : Body ω ε → Fallible ε StoredEvent := F.deserialize (schema F)

def codec (F : Format ω ε) : Codec ω ε StoredEvent := ⟨fun w => deserialize F (F.body w), serialize F, none⟩

end StoredEvent

namespace EventPage

structure Fields where
  events : Option (List StoredEvent)
  nextCursor : Option (Option EventCursor)

def fields (F : Format ω ε) : List (Field ω ε Fields EventPage) :=
  [⟨"events", List StoredEvent, (·.events), fun s v => { s with events := some v },
      F.itemsCodec (StoredEvent.codec F), (·.events)⟩,
    ⟨"next_cursor", Option EventCursor, (·.nextCursor), fun s v => { s with nextCursor := some v },
      F.optionCodec (EventCursor.codec F), (·.nextCursor)⟩]

def finish (F : Format ω ε) (s : Fields) : Fallible ε EventPage := do
  let events ← F.field (F.itemsCodec (StoredEvent.codec F)) "events" s.events
  let nextCursor ← F.field (F.optionCodec (EventCursor.codec F)) "next_cursor" s.nextCursor
  return ⟨events, nextCursor⟩

def schema (F : Format ω ε) : Schema ω ε Fields EventPage where
  fields := fields F
  start := ⟨none, none⟩
  finish := finish F
  distinct := ⟨by simp [fields], by simp [fields], by simp [fields]⟩
  starts := by simp [fields]
  makes := by
    intro t a
    obtain ⟨events, nextCursor⟩ := a
    simp [finish, Makes, fields, Fallible.bind_eq_ok, Format.field_eq_ok_iff]

def serialize (F : Format ω ε) : EventPage → Except ε ω := F.serialize (schema F)

def deserialize (F : Format ω ε) : Body ω ε → Fallible ε EventPage := F.deserialize (schema F)

def codec (F : Format ω ε) : Codec ω ε EventPage := ⟨fun w => deserialize F (F.body w), serialize F, none⟩

end EventPage

namespace Node

structure Fields where
  id : Option NodeId
  metadata : Option Metadata
  state : Option NodeState
  capabilities : Option (Finset Capability)

def fields (F : Format ω ε) : List (Field ω ε Fields Node) :=
  [⟨"id", NodeId, (·.id), fun s v => { s with id := some v }, NodeId.codec F, (·.id)⟩,
    ⟨"metadata", Metadata, (·.metadata), fun s v => { s with metadata := some v },
      F.metadataCodec, (·.metadata)⟩,
    ⟨"state", NodeState, (·.state), fun s v => { s with state := some v }, NodeState.codec F, (·.state)⟩,
    ⟨"capabilities", Finset Capability, (·.capabilities), fun s v => { s with capabilities := some v },
      Capability.setCodec F, (·.capabilities)⟩]

def finish (F : Format ω ε) (s : Fields) : Fallible ε Node := do
  let id ← F.field (NodeId.codec F) "id" s.id
  let metadata ← F.field F.metadataCodec "metadata" s.metadata
  let state ← F.field (NodeState.codec F) "state" s.state
  let capabilities ← F.field (Capability.setCodec F) "capabilities" s.capabilities
  return ⟨id, metadata, state, capabilities⟩

def schema (F : Format ω ε) : Schema ω ε Fields Node where
  fields := fields F
  start := ⟨none, none, none, none⟩
  finish := finish F
  distinct := ⟨by simp [fields], by simp [fields], by simp [fields]⟩
  starts := by simp [fields]
  makes := by
    intro t a
    obtain ⟨id, metadata, state, capabilities⟩ := a
    simp [finish, Makes, fields, Fallible.bind_eq_ok, Format.field_eq_ok_iff]

def serialize (F : Format ω ε) : Node → Except ε ω := F.serialize (schema F)

def deserialize (F : Format ω ε) : Body ω ε → Fallible ε Node := F.deserialize (schema F)

def codec (F : Format ω ε) : Codec ω ε Node := ⟨fun w => deserialize F (F.body w), serialize F, none⟩

end Node

end OrbitRelay
