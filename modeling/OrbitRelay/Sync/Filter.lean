import Mathlib.Data.Finset.Insert
import OrbitRelay.Protocol
import OrbitRelay.Lib.Text

/-
  Event filters and the errors of the bus (orbitrelay-sync: filter.rs,
  error.rs, subscription.rs).

  A filter and a query are two types with two `matches` functions, written
  separately in two crates; nothing in the source relates them.
-/

namespace OrbitRelay

/-- Identifies a subscription within the synchronization layer. -/
structure SubscriptionId where
  entityId : EntityId
  deriving DecidableEq, Inhabited

/-- Errors produced by real-time event propagation. -/
inductive SyncError where
  | subscriberLagged (subscriptionId : SubscriptionId) (missed : Nat)
  | subscriptionClosed (subscriptionId : SubscriptionId)
  | invalidFilter (reason : String)
  | invalidQueueCapacity
  deriving DecidableEq

/-- A structured event filter using exact protocol identifiers and event types. -/
structure EventFilter where
  sessionId : Option SessionId
  eventTypes : Finset EventType
  actorId : Option ActorId
  deriving DecidableEq

namespace EventFilter

/-- A filter that matches every event. -/
def all : EventFilter := ⟨none, ∅, none⟩

/-- A filter that matches events from one session. -/
def forSession (sessionId : SessionId) : EventFilter := { all with sessionId := some sessionId }

/-- The filter with one more accepted event type. -/
def withEventType (f : EventFilter) (eventType : EventType) : EventFilter :=
  { f with eventTypes := insert eventType f.eventTypes }

/-- The filter restricted to one actor. -/
def withActorId (f : EventFilter) (actorId : ActorId) : EventFilter :=
  { f with actorId := some actorId }

/-- Whether an event satisfies every configured condition. -/
def «matches» (f : EventFilter) (event : Event) : Bool :=
  f.sessionId.all (· = event.sessionId) &&
    (f.eventTypes = ∅ || decide (event.eventType ∈ f.eventTypes)) &&
    f.actorId.all (· = event.actorId)

def validate (f : EventFilter) : Except SyncError Unit :=
  if ∃ t ∈ f.eventTypes, Text.trim t.value = [] then
    .error (.invalidFilter "event type cannot be empty")
  else .ok ()

theorem validate_ok_iff (f : EventFilter) :
    f.validate = .ok () ↔ ∀ t ∈ f.eventTypes, Text.trim t.value ≠ [] := by
  unfold validate
  split
  · next h =>
    obtain ⟨t, ht, hblank⟩ := h
    simp only [reduceCtorEq, false_iff]
    exact fun hall => hall t ht hblank
  · next h => exact ⟨fun _ t ht hblank => h ⟨t, ht, hblank⟩, fun _ => rfl⟩

end EventFilter

end OrbitRelay
