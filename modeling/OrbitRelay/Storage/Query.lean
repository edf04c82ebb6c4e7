import Mathlib.Data.Finset.Insert
import OrbitRelay.Storage.Record

/-
  Structured event queries (orbitrelay-storage: query.rs).

  A query is its filter conditions, an optional start cursor and a page size.
  `validate` checks all of them before a store is touched; `matches` reads the
  filter conditions only.
-/

namespace OrbitRelay

/-- Conditions and pagination controls for append-ordered event queries. -/
structure EventQuery where
  sessionId : Option SessionId
  actorId : Option ActorId
  eventTypes : Finset EventType
  occurredFrom : Option Timestamp
  occurredUntil : Option Timestamp
  after : Option EventCursor
  limit : Nat
  deriving DecidableEq

namespace EventQuery

/-- The number of records returned when no explicit limit is supplied. -/
def defaultLimit : Nat := 100

/-- The largest page that a store accepts through this abstraction. -/
def maxLimit : Nat := 1000

/-- A query accepting events from all sessions and actors. -/
def all : EventQuery where
  sessionId := none
  actorId := none
  eventTypes := ∅
  occurredFrom := none
  occurredUntil := none
  after := none
  limit := defaultLimit

/-- The query with one more accepted event type. -/
def withEventType (q : EventQuery) (eventType : EventType) : EventQuery :=
  { q with eventTypes := insert eventType q.eventTypes }

/-- The same conditions with a page size and a start cursor of their own. -/
def page (q : EventQuery) (after : Option EventCursor) (limit : Nat) : EventQuery :=
  { q with after, limit }

/-- Whether the selected interval of occurrence times is empty. -/
def timeRangeInverted (q : EventQuery) : Bool :=
  match q.occurredFrom, q.occurredUntil with
  | some fr, some til => til ≤ fr
  | _, _ => false

/-- Validates all backend-independent query invariants. -/
def validate (q : EventQuery) : Except StorageError Unit :=
  if q.limit = 0 ∨ q.limit > maxLimit then
    .error (.invalidQuery ("limit must be between 1 and " ++ maxLimit.repr))
  else if ∃ t ∈ q.eventTypes, Text.trim t.value = [] then
    .error (.invalidQuery "event type cannot be empty")
  else if q.timeRangeInverted then
    .error (.invalidQuery "occurred_from must be earlier than occurred_until")
  else if q.after.any EventCursor.isEmpty then
    .error (.invalidCursor "cursor cannot be empty")
  else .ok ()

/-- Whether an event satisfies every filter condition. -/
def «matches» (q : EventQuery) (event : Event) : Bool :=
  q.sessionId.all (· = event.sessionId) &&
    q.actorId.all (· = event.actorId) &&
    (q.eventTypes = ∅ || decide (event.eventType ∈ q.eventTypes)) &&
    q.occurredFrom.all (fun fr => fr ≤ event.occurredAt) &&
    q.occurredUntil.all (fun til => event.occurredAt < til)

/-- The filter conditions of a query are ones `validate` accepts. -/
def FilterValid (q : EventQuery) : Prop :=
  (∀ t ∈ q.eventTypes, Text.trim t.value ≠ []) ∧ q.timeRangeInverted = false

instance (q : EventQuery) : Decidable q.FilterValid :=
  inferInstanceAs (Decidable (_ ∧ _))

/-- A query is valid iff its conditions, its limit and its cursor each are. -/
theorem validate_ok_iff (q : EventQuery) :
    q.validate = .ok () ↔
      (1 ≤ q.limit ∧ q.limit ≤ maxLimit) ∧ q.FilterValid ∧ q.after.all (!·.isEmpty) := by
  have hcursor : q.after.any EventCursor.isEmpty = !q.after.all (!·.isEmpty) := by
    cases q.after <;> simp
  simp only [validate, FilterValid, hcursor]
  split
  · next h => simp; omega
  · next hlimit =>
    have h1 : 1 ≤ q.limit ∧ q.limit ≤ maxLimit := by omega
    split
    · next h =>
      obtain ⟨t, ht, hblank⟩ := h
      simp only [reduceCtorEq, false_iff]
      intro hvalid
      obtain ⟨_, ⟨hall, _⟩, _⟩ := hvalid
      exact hall t ht hblank
    · next h =>
      have h2 : ∀ t ∈ q.eventTypes, Text.trim t.value ≠ [] := fun t ht hb => h ⟨t, ht, hb⟩
      split
      · next h => simp [h]
      · next h3 =>
        split
        · next h =>
          have hempty : q.after.all (!·.isEmpty) = false := by simpa using h
          simp [hempty]
        · next h =>
          have hcur : q.after.all (!·.isEmpty) = true := by simpa using h
          exact ⟨fun _ => ⟨h1, ⟨h2, by simpa using h3⟩, hcur⟩, fun _ => rfl⟩

theorem validate_page_ok {q : EventQuery} {after : Option EventCursor} {limit : Nat}
    (hq : q.FilterValid) (hlimit : 1 ≤ limit ∧ limit ≤ maxLimit)
    (hafter : after.all (!·.isEmpty)) : (q.page after limit).validate = .ok () :=
  (validate_ok_iff _).mpr ⟨hlimit, hq, hafter⟩

end EventQuery

end OrbitRelay
