import OrbitRelay.Protocol
import OrbitRelay.Lib.Text

/-
  Stored records, cursors and pages (orbitrelay-storage: record.rs, error.rs).

  A cursor is a string `memory:<store id>:<position>` handed to clients, who
  may hand back any string at all. `forMemory` prints it and `memoryPosition`
  reads it: the pieces between the colons, then the position by the integer
  parser, then the range check.

  `usize` is `Nat` here. The parser of the source also fails above usize::MAX;
  a record count never exceeds that, and `memoryPosition_below` shows the
  check makes no difference.
-/

namespace OrbitRelay

/-- Errors produced while appending or querying stored events. -/
inductive StorageError where
  | invalidQuery (reason : String)
  | invalidCursor (reason : String)
  | eventConflict (eventId : EventId)
  | backendUnavailable (message : String)
  | backendFailure (message : String)
  deriving DecidableEq

/-- An opaque, backend-owned position in append order. -/
structure EventCursor where
  token : String
  deriving DecidableEq

namespace EventCursor

def forMemory (storeId : EntityId) (position : Nat) : EventCursor :=
  ⟨"memory:" ++ storeId.text ++ ":" ++ position.repr⟩

/-- The position of a cursor of the store `storeId`, which holds `recordCount`
records; `parse` reads the position field. -/
def positionWith (parse : List Char → Option Nat) (cursor : EventCursor) (storeId : EntityId)
    (recordCount : Nat) : Except StorageError Nat :=
  let parts := cursor.token.toList.splitOn ':'
  let backend := parts[0]?
  let cursorStoreId := parts[1]?
  let position := parts[2]?
  if backend ≠ some "memory".toList ∨ cursorStoreId ≠ some storeId.text.toList ∨
      parts[3]?.isSome then
    .error (.invalidCursor "cursor does not belong to this memory event store")
  else
    match (position.bind parse).filter fun p => 0 < p ∧ p ≤ recordCount with
    | some p => .ok p
    | none => .error (.invalidCursor "cursor position is outside the stored event range")

def memoryPosition (cursor : EventCursor) (storeId : EntityId) (recordCount : Nat) :
    Except StorageError Nat :=
  positionWith Text.parseUnsigned cursor storeId recordCount

def isEmpty (cursor : EventCursor) : Bool := cursor.token.toList.isEmpty

end EventCursor

/-- An immutable event paired with its backend append cursor. -/
structure StoredEvent where
  cursor : EventCursor
  event : Event
  deriving DecidableEq

/-- One append-ordered page of stored events. -/
structure EventPage where
  events : List StoredEvent
  nextCursor : Option EventCursor
  deriving DecidableEq

/-! ## Cursors -/

namespace EventCursor

theorem forMemory_parts (storeId : EntityId) (position : Nat) :
    (forMemory storeId position).token.toList.splitOn ':' =
      ["memory".toList, storeId.text.toList, Nat.toDigits 10 position] := by
  have hjoin : (forMemory storeId position).token.toList =
      "memory".toList ++ ':' :: (storeId.text.toList ++ ':' :: Nat.toDigits 10 position) := by
    simp [forMemory, String.toList_append]
  rw [hjoin]
  exact Text.splitOn_three ':' _ _ _ (by decide) storeId.colonFree
    (Text.not_mem_toDigits (by decide) _)

/-- A printed cursor reads back as its position, in range. -/
theorem memoryPosition_forMemory (storeId : EntityId) {position recordCount : Nat}
    (hpos : 0 < position) (hle : position ≤ recordCount) :
    (forMemory storeId position).memoryPosition storeId recordCount = .ok position := by
  simp [memoryPosition, positionWith, forMemory_parts, Option.filter_some, hpos, hle]

/-- Two positions of one store never share a cursor. -/
theorem forMemory_inj {storeId : EntityId} {p q : Nat}
    (h : forMemory storeId p = forMemory storeId q) : p = q := by
  have hparts := forMemory_parts storeId p
  rw [h, forMemory_parts] at hparts
  have hdigits : Nat.toDigits 10 q = Nat.toDigits 10 p := by simpa using hparts
  have hparse := Text.parseUnsigned_toDigits p
  rw [← hdigits, Text.parseUnsigned_toDigits] at hparse
  exact (Option.some.inj hparse).symm

theorem forMemory_isEmpty (storeId : EntityId) (position : Nat) :
    (forMemory storeId position).isEmpty = false := by
  simp [isEmpty, forMemory, String.toList_append]

/-- The position a cursor is read as is a record's. -/
theorem memoryPosition_range {cursor : EventCursor} {storeId : EntityId} {recordCount p : Nat}
    (h : cursor.memoryPosition storeId recordCount = .ok p) : 0 < p ∧ p ≤ recordCount := by
  simp only [memoryPosition, positionWith] at h
  split at h
  · simp at h
  · split at h
    · next q hq =>
      obtain rfl : q = p := by simpa using h
      simpa using (Option.filter_eq_some_iff.mp hq).2
    · simp at h

/-- Failing on numerals above `max` as well changes no answer, as long as the
store holds no more than `max` records. -/
theorem memoryPosition_below (cursor : EventCursor) (storeId : EntityId) {recordCount max : Nat}
    (hmax : recordCount ≤ max) :
    positionWith (Text.parseUnsignedBelow max) cursor storeId recordCount =
      cursor.memoryPosition storeId recordCount := by
  have hfilter : ∀ part : Option (List Char),
      ((part.bind (Text.parseUnsignedBelow max)).filter fun p => 0 < p ∧ p ≤ recordCount) =
        (part.bind Text.parseUnsigned).filter fun p => 0 < p ∧ p ≤ recordCount := by
    intro part
    cases part with
    | none => rfl
    | some ds =>
      simp only [Option.bind_some, Text.parseUnsignedBelow]
      cases Text.parseUnsigned ds with
      | none => rfl
      | some n =>
        by_cases hn : n ≤ max
        · simp [hn, Option.filter_some]
        · have hbig : recordCount < n := by omega
          simp [hn, Option.filter_some, hbig]
  simp only [memoryPosition, positionWith, hfilter]

end EventCursor

end OrbitRelay
