/-
  orbitrelay-core: the value types every crate shares.

  `EntityId` wraps a UUID. Nothing in the repository looks inside one except to
  print it, so an id is kept as the text it prints; that text is made of
  hexadecimal digits and hyphens, and the one fact the cursors rest on is that
  it contains no colon.

  `Timestamp` is an instant with a UTC offset. It is kept as nanoseconds since
  the Unix epoch, inside the years the `time` crate represents; comparing two
  timestamps compares the instants.
-/

namespace OrbitRelay

/-- A random, opaque identifier for a core entity. -/
structure EntityId where
  text : String
  colonFree : ':' ∉ text.toList
  deriving DecidableEq

instance : Inhabited EntityId := ⟨⟨"", by decide⟩⟩

/-- A compact three-part version value. -/
structure Version where
  major : UInt16
  minor : UInt16
  patch : UInt16
  deriving DecidableEq

/-- The entries of a `BTreeMap` with string keys, in key order. -/
structure BTreeMap (β : Type) where
  entries : List (String × β)
  sorted : entries.Pairwise fun a b => a.1 < b.1
  deriving DecidableEq

/-- The map without entries. -/
def BTreeMap.new {β : Type} : BTreeMap β := ⟨[], List.Pairwise.nil⟩

/-- An ordered collection of string key-value metadata. -/
abbrev Metadata := BTreeMap String

/-- The first instant of the year -9999, in nanoseconds since the Unix epoch. -/
def Timestamp.minNanos : Int := -377705116800 * 1000000000

/-- The last instant of the year 9999. -/
def Timestamp.maxNanos : Int := 253402300799 * 1000000000 + 999999999

/-- An immutable point in time, always represented with a UTC offset. -/
structure Timestamp where
  nanos : Int
  inRange : Timestamp.minNanos ≤ nanos ∧ nanos ≤ Timestamp.maxNanos
  deriving DecidableEq

namespace Timestamp

instance : LT Timestamp := ⟨fun a b => a.nanos < b.nanos⟩
instance : LE Timestamp := ⟨fun a b => a.nanos ≤ b.nanos⟩
instance (a b : Timestamp) : Decidable (a < b) := inferInstanceAs (Decidable (a.nanos < b.nanos))
instance (a b : Timestamp) : Decidable (a ≤ b) := inferInstanceAs (Decidable (a.nanos ≤ b.nanos))

/-- The Unix epoch. -/
def epoch : Timestamp := ⟨0, by decide⟩

end Timestamp

end OrbitRelay
