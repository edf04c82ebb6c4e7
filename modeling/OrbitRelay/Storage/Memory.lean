import OrbitRelay.Lib.Lts
import OrbitRelay.Lib.Table
import OrbitRelay.Storage.Query

/-
  The in-memory event store (orbitrelay-storage: memory.rs).

  The state behind the lock is a vector of records and a hash map from event
  ids to indices into it. That the two stay exact inverses, and that the record
  at index `i` carries the cursor of position `i + 1`, are fields of `State`:
  `append` has to prove them again for the state it leaves, and the indexing
  in `append` and `get` is in range by them.

  Every operation runs under the lock from its first look at the state to its
  last, so each is one step of `memoryEventStore`, and its trace lists the
  calls in the order they took the lock, each with its answer.

  Correspondence (Rust ↔ Lean):
    `State`                       ↔ `State`
    `MemoryEventStore::append`    ↔ `State.append`
    `MemoryEventStore::get`       ↔ `State.get`
    `MemoryEventStore::query`     ↔ `State.query`
-/

namespace OrbitRelay.MemoryEventStore

/-- The store's state, with its index and its cursors in order. -/
structure State where
  storeId : EntityId
  records : List StoredEvent
  eventIndices : Table EventId Nat
  indexed : ∀ id i, eventIndices.lookup id = some i ↔ records[i]?.map (·.event.id) = some id
  positioned : ∀ i r, records[i]? = some r → r.cursor = EventCursor.forMemory storeId (i + 1)

namespace State

/-- The state of a new store. -/
def new (storeId : EntityId) : State where
  storeId := storeId
  records := []
  eventIndices := ∅
  indexed := by simp
  positioned := by simp

variable {σ : State} {id : EventId} {event : Event} {i : Nat} {r : StoredEvent}

theorem index_lt (h : σ.eventIndices.lookup id = some i) : i < σ.records.length := by
  have hmap := (σ.indexed id i).mp h
  obtain ⟨r, hr, _⟩ := Option.map_eq_some_iff.mp hmap
  exact (List.getElem?_eq_some_iff.mp hr).1

theorem not_indexed_iff : σ.eventIndices.lookup id = none ↔ ∀ r ∈ σ.records, r.event.id ≠ id := by
  constructor
  · intro h r hr hid
    obtain ⟨i, hi⟩ := List.getElem?_of_mem hr
    have hsome := (σ.indexed id i).mpr (by rw [hi, Option.map_some, hid])
    rw [h] at hsome
    simp at hsome
  · intro h
    cases hl : σ.eventIndices.lookup id with
    | none => rfl
    | some i =>
      obtain ⟨r, hr, hid⟩ := Option.map_eq_some_iff.mp ((σ.indexed id i).mp hl)
      exact absurd hid (h r (List.mem_of_getElem? hr))

/-- The state with one more record, for an event whose id it does not hold. -/
def push (σ : State) (event : Event) (fresh : σ.eventIndices.lookup event.id = none) : State where
  storeId := σ.storeId
  records := σ.records ++ [⟨EventCursor.forMemory σ.storeId (σ.records.length + 1), event⟩]
  eventIndices := σ.eventIndices.insert event.id σ.records.length
  indexed := by
    intro id i
    -- the new id is indexed by the new last place, every other one as before
    by_cases hid : id = event.id
    · subst hid
      rw [AList.lookup_insert, List.getElem?_append]
      split
      · next hlt =>
        have hne := not_indexed_iff.mp fresh σ.records[i] (List.getElem_mem hlt)
        simp [List.getElem?_eq_getElem hlt, hne]
        omega
      · next hge =>
        by_cases hlen : i = σ.records.length
        · simp [hlen]
        · have hnone : ([⟨EventCursor.forMemory σ.storeId (σ.records.length + 1), event⟩] :
              List StoredEvent)[i - σ.records.length]? = none := by
            rw [List.getElem?_eq_none_iff, List.length_singleton]
            omega
          simp only [hnone, Option.map_none, reduceCtorEq, iff_false, Option.some.injEq]
          omega
    · rw [AList.lookup_insert_ne hid, σ.indexed id i, List.getElem?_append]
      split
      · rfl
      · next hge =>
        have hnone : σ.records[i]? = none := by
          rw [List.getElem?_eq_none_iff]
          omega
        have hne : ¬event.id = id := fun h => hid h.symm
        cases hsub : i - σ.records.length with
        | zero => simp [hnone, hne]
        | succ n => simp [hnone]
  positioned := by
    intro i r hr
    rw [List.getElem?_append] at hr
    split at hr
    · exact σ.positioned i r hr
    · next hge =>
      obtain ⟨hlt, hget⟩ := List.getElem?_eq_some_iff.mp hr
      have hi : i = σ.records.length := by
        rw [List.length_singleton] at hlt
        omega
      subst hi
      simp only [Nat.sub_self, List.getElem_cons_zero] at hget
      rw [← hget]

def append (σ : State) (event : Event) : Except StorageError StoredEvent × State :=
  match h : σ.eventIndices.lookup event.id with
  | some index =>
    let existing := σ.records.get ⟨index, index_lt h⟩
    -- content is compared only where the id is known
    if existing.event = event then (.ok existing, σ)
    else (.error (.eventConflict event.id), σ)
  | none =>
    let cursor := EventCursor.forMemory σ.storeId (σ.records.length + 1)
    (.ok ⟨cursor, event⟩, σ.push event h)

def get (σ : State) (id : EventId) : Option StoredEvent :=
  match h : σ.eventIndices.lookup id with
  | some index => some (σ.records.get ⟨index, index_lt h⟩)
  | none => none

/-- Where a page starts: after the cursor's record, or at the beginning. -/
def startPosition (σ : State) : Option EventCursor → Except StorageError Nat
  | some cursor => cursor.memoryPosition σ.storeId σ.records.length
  | none => .ok 0

/-- The page of a query after the first `start` records, with one record of
look-ahead. -/
def pageFrom (σ : State) (q : EventQuery) (start : Nat) : EventPage :=
  let records := ((σ.records.drop start).filter fun r => q.matches r.event).take (q.limit + 1)
  if records.length > q.limit then
    let records := records.take q.limit
    ⟨records, records.getLast?.map (·.cursor)⟩
  else
    ⟨records, none⟩

def query (σ : State) (q : EventQuery) : Except StorageError EventPage := do
  q.validate
  let start ← σ.startPosition q.after
  return σ.pageFrom q start

/-! ## What the operations do, by the records alone -/

/-- An event id is at one index. -/
theorem index_unique {i j : Nat} {r s : StoredEvent} (hi : σ.records[i]? = some r) (hj : σ.records[j]? = some s)
    (h : r.event.id = s.event.id) : i = j := by
  have hi' := (σ.indexed r.event.id i).mpr (by rw [hi, Option.map_some])
  have hj' := (σ.indexed r.event.id j).mpr (by rw [hj, Option.map_some, h])
  exact Option.some.inj (hi'.symm.trans hj')

/-- No two records share an event id. -/
theorem nodup_ids (σ : State) : (σ.records.map (·.event.id)).Nodup := by
  rw [List.nodup_iff_getElem?_ne_getElem?]
  intro i j hij hj heq
  rw [List.length_map] at hj
  rw [List.getElem?_map, List.getElem?_map, List.getElem?_eq_getElem hj, Option.map_some] at heq
  obtain ⟨r, hi, hid⟩ := Option.map_eq_some_iff.mp heq
  have hij' : i = j := index_unique hi (List.getElem?_eq_getElem hj) hid
  omega

theorem nodup (σ : State) : σ.records.Nodup := List.Nodup.of_map _ σ.nodup_ids

theorem eq_of_id_eq {r s : StoredEvent} (hr : r ∈ σ.records) (hs : s ∈ σ.records)
    (h : r.event.id = s.event.id) : r = s :=
  List.inj_on_of_nodup_map σ.nodup_ids hr hs h

theorem get_eq_some_iff : σ.get id = some r ↔ r ∈ σ.records ∧ r.event.id = id := by
  unfold get
  split
  · next index h =>
    have hmap := (σ.indexed id index).mp h
    rw [List.getElem?_eq_getElem (index_lt h), Option.map_some, Option.some.injEq] at hmap
    simp only [List.get_eq_getElem, Option.some.injEq]
    constructor
    · intro heq
      subst heq
      exact ⟨List.getElem_mem _, hmap⟩
    · intro hstored
      obtain ⟨hr, hid⟩ := hstored
      exact eq_of_id_eq (List.getElem_mem _) hr (by rw [hmap, hid])
  · next h =>
    simp only [reduceCtorEq, false_iff]
    intro hstored
    obtain ⟨hr, hid⟩ := hstored
    exact not_indexed_iff.mp h r hr hid

theorem get_eq_none_iff : σ.get id = none ↔ ∀ r ∈ σ.records, r.event.id ≠ id := by
  rw [Option.eq_none_iff_forall_ne_some]
  constructor
  · intro h r hr hid
    exact h r (get_eq_some_iff.mpr ⟨hr, hid⟩)
  · intro h r hr
    exact h r (get_eq_some_iff.mp hr).1 (get_eq_some_iff.mp hr).2

/-- An event whose id is taken changes nothing: the answer is the record with
that id, or a conflict where its content differs. -/
theorem append_of_get_some (h : σ.get event.id = some r) :
    σ.append event =
      (if r.event = event then .ok r else .error (.eventConflict event.id), σ) := by
  unfold get at h
  split at h
  · next index hi =>
    obtain rfl := Option.some.inj h
    unfold append
    split
    · next index' hi' =>
      obtain rfl : index = index' := Option.some.inj (hi.symm.trans hi')
      simp only
      split <;> rfl
    · next hn => exact absurd (hi.symm.trans hn) (by simp)
  · exact absurd h (by simp)

/-- An event whose id is new becomes the last record. -/
theorem append_of_get_none (h : σ.get event.id = none) :
    (σ.append event).1 = .ok ⟨EventCursor.forMemory σ.storeId (σ.records.length + 1), event⟩ ∧
      (σ.append event).2.records =
        σ.records ++ [⟨EventCursor.forMemory σ.storeId (σ.records.length + 1), event⟩] := by
  unfold append
  split
  · next index hi =>
    unfold get at h
    split at h
    · simp at h
    · next hn => exact absurd (hi.symm.trans hn) (by simp)
  · exact ⟨rfl, rfl⟩

@[simp] theorem append_storeId : (σ.append event).2.storeId = σ.storeId := by
  unfold append
  split
  · simp only
    split <;> rfl
  · rfl

/-- Appending never takes anything away. -/
theorem append_prefix (σ : State) (event : Event) : σ.records <+: (σ.append event).2.records := by
  cases h : σ.get event.id with
  | none =>
    rw [(append_of_get_none h).2]
    exact List.prefix_append _ _
  | some r =>
    rw [append_of_get_some h]

/-- A successful append leaves the event stored, under the record returned. -/
theorem get_of_append_ok (h : (σ.append event).1 = .ok r) :
    (σ.append event).2.get event.id = some r ∧ r.event = event := by
  cases hg : σ.get event.id with
  | none =>
    obtain ⟨hres, hrec⟩ := append_of_get_none hg
    rw [hres] at h
    obtain rfl := Except.ok.inj h
    exact ⟨get_eq_some_iff.mpr ⟨by rw [hrec]; simp, rfl⟩, rfl⟩
  | some s =>
    rw [append_of_get_some hg] at h ⊢
    simp only at h ⊢
    split at h
    · next heq =>
      obtain rfl := Except.ok.inj h
      exact ⟨hg, heq⟩
    · simp at h

/-- A refused append changes nothing. -/
theorem append_of_error {error : StorageError} (h : (σ.append event).1 = .error error) :
    (σ.append event).2 = σ := by
  cases hg : σ.get event.id with
  | none =>
    rw [(append_of_get_none hg).1] at h
    simp at h
  | some r => rw [append_of_get_some hg]

/-- A successful append changes nothing or adds the record it returns. -/
theorem append_ok_cases (h : (σ.append event).1 = .ok r) :
    (σ.append event).2 = σ ∨ (σ.append event).2.records = σ.records ++ [r] := by
  cases hg : σ.get event.id with
  | none =>
    obtain ⟨hres, hrec⟩ := append_of_get_none hg
    rw [hres] at h
    obtain rfl := Except.ok.inj h
    exact .inr hrec
  | some r' =>
    rw [append_of_get_some hg]
    exact .inl rfl

/-- After a successful append every record is an old one or the one returned. -/
theorem mem_append_ok (h : (σ.append event).1 = .ok r) {s : StoredEvent}
    (hs : s ∈ (σ.append event).2.records) : s ∈ σ.records ∨ s = r := by
  rcases append_ok_cases h with hsame | hrec
  · rw [hsame] at hs
    exact .inl hs
  · rw [hrec] at hs
    simpa using hs

theorem get_of_prefix {τ : State} (hp : σ.records <+: τ.records) (h : σ.get id = some r) :
    τ.get id = some r := by
  obtain ⟨hr, hid⟩ := get_eq_some_iff.mp h
  exact get_eq_some_iff.mpr ⟨hp.subset hr, hid⟩

end State

/-! ## The store as a system -/

/-- A call and its answer. -/
inductive Label where
  | append (event : Event) (result : Except StorageError StoredEvent)
  | get (id : EventId) (result : Option StoredEvent)
  | query (q : EventQuery) (result : Except StorageError EventPage)

def step (σ : State) : Label → Option State
  | .append event result => if (σ.append event).1 = result then some (σ.append event).2 else none
  | .get id result => if σ.get id = result then some σ else none
  | .query q result => if σ.query q = result then some σ else none

/-- A store and its clients: the calls in the order they took the lock. -/
def memoryEventStore (storeId : EntityId) : Lts State Label := ⟨State.new storeId, step⟩

theorem step_append_iff {σ τ : State} {event : Event} {result : Except StorageError StoredEvent} :
    step σ (.append event result) = some τ ↔ (σ.append event).1 = result ∧ (σ.append event).2 = τ := by
  simp [step]

theorem step_get_iff {σ τ : State} {id : EventId} {result : Option StoredEvent} :
    step σ (.get id result) = some τ ↔ σ.get id = result ∧ σ = τ := by
  simp [step]

theorem step_query_iff {σ τ : State} {q : EventQuery} {result : Except StorageError EventPage} :
    step σ (.query q result) = some τ ↔ σ.query q = result ∧ σ = τ := by
  simp [step]

/-- What every step keeps: the store id, and every record where it is. -/
def Extends (σ τ : State) : Prop := τ.storeId = σ.storeId ∧ σ.records <+: τ.records

theorem Extends.refl (σ : State) : Extends σ σ := ⟨rfl, List.prefix_refl _⟩

theorem Extends.trans {σ τ υ : State} (h : Extends σ τ) (h' : Extends τ υ) : Extends σ υ :=
  ⟨h'.1.trans h.1, h.2.trans h'.2⟩

theorem Extends.append (σ : State) (event : Event) : Extends σ (σ.append event).2 :=
  ⟨State.append_storeId, σ.append_prefix event⟩

theorem step_extends {σ τ : State} {l : Label} (h : step σ l = some τ) : Extends σ τ := by
  cases l with
  | append event result =>
    obtain ⟨_, rfl⟩ := step_append_iff.mp h
    exact Extends.append σ event
  | get id result =>
    obtain ⟨_, rfl⟩ := step_get_iff.mp h
    exact Extends.refl σ
  | query q result =>
    obtain ⟨_, rfl⟩ := step_query_iff.mp h
    exact Extends.refl σ

theorem run_extends {storeId : EntityId} {σ τ : State} {tr : List Label}
    (h : (memoryEventStore storeId).Run σ tr τ) : Extends σ τ :=
  h.monotone Extends.refl Extends.trans fun _ _ _ => step_extends

end OrbitRelay.MemoryEventStore
