import OrbitRelay.Lib.KeyedLog
import OrbitRelay.Storage.Cursor

/-
  The memory store is a first-writer-wins log.

  The abstract store is a list of events with one operation, `KeyedLog.put` by
  event id: no index, no cursors. `append_refines_put` says that `append` does
  to the events exactly what `put` does, and answers as `put` answers. Over a
  whole run the events are therefore the puts of everything appended, which is
  `KeyedLog.firsts` of it, however the calls were ordered, answered or repeated.
-/

namespace OrbitRelay.MemoryEventStore

open KeyedLog

namespace State

/-- The log a state stands for. -/
def events (σ : State) : List Event := σ.records.map (·.event)

variable {σ : State} {event : Event}

theorem nodup_events (σ : State) : σ.events.Nodup := by
  have hids := σ.nodup_ids
  refine List.Nodup.of_map (·.id) ?_
  rwa [events, List.map_map]

theorem find_events (σ : State) (id : EventId) :
    σ.events.find? (fun e => e.id = id) = (σ.get id).map (·.event) := by
  cases h : σ.get id with
  | none =>
    rw [Option.map_none, List.find?_eq_none]
    intro e he
    obtain ⟨r, hr, rfl⟩ := List.mem_map.mp he
    simpa using get_eq_none_iff.mp h r hr
  | some r =>
    obtain ⟨hr, hid⟩ := get_eq_some_iff.mp h
    have hsome : (σ.events.find? fun e => e.id = id).isSome := by
      rw [List.find?_isSome]
      exact ⟨r.event, List.mem_map_of_mem hr, by simpa using hid⟩
    obtain ⟨e, he⟩ := Option.isSome_iff_exists.mp hsome
    obtain ⟨s, hs, rfl⟩ := List.mem_map.mp (List.mem_of_find?_eq_some he)
    have hsid : s.event.id = id := by simpa using List.find?_some he
    rw [he, eq_of_id_eq hs hr (by rw [hsid, hid])]
    rfl

/-- What `put` answers, as `append` says it. -/
def answer (σ : State) (event : Event) : Put Event → Except StorageError StoredEvent
  | .fresh => .ok ⟨EventCursor.forMemory σ.storeId (σ.records.length + 1), event⟩
  | .same => match σ.get event.id with
    | some r => .ok r
    | none => .error (.eventConflict event.id)
  | .conflict _ => .error (.eventConflict event.id)

/-- `append` refines `put`: the same log afterwards, the same answer. -/
theorem append_refines_put (σ : State) (event : Event) :
    (σ.append event).2.events = (put Event.id σ.events event).2 ∧
      (σ.append event).1 = σ.answer event (put Event.id σ.events event).1 := by
  cases h : σ.get event.id with
  | none =>
    have hfresh : ∀ e ∈ σ.events, e.id ≠ event.id := by
      intro e he
      obtain ⟨r, hr, rfl⟩ := List.mem_map.mp he
      exact get_eq_none_iff.mp h r hr
    obtain ⟨hres, hrec⟩ := append_of_get_none h
    rw [put_of_fresh Event.id hfresh, events, hrec, List.map_append]
    exact ⟨rfl, hres⟩
  | some r =>
    have hfind : σ.events.find? (fun e => e.id = event.id) = some r.event := by
      rw [find_events, h, Option.map_some]
    rw [append_of_get_some h, put_of_mem Event.id hfind]
    refine ⟨rfl, ?_⟩
    by_cases heq : r.event = event <;> simp [answer, heq, h]

/-- A successful append finds its event in the log, or adds it under a new id. -/
theorem append_ok_events {r : StoredEvent} (h : (σ.append event).1 = .ok r) :
    (event ∈ σ.events ∧ (σ.append event).2 = σ) ∨
      ((∀ e ∈ σ.events, e.id ≠ event.id) ∧ (σ.append event).2.events = σ.events ++ [event]) := by
  cases hget : σ.get event.id with
  | some s =>
    rw [append_of_get_some hget] at h ⊢
    simp only at h
    split at h
    · next heq =>
      refine .inl ⟨?_, rfl⟩
      rw [← heq]
      exact List.mem_map_of_mem (get_eq_some_iff.mp hget).1
    · simp at h
  | none =>
    refine .inr ⟨?_, ?_⟩
    · intro e he
      obtain ⟨r, hr, rfl⟩ := List.mem_map.mp he
      exact get_eq_none_iff.mp hget r hr
    · rw [events, (append_of_get_none hget).2, List.map_append]
      rfl

end State

/-- The events of the append calls of a trace, answered well or not. -/
def appended (tr : List Label) : List Event :=
  tr.filterMap fun
    | .append event _ => some event
    | _ => none

theorem appended_append (tr tr' : List Label) : appended (tr ++ tr') = appended tr ++ appended tr' :=
  List.filterMap_append

/-- A run of the store is a run of puts: what was appended, put in the order of
the calls. -/
theorem events_eq_puts {storeId : EntityId} {tr : List Label} {σ : State}
    (h : (memoryEventStore storeId).Run (State.new storeId) tr σ) :
    σ.events = puts Event.id [] (appended tr) := by
  refine Lts.Run.induct (P := fun tr σ => σ.events = puts Event.id [] (appended tr)) rfl ?_ h
  intro tr σ l τ _ ih hstep
  cases l with
  | append event result =>
    obtain ⟨_, rfl⟩ := step_append_iff.mp hstep
    have hlast : appended [Label.append event result] = [event] := rfl
    rw [(σ.append_refines_put event).1, ih, appended_append, hlast, puts_snoc]
  -- the two readers append nothing and leave the state as it is
  | get id result =>
    obtain ⟨_, rfl⟩ := step_get_iff.mp hstep
    rw [appended_append, ih]
    simp [appended]
  | query q result =>
    obtain ⟨_, rfl⟩ := step_query_iff.mp hstep
    rw [appended_append, ih]
    simp [appended]

/-- After any sequence of calls the log holds the first event of every id. -/
theorem events_eq_firsts {storeId : EntityId} {tr : List Label} {σ : State}
    (h : (memoryEventStore storeId).Run (State.new storeId) tr σ) :
    σ.events = firsts Event.id (appended tr) := by
  rw [events_eq_puts h, puts_eq_firsts]

/-- `get` answers with the first event appended under the id, whatever came later. -/
theorem get_eq_first {storeId : EntityId} {tr : List Label} {σ : State}
    (h : (memoryEventStore storeId).Run (State.new storeId) tr σ) (id : EventId) :
    (σ.get id).map (·.event) = (appended tr).find? fun e => e.id = id := by
  rw [← State.find_events, events_eq_firsts h]
  exact find_firsts Event.id id _

theorem run_storeId {storeId : EntityId} {tr : List Label} {σ : State}
    (h : (memoryEventStore storeId).Run (State.new storeId) tr σ) : σ.storeId = storeId :=
  (run_extends h).1

/-- The answer of `append` by what is stored under the event's id, and that
only a new id changes the state. -/
theorem append_answers (σ : State) (event : Event) :
    (σ.get event.id = none →
      (σ.append event).1 = .ok ⟨EventCursor.forMemory σ.storeId (σ.records.length + 1), event⟩ ∧
      (σ.append event).2.records =
        σ.records ++ [⟨EventCursor.forMemory σ.storeId (σ.records.length + 1), event⟩]) ∧
    (∀ r, σ.get event.id = some r → r.event = event → (σ.append event).1 = .ok r) ∧
    ((∃ r, σ.get event.id = some r ∧ r.event ≠ event) ↔
      (σ.append event).1 = .error (.eventConflict event.id)) ∧
    ((σ.get event.id).isSome → (σ.append event).2 = σ) := by
  cases h : σ.get event.id with
  | none =>
    obtain ⟨hres, hrec⟩ := State.append_of_get_none h
    simp [hres, hrec]
  | some r =>
    rw [State.append_of_get_some h]
    by_cases heq : r.event = event <;> simp [heq]

/-- A record that `append` has returned is what `get` returns from then on. -/
theorem get_since_append {storeId : EntityId} {σ τ : State} {tr : List Label} {event : Event} {r : StoredEvent}
    (h : (σ.append event).1 = .ok r) (hrun : (memoryEventStore storeId).Run (σ.append event).2 tr τ) :
    τ.get event.id = some r :=
  State.get_of_prefix (run_extends hrun).2 (State.get_of_append_ok h).1

/-- **The store is a first-writer-wins append-only log**, over every sequence
of calls from the empty store, valid or rejected. -/
theorem refines_first_writer_log (storeId : EntityId) (tr : List Label) (σ : State)
    (h : (memoryEventStore storeId).Run (State.new storeId) tr σ) :
    -- the first event of each id, in the order they were first appended
    σ.records.map (·.event) = firsts Event.id (appended tr) ∧
    -- the index and the records are inverses
    (∀ id i, σ.eventIndices.lookup id = some i ↔ ∃ r, σ.records[i]? = some r ∧ r.event.id = id) ∧
    (σ.records.map (·.event.id)).Nodup ∧
    (∀ id i, σ.eventIndices.lookup id = some i → i < σ.records.length) ∧
    (∀ i r, σ.records[i]? = some r → r.cursor = EventCursor.forMemory storeId (i + 1)) ∧
    -- records stay where they are
    (∀ tr' τ, (memoryEventStore storeId).Run σ tr' τ →
      σ.records <+: τ.records ∧ ∀ id r, σ.get id = some r → τ.get id = some r) ∧
    -- what a call has returned is what `get` returns ever after
    (∀ l ∈ tr, ∀ r ∈ l.records, σ.get r.event.id = some r) ∧
    (∀ event r, (σ.append event).1 = .ok r → r.event = event ∧
      ∀ tr' τ, (memoryEventStore storeId).Run (σ.append event).2 tr' τ → τ.get event.id = some r) ∧
    -- the answers of `append`, and the calls that change nothing
    (∀ event,
      (σ.get event.id = none →
        (σ.append event).1 = .ok ⟨EventCursor.forMemory storeId (σ.records.length + 1), event⟩ ∧
        (σ.append event).2.records =
          σ.records ++ [⟨EventCursor.forMemory storeId (σ.records.length + 1), event⟩]) ∧
      (∀ r, σ.get event.id = some r → r.event = event → (σ.append event).1 = .ok r) ∧
      ((∃ r, σ.get event.id = some r ∧ r.event ≠ event) ↔
        (σ.append event).1 = .error (.eventConflict event.id)) ∧
      ((σ.get event.id).isSome → (σ.append event).2 = σ)) ∧
    (∀ id result τ, step σ (.get id result) = some τ → τ = σ) ∧
    (∀ q result τ, step σ (.query q result) = some τ → τ = σ) := by
  refine ⟨events_eq_firsts h, ?_, σ.nodup_ids, fun _ _ => State.index_lt, ?_, ?_, ?_, ?_, ?_, ?_, ?_⟩
  · intro id i
    rw [σ.indexed id i, Option.map_eq_some_iff]
  · intro i r hr
    rw [← run_storeId h]
    exact σ.positioned i r hr
  · intro tr' τ hrun
    have hp := (run_extends hrun).2
    exact ⟨hp, fun _ _ hget => State.get_of_prefix hp hget⟩
  · intro l hl r hr
    exact State.get_eq_some_iff.mpr ⟨(mem_of_returned h hl).1 r hr, rfl⟩
  · intro event r hok
    exact ⟨(State.get_of_append_ok hok).2, fun _ _ hrun => get_since_append hok hrun⟩
  · rw [← run_storeId h]
    exact append_answers σ
  · intro id result τ hstep
    exact (step_get_iff.mp hstep).2.symm
  · intro q result τ hstep
    exact (step_query_iff.mp hstep).2.symm

/-- An append, its retry, a second event, and a conflict with the first. -/
def writes : List Label :=
  let a := Event.plain ⟨"a", by decide⟩ ⟨"first"⟩
  let b := Event.plain ⟨"b", by decide⟩ ⟨"second"⟩
  let a' := Event.plain ⟨"a", by decide⟩ ⟨"other"⟩
  [.append a (.ok ⟨.forMemory default 1, a⟩), .append a (.ok ⟨.forMemory default 1, a⟩),
    .append b (.ok ⟨.forMemory default 2, b⟩), .append a' (.error (.eventConflict a'.id)),
    .get a.id (some ⟨.forMemory default 1, a⟩)]

theorem refines_first_writer_log_writes :
    ((memoryEventStore default).after writes (by decide)).records.map (·.event) =
      firsts Event.id (appended writes) :=
  (refines_first_writer_log default writes _ ((memoryEventStore default).run_after writes (by decide))).1

end OrbitRelay.MemoryEventStore
