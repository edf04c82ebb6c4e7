import OrbitRelay.Storage.Log

/-
  Concurrent appends converge.

  The clients' requests reach the lock in some order. Which content wins an id
  may depend on it; what cannot is that every requested id is stored, with one
  of the contents requested for it, and that each request is answered by what
  is stored in the end: the answers of a run are those of its last state
  (`append_answer`), since a record once stored stays.
-/

namespace OrbitRelay.MemoryEventStore

open KeyedLog

variable {storeId : EntityId} {σ τ : State} {tr : List Label}

theorem mem_events {e : Event} : e ∈ σ.events ↔ ∃ r ∈ σ.records, r.event = e := List.mem_map

/-- Requests can take effect in any order: each is answered when its turn comes. -/
theorem exists_run (storeId : EntityId) (order : List Event) :
    ∃ tr σ, (memoryEventStore storeId).Run (State.new storeId) tr σ ∧ appended tr = order := by
  induction order using List.reverseRecOn with
  | nil => exact ⟨[], _, Lts.Run.nil _ _, rfl⟩
  | append_singleton order event ih =>
    obtain ⟨tr, σ, hrun, happ⟩ := ih
    refine ⟨tr ++ [.append event (σ.append event).1], (σ.append event).2, ?_, ?_⟩
    · exact hrun.snoc (step_append_iff.mpr ⟨rfl, rfl⟩)
    · rw [appended_append, happ]
      rfl

theorem stored_id_iff (h : (memoryEventStore storeId).Run (State.new storeId) tr σ) (id : EventId) :
    (∃ r ∈ σ.records, r.event.id = id) ↔ ∃ e ∈ appended tr, e.id = id := by
  rw [← exists_firsts_iff Event.id, ← events_eq_firsts h]
  constructor
  · intro hstored
    obtain ⟨r, hr, hid⟩ := hstored
    exact ⟨r.event, mem_events.mpr ⟨r, hr, rfl⟩, hid⟩
  · intro hstored
    obtain ⟨e, he, hid⟩ := hstored
    obtain ⟨r, hr, rfl⟩ := mem_events.mp he
    exact ⟨r, hr, hid⟩

/-- What is stored was appended. -/
theorem appended_of_stored (h : (memoryEventStore storeId).Run (State.new storeId) tr σ) {e : Event}
    (he : e ∈ σ.events) : e ∈ appended tr := by
  rw [events_eq_firsts h, mem_firsts_iff] at he
  exact List.mem_of_find?_eq_some he

/-- The answer of an append, by what is stored under its id at any later time:
that record, or a conflict where it has another content. -/
theorem append_answer (h : (memoryEventStore storeId).Run τ tr σ) {event : Event}
    {result : Except StorageError StoredEvent} (hmem : Label.append event result ∈ tr) {r : StoredEvent}
    (hr : σ.get event.id = some r) :
    result = if r.event = event then .ok r else .error (.eventConflict event.id) := by
  obtain ⟨_, _, ρ, ρ', _, _, hstep, hrest⟩ := h.at_label hmem
  obtain ⟨hres, rfl⟩ := step_append_iff.mp hstep
  have hkeep : ∀ s, (ρ.append event).2.get event.id = some s → σ.get event.id = some s := by
    intro s hs
    exact State.get_of_prefix (run_extends hrest).2 hs
  cases hget : ρ.get event.id with
  | none =>
    have hok := (State.append_of_get_none hget).1
    have hlater := hkeep _ (State.get_of_append_ok hok).1
    obtain rfl := Option.some.inj (hr.symm.trans hlater)
    rw [← hres, hok, if_pos rfl]
  | some s =>
    have hanswer := State.append_of_get_some hget
    rw [hanswer] at hres hkeep
    obtain rfl := Option.some.inj (hr.symm.trans (hkeep s hget))
    exact hres.symm

/-- Where every id is appended with one content, everything appended is stored. -/
theorem stored_iff_of_consistent (h : (memoryEventStore storeId).Run (State.new storeId) tr σ)
    (hone : ∀ a ∈ appended tr, ∀ b ∈ appended tr, a.id = b.id → a = b) (e : Event) :
    e ∈ σ.events ↔ e ∈ appended tr := by
  rw [events_eq_firsts h]
  exact mem_firsts_of_consistent Event.id hone

/-- Two stores of the same events answer every `get` alike, cursors aside. -/
theorem State.get_of_same_events (hsame : ∀ e, e ∈ σ.events ↔ e ∈ τ.events) (id : EventId) :
    (σ.get id).map (·.event) = (τ.get id).map (·.event) := by
  -- an id is stored in both or in neither, and with the one event that has it
  cases hget : σ.get id with
  | none =>
    have hnone := State.get_eq_none_iff.mp hget
    have hnone' : τ.get id = none := by
      rw [State.get_eq_none_iff]
      intro r hr hid
      obtain ⟨s, hs, heq⟩ := mem_events.mp ((hsame r.event).mpr (mem_events.mpr ⟨r, hr, rfl⟩))
      exact hnone s hs (by rw [heq, hid])
    rw [hnone']
  | some r =>
    obtain ⟨hr, hid⟩ := State.get_eq_some_iff.mp hget
    obtain ⟨s, hs, heq⟩ := mem_events.mp ((hsame r.event).mp (mem_events.mpr ⟨r, hr, rfl⟩))
    have hget' : τ.get id = some s := State.get_eq_some_iff.mpr ⟨hs, by rw [heq, hid]⟩
    rw [hget', Option.map_some, Option.map_some, heq]

/-- **Concurrent appends converge.** Whatever the order in which the requests
take effect, the stored ids are the requested ones; under each there is one
record, with a requested content, and it answers every request for the id: the
same record for its own content, a conflict for any other. Where every id is
requested with one content, all orders store the same events and answer every
`get` alike, cursors aside. -/
theorem appends_converge (storeId : EntityId) (requests : List Event) :
    (∀ order, order.Perm requests → ∃ tr σ,
      (memoryEventStore storeId).Run (State.new storeId) tr σ ∧ appended tr = order) ∧
    ∀ tr σ, (memoryEventStore storeId).Run (State.new storeId) tr σ → (appended tr).Perm requests →
      (∀ id, (∃ r ∈ σ.records, r.event.id = id) ↔ ∃ e ∈ requests, e.id = id) ∧
      (∀ id, (∃ e ∈ requests, e.id = id) → ∃ r, σ.get id = some r ∧
        (∀ s ∈ σ.records, s.event.id = id → s = r) ∧ r.event ∈ requests ∧
        ∀ event result, .append event result ∈ tr → event.id = id →
          (r.event = event → result = .ok r) ∧
          (r.event ≠ event → result = .error (.eventConflict id))) ∧
      ∀ tr' σ', (memoryEventStore storeId).Run (State.new storeId) tr' σ' →
        (appended tr').Perm requests →
        (∀ id, (∃ r ∈ σ.records, r.event.id = id) ↔ ∃ r ∈ σ'.records, r.event.id = id) ∧
        ((∀ a ∈ requests, ∀ b ∈ requests, a.id = b.id → a = b) →
          (∀ e, (∃ r ∈ σ.records, r.event = e) ↔ ∃ r ∈ σ'.records, r.event = e) ∧
          ∀ id, (σ.get id).map (·.event) = (σ'.get id).map (·.event)) := by
  -- the stored ids are those requested, so a run is compared with another through the requests
  have hids : ∀ {tr σ}, (memoryEventStore storeId).Run (State.new storeId) tr σ →
      (appended tr).Perm requests →
      ∀ id, (∃ r ∈ σ.records, r.event.id = id) ↔ ∃ e ∈ requests, e.id = id := by
    intro tr σ h hperm id
    rw [stored_id_iff h]
    simp only [hperm.mem_iff]
  refine ⟨fun order _ => exists_run storeId order, ?_⟩
  intro tr σ h hperm
  refine ⟨hids h hperm, ?_, ?_⟩
  · intro id hrequested
    obtain ⟨r, hr, rfl⟩ := (hids h hperm id).mpr hrequested
    refine ⟨r, State.get_eq_some_iff.mpr ⟨hr, rfl⟩, ?_, ?_, ?_⟩
    · intro s hs hid
      exact State.eq_of_id_eq hs hr hid
    · exact hperm.mem_iff.mp (appended_of_stored h (mem_events.mpr ⟨r, hr, rfl⟩))
    · intro event result hmem hid
      have hanswer := append_answer h hmem (State.get_eq_some_iff.mpr ⟨hr, hid.symm⟩)
      rw [hid] at hanswer
      constructor
      · intro heq
        rw [hanswer, if_pos heq]
      · intro hne
        rw [hanswer, if_neg hne]
  · intro tr' σ' h' hperm'
    refine ⟨fun id => (hids h hperm id).trans (hids h' hperm' id).symm, ?_⟩
    intro hone
    -- of the requests, every run stores all
    have hall : ∀ {tr σ}, (memoryEventStore storeId).Run (State.new storeId) tr σ →
        (appended tr).Perm requests → ∀ e, e ∈ σ.events ↔ e ∈ requests := by
      intro tr σ h hperm e
      rw [stored_iff_of_consistent h, hperm.mem_iff]
      intro a ha b hb hid
      exact hone a (hperm.mem_iff.mp ha) b (hperm.mem_iff.mp hb) hid
    have hsame : ∀ e, e ∈ σ.events ↔ e ∈ σ'.events := by
      intro e
      rw [hall h hperm, hall h' hperm']
    refine ⟨?_, State.get_of_same_events hsame⟩
    intro e
    rw [← mem_events, ← mem_events, hsame]

end OrbitRelay.MemoryEventStore
