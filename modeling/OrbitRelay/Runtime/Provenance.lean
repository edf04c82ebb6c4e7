import OrbitRelay.Runtime.Lifecycle

/-
  Where events come from.

  Whatever is stored, queued or delivered was in the batch of a dispatch, and
  every dispatch is that of a call with an approval. `Provenance` spells out
  what this means for one event: the call and the draft it was made of, and the
  handler that was registered when the call looked it up, whatever the registry
  has become since.
-/

namespace OrbitRelay.Runtime

open PipelineAdapter (appended begun)

/-- The event is what call `x` made of its draft `i`, with the approval `c`. -/
structure Provenance (storeId : EntityId) (queueCapacity : Nat) (tr : List Label) (x : TaskId) (i : Nat)
    (c : Approval) (event : Event) : Prop where
  /-- the handler accepted the action, then the authorizer did, then the same
  handler made the drafts -/
  approved : Approved tr x c
  /-- the handler was registered for the action's type when it was looked up -/
  registered : ∃ pre post ρ, tr = pre ++ .lookup x (some c.handler) :: post ∧
    (runtime storeId queueCapacity).Run (State.new storeId queueCapacity) pre ρ ∧
    ρ.registry.get c.action.actionType = some c.handler
  made : c.events[i]? = some event
  /-- type, payload and metadata are the draft's -/
  draft : c.drafts[i]? = some event.draft
  action : event.sessionId = c.action.sessionId ∧ event.actorId = c.action.actorId ∧ event.actionId = c.action.id

variable {storeId : EntityId} {queueCapacity : Nat} {ρ ρ' : State} {tr : List Label} {x : TaskId} {i : Nat}
  {c c' : Approval} {event event' : Event}

/-- The handler of an approval was registered when it was looked up. -/
theorem Approved.registered (h : (runtime storeId queueCapacity).Run (State.new storeId queueCapacity) tr ρ)
    (hc : Approved tr x c) : ∃ pre post ρ₀, tr = pre ++ .lookup x (some c.handler) :: post ∧
      (runtime storeId queueCapacity).Run (State.new storeId queueCapacity) pre ρ₀ ∧
      ρ₀.registry.get c.action.actionType = some c.handler := by
  have hlookup : .lookup x (some c.handler) ∈ tr := hc.mem (by simp [Approval.steps])
  obtain ⟨pre, post, ρ₀, ρ₁, rfl, hpre, (hstep : ρ₀.step (.lookup x (some c.handler)) = some ρ₁), _⟩ :=
    h.at_label hlookup
  refine ⟨pre, post, ρ₀, rfl, hpre, ?_⟩
  obtain ⟨e, hrunning, hstage, hget⟩ : ∃ e, ρ₀.executions.lookup x = some e ∧ e.stage = .started ∧
      ρ₀.registry.get e.action.actionType = some c.handler := by
    generalize some c.handler = found at hstep
    cases step_effect hstep with
    | lookup x e running stage => exact ⟨e, running, stage, rfl⟩
  -- up to there the call has only its action, and that is the approved one
  have hsofar := (Lifecycles.run hpre).call hrunning
  rw [hstage] at hsofar
  have hwhole : lifecycle x (pre ++ .lookup x (some c.handler) :: post) =
      .execute x e.action :: lifecycle x (.lookup x (some c.handler) :: post) := by
    rw [lifecycle_append, show lifecycle x pre = [.execute x e.action] from hsofar]
    rfl
  obtain ⟨rest, hrest⟩ := hc
  rw [hwhole, Approval.steps, List.cons_append, List.cons.injEq, Label.execute.injEq] at hrest
  rw [hrest.1.2]
  exact hget

/-- An event in the batch of a dispatch has a provenance. -/
theorem provenance_of_call (h : (runtime storeId queueCapacity).Run (State.new storeId queueCapacity) tr ρ)
    {call : PipelineAdapter.Dispatch} (hcall : ρ.pipeline.dispatches.lookup x = some call)
    (he : event ∈ call.events) : ∃ i c, Provenance storeId queueCapacity tr x i c event := by
  obtain ⟨c, hc, hevents⟩ := approved_of_call h hcall
  rw [← hevents] at he
  obtain ⟨i, hi⟩ := List.mem_iff_getElem?.mp he
  obtain ⟨draft, stamp, hdraft, _, rfl⟩ := Action.materialize_getElem?.mp hi
  exact ⟨i, c, hc, hc.registered h, hi, hdraft, rfl, rfl, rfl⟩

/-- A stored event has a provenance. -/
theorem provenance_of_stored (h : (runtime storeId queueCapacity).Run (State.new storeId queueCapacity) tr ρ)
    {r : StoredEvent} (hr : r ∈ ρ.pipeline.store.records) :
    ∃ x i c, Provenance storeId queueCapacity tr x i c r.event := by
  have hinv := PipelineAdapter.Invariant.run (pipeline_run h)
  obtain ⟨d, hd⟩ := hinv.origin hr
  obtain ⟨call, hcall, he⟩ := hinv.mem_of_appended hd
  exact ⟨d, provenance_of_call h hcall he⟩

/-- A draft makes one event. -/
theorem Provenance.unique (h : Provenance storeId queueCapacity tr x i c event)
    (h' : Provenance storeId queueCapacity tr x i c' event') : event = event' := by
  obtain rfl := h.approved.unique h'.approved
  exact Option.some.inj (h.made.symm.trans h'.made)

/-- A call that failed before its dispatch has dispatched nothing. -/
theorem not_dispatched (h : (runtime storeId queueCapacity).Run (State.new storeId queueCapacity) tr ρ)
    {e : Execution} (he : ρ.executions.lookup x = some e) (hstage : ¬e.stage.Dispatched) :
    ρ.pipeline.dispatches.lookup x = none ∧ ∀ c, ¬Approved tr x c := by
  have hnot : ∀ stamps events, .dispatch x stamps events ∉ tr := by
    intro stamps events hd
    refine ((Lifecycles.run h).call he).not_dispatched hstage (List.mem_filter.mpr ⟨hd, ?_⟩)
    simp [Label.task?]
  have hnone : ∀ c, ¬Approved tr x c := fun c hc => hnot c.stamps c.events (hc.mem (by simp [Approval.steps]))
  refine ⟨?_, hnone⟩
  cases hcall : ρ.pipeline.dispatches.lookup x with
  | none => rfl
  | some call =>
    obtain ⟨c, hc, _⟩ := approved_of_call h hcall
    exact absurd hc (hnone c)

/-- **Provenance.** In every reachable state each stored, queued or delivered
event is what some call made of one of its drafts; a draft has at most one
record; and a call that failed before its dispatch has put nothing into the
store or a queue. -/
theorem events_have_provenance
    (h : (runtime storeId queueCapacity).Run (State.new storeId queueCapacity) tr ρ) :
    (∀ r ∈ ρ.pipeline.store.records, ∃ x i c, Provenance storeId queueCapacity tr x i c r.event) ∧
    (∀ s m, ρ.pipeline.bus.subscriptions.lookup s = some m → ∀ event ∈ m.channel.queue,
      ∃ x i c, Provenance storeId queueCapacity tr x i c event) ∧
    (∀ s event, .pipeline (.bus (.owner s (.received (some event)))) ∈ tr →
      ∃ x i c, Provenance storeId queueCapacity tr x i c event) ∧
    (∀ x i c c', ∀ r ∈ ρ.pipeline.store.records, ∀ r' ∈ ρ.pipeline.store.records,
      Provenance storeId queueCapacity tr x i c r.event → Provenance storeId queueCapacity tr x i c' r'.event →
      r = r') ∧
    (∀ x e error, ρ.executions.lookup x = some e → e.stage = .returned (.error error) →
      (∀ id source, error ≠ .pipelineFailed id source) →
      (∀ i c event, ¬Provenance storeId queueCapacity tr x i c event) ∧
      (∀ event result, .pipeline (.append x event (.ok result)) ∉ tr) ∧
      ∀ s event result, .pipeline (.bus (.send x s event result)) ∉ tr) := by
  have hrun := pipeline_run h
  have hinv := PipelineAdapter.Invariant.run hrun
  have hsent : ∀ {d s event result}, .bus (.send d s event result) ∈ pipelineTrace tr →
      ∃ x i c, Provenance storeId queueCapacity tr x i c event := by
    intro d s event result hsend
    obtain ⟨call, hcall, he⟩ := PipelineAdapter.call_of_send hrun hsend
    exact ⟨d, provenance_of_call h hcall he⟩
  refine ⟨?_, ?_, ?_, ?_, ?_⟩
  · exact fun r hr => provenance_of_stored h hr
  · intro s m hm event he
    obtain ⟨d, hd⟩ := MemoryEventBus.sent_of_queued (PipelineAdapter.bus_run hrun) hm he
    exact hsent ((PipelineAdapter.mem_busTrace rfl).mp hd)
  · intro s event he
    have hreceived : .owner s (.received (some event)) ∈ PipelineAdapter.busTrace (pipelineTrace tr) :=
      (PipelineAdapter.mem_busTrace rfl).mpr ((mem_pipelineTrace rfl).mpr he)
    obtain ⟨d, hd⟩ := MemoryEventBus.sent_of_received (PipelineAdapter.bus_run hrun) hreceived
    exact hsent ((PipelineAdapter.mem_busTrace rfl).mp hd)
  · intro x i c c' r hr r' hr' hp hp'
    exact MemoryEventStore.State.eq_of_id_eq hr hr' (by rw [hp.unique hp'])
  · intro x e error he hstage herror
    have hnot : ¬e.stage.Dispatched := by
      rw [hstage]
      cases error with
      | pipelineFailed id source => exact absurd rfl (herror id source)
      -- the other four errors come before the dispatch
      | _ => exact id
    obtain ⟨hnone, hunapproved⟩ := not_dispatched h he hnot
    obtain ⟨happended, hbegun⟩ := hinv.uncalled hnone
    refine ⟨fun i c event hp => hunapproved c hp.approved, ?_, ?_⟩
    · intro event result hmem
      have hin : event ∈ appended x (pipelineTrace tr) :=
        List.mem_filterMap.mpr ⟨_, (mem_pipelineTrace rfl).mpr hmem, by simp⟩
      simp [happended] at hin
    · intro s event result hmem
      have hin := PipelineAdapter.begun_of_send hrun ((mem_pipelineTrace rfl).mpr hmem)
      simp [hbegun] at hin

/-- What a drawing handler gives, and the event made of it. -/
def drawn : EventDraft := ⟨⟨"canvas.drawn"⟩, Payload.new, BTreeMap.new⟩
def drawnEvent : Event := (Action.plain ⟨"canvas.draw"⟩).event drawn ⟨default, Timestamp.epoch⟩

/-- The handler is replaced while a call waits for the authorizer; the call
keeps the one it has. -/
def replaced : List Label :=
  [.register ⟨"canvas.draw"⟩ 1 (.ok ()), .execute 1 (Action.plain ⟨"canvas.draw"⟩), .lookup 1 (some 1),
    .validated 1 1 (.ok ()), .unregister ⟨"canvas.draw"⟩ (some 1), .register ⟨"canvas.draw"⟩ 2 (.ok ()),
    .authorized 1 (.ok ()), .handled 1 1 (.ok [drawn]), .dispatch 1 [⟨default, Timestamp.epoch⟩] [drawnEvent],
    .pipeline (.append 1 drawnEvent (.ok ⟨.forMemory default 1, drawnEvent⟩))]

theorem events_have_provenance_replaced : ∃ x i c, Provenance default 1 replaced x i c drawnEvent :=
  (events_have_provenance ((runtime default 1).run_after replaced (by decide))).1
    ⟨.forMemory default 1, drawnEvent⟩ (by decide)

end OrbitRelay.Runtime
