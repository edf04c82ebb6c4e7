import OrbitRelay.Runtime.Provenance

/-
  What the result of a call tells (orbitrelay-runtime: runtime.rs, error.rs;
  orbitrelay-server: main.rs).

  A call ends where its first step fails, and its result names that step: what
  was asked before it, what was not asked any more, and what has come into the
  store and to the bus. `Tells` puts this together for all results. A server
  whose authorizer is the one of `main` ends every call before its handler.

  Correspondence (Rust ↔ Lean):
    `UnconfiguredAuthorizer::authorize`   ↔ `UnconfiguredAuthorizer.authorize`
-/

namespace OrbitRelay.PipelineAdapter

variable {storeId : EntityId} {queueCapacity : Nat} {σ : State} {tr : List Label} {d : TaskId} {call : Dispatch}
  {error : PipelineError}

/-- What a failed call has to say: the first event of its batch that is not stored. -/
def FailedAt (events appended : List Event) (error : PipelineError) : Prop :=
  ∃ event rest, events = appended ++ event :: rest ∧ error = persistenceFailed event

/-- A dispatch fails at an event of its batch, and has appended the ones before. -/
theorem failedAt_of_returned (h : (pipeline storeId queueCapacity).Run (State.new storeId queueCapacity) tr σ)
    (hcall : σ.dispatches.lookup d = some call) (hstage : call.stage = .returned (.error error)) :
    FailedAt call.events (appended d tr) error := by
  refine Lts.Run.induct (P := fun tr σ => ∀ call, σ.dispatches.lookup d = some call →
    call.stage = .returned (.error error) → FailedAt call.events (appended d tr) error)
    (by simp [State.new]) ?_ h call hcall hstage
  intro tr τ l υ hrun ih hstep call hcall hstage
  have hinv := Invariant.run hrun
  rw [appended_append]
  have hidle : appended d [l] = [] → τ.dispatches.lookup d = some call →
      FailedAt call.events (appended d tr ++ appended d [l]) error := by
    intro hl hold
    rw [hl, List.append_nil]
    exact ih call hold hstage
  -- a step of some call, which does not fail with it
  have hother : ∀ {d₀ : TaskId} {call₀ : Dispatch} {stage₀ : Stage},
      (τ.dispatches.insert d₀ { call₀ with stage := stage₀ }).lookup d = some call →
      (∀ e, stage₀ ≠ .returned (.error e)) → (∀ d', d' ≠ d₀ → appended d' [l] = []) →
      FailedAt call.events (appended d tr ++ appended d [l]) error := by
    intro d₀ call₀ stage₀ hlookup hne hl
    rcases Table.lookup_insert_eq_some.mp hlookup with ⟨rfl, rfl⟩ | ⟨hd, hold⟩
    · exact absurd hstage (hne error)
    · exact hidle (hl d hd) hold
  have hfails : ∀ {d₀ : TaskId} {call₀ : Dispatch} {event : Event} {rest : List Event},
      τ.dispatches.lookup d₀ = some call₀ →
      call₀.stage = .appending (event :: rest) →
      (τ.dispatches.insert d₀ { call₀ with stage := .returned (.error (persistenceFailed event)) }).lookup d =
        some call → (∀ d', appended d' [l] = []) → FailedAt call.events (appended d tr ++ appended d [l]) error := by
    intro d₀ call₀ event rest running hstage₀ hlookup hl
    rcases Table.lookup_insert_eq_some.mp hlookup with ⟨rfl, rfl⟩ | ⟨_, hold⟩
    · have hprogress := hinv.call running
      rw [hstage₀] at hprogress
      rw [hl d, List.append_nil]
      exact ⟨event, rest, hprogress.1, (Except.error.inj (Stage.returned.inj hstage)).symm⟩
    · exact hidle (hl d) hold
  cases step_effect hstep with
  | dispatch d₀ events fresh =>
    rcases Table.lookup_insert_eq_some.mp hcall with ⟨rfl, rfl⟩ | ⟨_, hold⟩
    · simp at hstage
    · exact hidle rfl hold
  | appended d₀ event rest call₀ r running stage =>
    refine hother hcall (by simp) ?_
    intro d' hd'
    simp [appended, Ne.symm hd']
  | refused d₀ event rest call₀ e running stage => exact hfails running stage hcall fun _ => rfl
  | appendFailed d₀ event rest call₀ e running stage => exact hfails running stage hcall fun _ => rfl
  | persisted d₀ call₀ running stage => exact hother hcall (by simp) fun _ _ => rfl
  | publish d₀ event rest call₀ bus running stage => exact hother hcall (by simp) fun _ _ => rfl
  | published d₀ event rest call₀ running stage => exact hother hcall (by simp) fun _ _ => rfl
  | returned d₀ call₀ running stage => exact hother hcall (by simp) fun _ _ => rfl
  | bus k bus => exact hidle rfl hcall
  | get id => exact hidle rfl hcall
  | query q => exact hidle rfl hcall

end OrbitRelay.PipelineAdapter

namespace OrbitRelay

open PipelineAdapter (FailedAt appended begun)

/-- The authorizer of a server that has not been given one. -/
def UnconfiguredAuthorizer.authorize (_action : Action) : Except AuthorizationError Unit :=
  .error ⟨"authorization provider is not configured"⟩

namespace Runtime

variable {storeId : EntityId} {queueCapacity : Nat} {ρ : State} {tr : List Label} {x : TaskId} {e : Execution}
  {action : Action} {result : Except RuntimeError (List Event)}

/-! ## Results -/

/-- The call has put nothing into the store and begun to publish nothing. -/
def Effectless (x : TaskId) (tr : List Label) : Prop :=
  appended x (pipelineTrace tr) = [] ∧ begun x (pipelineTrace tr) = []

/-- What a result says of the steps of its call and of what they did. -/
def Tells (x : TaskId) (action : Action) (tr : List Label) : Except RuntimeError (List Event) → Prop
  | .ok events => ∃ c : Approval, c.action = action ∧ c.events = events ∧
    lifecycle x tr = c.steps x ++ [.returned x (.ok events)] ∧
    appended x (pipelineTrace tr) = events ∧ begun x (pipelineTrace tr) = events
  | .error (.handlerNotFound actionType) => actionType = action.actionType ∧
    lifecycle x tr = [.execute x action, .lookup x none] ∧ Effectless x tr
  | .error (.validationFailed id source) => id = action.id ∧ (∃ h, lifecycle x tr =
    [.execute x action, .lookup x (some h), .validated x h (.error source)]) ∧ Effectless x tr
  | .error (.authorizationFailed id source) => id = action.id ∧ (∃ h, lifecycle x tr =
    [.execute x action, .lookup x (some h), .validated x h (.ok ()), .authorized x (.error source)]) ∧
    Effectless x tr
  | .error (.handlerFailed id source) => id = action.id ∧ (∃ h, lifecycle x tr =
    [.execute x action, .lookup x (some h), .validated x h (.ok ()), .authorized x (.ok ()),
      .handled x h (.error source)]) ∧ Effectless x tr
  -- some of the events are stored, the one that is named is not, and none is published
  | .error (.pipelineFailed id source) => id = action.id ∧ ∃ c : Approval, c.action = action ∧
    lifecycle x tr = c.steps x ++ [.returned x (.error (.pipelineFailed id source))] ∧
    FailedAt c.events (appended x (pipelineTrace tr)) source ∧ begun x (pipelineTrace tr) = []

/-- A call that has not come to its dispatch has done nothing. -/
theorem effectless_of_not_dispatched
    (h : (runtime storeId queueCapacity).Run (State.new storeId queueCapacity) tr ρ)
    (he : ρ.executions.lookup x = some e) (hstage : ¬e.stage.Dispatched) : Effectless x tr :=
  (PipelineAdapter.Invariant.run (pipeline_run h)).uncalled (not_dispatched h he hstage).1

/-- A call that has returned after its dispatch has the outcome of the dispatch. -/
theorem outcome_of_returned (h : (runtime storeId queueCapacity).Run (State.new storeId queueCapacity) tr ρ)
    (hreturned : .returned x result ∈ tr) : ∃ call outcome action events,
      ρ.pipeline.dispatches.lookup x = some call ∧ call.stage = .returned outcome ∧
      result = afterDispatch action events outcome := by
  obtain ⟨pre, post, ρ₀, ρ₁, rfl, hpre, (hstep : ρ₀.step (.returned x result) = some ρ₁), hpost⟩ :=
    h.at_label hreturned
  cases step_effect hstep with
  | returned x e events call outcome running stage called ended =>
    have hkept := PipelineAdapter.returned_run (pipeline_run hpost) called ended
    exact ⟨call, outcome, e.action, events, hkept, ended, rfl⟩

/-- The batch of a dispatch is that of its approval. -/
theorem events_of_approved (h : (runtime storeId queueCapacity).Run (State.new storeId queueCapacity) tr ρ)
    {c : Approval} (hc : Approved tr x c) {call : PipelineAdapter.Dispatch}
    (hcall : ρ.pipeline.dispatches.lookup x = some call) : call.events = c.events := by
  obtain ⟨c', hc', hevents⟩ := approved_of_call h hcall
  rw [hc.unique hc', hevents]

/-- **A result tells what its call did.** In every run the result of a call of
`execute` says which of its steps were taken, in order and once each: the lookup,
the validation by the handler it found, the authorization and the handling by
the same handler, each only after the one before it succeeded. An error before
the dispatch leaves nothing behind; a failed dispatch names the first event that
is not stored, with all events before it stored and none published; and Ok means
that all of them are stored and published. -/
theorem result_tells (h : (runtime storeId queueCapacity).Run (State.new storeId queueCapacity) tr ρ)
    (he : ρ.executions.lookup x = some e) (hstage : e.stage = .returned result) : Tells x e.action tr result := by
  have hfollows := (Lifecycles.run h).call he
  have hinv := PipelineAdapter.Invariant.run (pipeline_run h)
  have hearly := effectless_of_not_dispatched h he
  rw [hstage] at hfollows hearly
  cases hresult : result with
  | ok events =>
    rw [hresult] at hfollows
    obtain ⟨c, haction, hevents, hsteps⟩ := hfollows
    have hc : Approved tr x c := by
      rw [Approved, hsteps]
      exact List.prefix_append _ _
    have hmem : .returned x (.ok events) ∈ lifecycle x tr := by simp [hsteps]
    obtain ⟨call, outcome, _, _, hcall, hended, houtcome⟩ := outcome_of_returned h (List.mem_filter.mp hmem).1
    have hprogress := hinv.call hcall
    rw [hended, events_of_approved h hc hcall] at hprogress
    cases outcome with
    | error source => simp [afterDispatch] at houtcome
    | ok => exact ⟨c, haction, hevents, hsteps, hprogress.1.trans hevents, hprogress.2.trans hevents⟩
  | error error =>
    rw [hresult] at hfollows hearly
    cases error with
    | handlerNotFound actionType => exact ⟨hfollows.1, hfollows.2, hearly id⟩
    | validationFailed id source => exact ⟨hfollows.1, hfollows.2, hearly fun hd => hd⟩
    | authorizationFailed id source => exact ⟨hfollows.1, hfollows.2, hearly fun hd => hd⟩
    | handlerFailed id source => exact ⟨hfollows.1, hfollows.2, hearly fun hd => hd⟩
    | pipelineFailed id source =>
      obtain ⟨hid, c, haction, hsteps⟩ := hfollows
      have hc : Approved tr x c := by
        rw [Approved, hsteps]
        exact List.prefix_append _ _
      have hmem : .returned x (.error (.pipelineFailed id source)) ∈ lifecycle x tr := by simp [hsteps]
      obtain ⟨call, outcome, _, _, hcall, hended, houtcome⟩ := outcome_of_returned h (List.mem_filter.mp hmem).1
      cases outcome with
      | ok => simp [afterDispatch] at houtcome
      | error source' =>
        obtain ⟨_, rfl⟩ := RuntimeError.pipelineFailed.inj (Except.error.inj houtcome)
        have hprogress := hinv.call hcall
        rw [hended] at hprogress
        have hfailed := PipelineAdapter.failedAt_of_returned (pipeline_run h) hcall hended
        rw [events_of_approved h hc hcall] at hfailed
        exact ⟨hid, c, haction, hsteps, hfailed, hprogress.2⟩

/-- The second of two drafts takes the id of the first, and is refused. -/
def half : EventDraft := ⟨⟨"half.drawn"⟩, Payload.new, BTreeMap.new⟩
def halfEvent (stamp : Stamp) : Event := (Action.plain ⟨"half.draw"⟩).event half stamp

def halfStored : List Label :=
  let first := halfEvent ⟨default, Timestamp.epoch⟩
  let second := halfEvent ⟨default, ⟨1000000000, by decide⟩⟩
  [.register ⟨"half.draw"⟩ 1 (.ok ()), .execute 1 (Action.plain ⟨"half.draw"⟩), .lookup 1 (some 1),
    .validated 1 1 (.ok ()), .authorized 1 (.ok ()), .handled 1 1 (.ok [half, half]),
    .dispatch 1 [⟨default, Timestamp.epoch⟩, ⟨default, ⟨1000000000, by decide⟩⟩] [first, second],
    .pipeline (.append 1 first (.ok ⟨.forMemory default 1, first⟩)),
    .pipeline (.append 1 second (.error (.eventConflict second.id))),
    .returned 1 (.error (.pipelineFailed default (PipelineAdapter.persistenceFailed second)))]

theorem result_tells_half : Tells 1 (Action.plain ⟨"half.draw"⟩) halfStored
    (.error (.pipelineFailed default (PipelineAdapter.persistenceFailed (halfEvent ⟨default, ⟨1000000000, by decide⟩⟩)))) :=
  result_tells ((runtime default 1).run_after halfStored (by decide)) (Option.some_get (by decide)).symm (by decide)

/-! ## A server without an authorizer -/

/-- No call has been authorized. -/
def Unauthorized (tr : List Label) : Prop := ∀ x, .authorized x (.ok ()) ∉ tr

theorem Unauthorized.not_approved (h : Unauthorized tr) (c : Approval) : ¬Approved tr x c :=
  fun hc => h x (hc.mem (by simp [Approval.steps]))

theorem Unauthorized.not_dispatched (hdenied : Unauthorized tr)
    (h : (runtime storeId queueCapacity).Run (State.new storeId queueCapacity) tr ρ) (d : TaskId) :
    ρ.pipeline.dispatches.lookup d = none := by
  cases hcall : ρ.pipeline.dispatches.lookup d with
  | none => rfl
  | some call =>
    obtain ⟨c, hc, _⟩ := approved_of_call h hcall
    exact absurd hc (hdenied.not_approved c)

/-- A handler makes its drafts for authorized calls only. -/
theorem authorized_of_handled (h : (runtime storeId queueCapacity).Run (State.new storeId queueCapacity) tr ρ)
    {handler : HandlerId} {drafts : Except HandlerError (List EventDraft)} (hmem : .handled x handler drafts ∈ tr) :
    .authorized x (.ok ()) ∈ tr := by
  obtain ⟨pre, post, ρ₀, ρ₁, rfl, hpre, (hstep : ρ₀.step (.handled x handler drafts) = some ρ₁), _⟩ := h.at_label hmem
  cases step_effect hstep with
  | handled x handler result e running stage =>
    have hsofar := (Lifecycles.run hpre).call running
    rw [stage] at hsofar
    have hasked : .authorized x (.ok ()) ∈ lifecycle x pre := by simp [show lifecycle x pre = _ from hsofar]
    exact List.mem_append_left _ (List.mem_filter.mp hasked).1

/-- What a call can end with that is not authorized. -/
theorem Unauthorized.returned (hdenied : Unauthorized tr)
    (h : (runtime storeId queueCapacity).Run (State.new storeId queueCapacity) tr ρ)
    (he : ρ.executions.lookup x = some e) (hstage : e.stage = .returned result) :
    (∃ actionType, result = .error (.handlerNotFound actionType)) ∨
    (∃ id source, result = .error (.validationFailed id source)) ∨
    ∃ source, result = .error (.authorizationFailed e.action.id source) ∧ .authorized x (.error source) ∈ tr := by
  have hfollows := (Lifecycles.run h).call he
  have hasked : ∀ {l}, l ∈ lifecycle x tr → l ∈ tr := fun hl => (List.mem_filter.mp hl).1
  rw [hstage] at hfollows
  cases hresult : result with
  | ok events =>
    rw [hresult] at hfollows
    obtain ⟨c, _, _, hsteps⟩ := hfollows
    exact absurd (hasked (by simp [hsteps, Approval.steps])) (hdenied x)
  | error error =>
    rw [hresult] at hfollows
    cases error with
    | handlerNotFound actionType => exact .inl ⟨actionType, rfl⟩
    | validationFailed id source => exact .inr (.inl ⟨id, source, rfl⟩)
    | authorizationFailed id source =>
      obtain ⟨rfl, handler, hsteps⟩ := hfollows
      exact .inr (.inr ⟨source, rfl, hasked (by simp [hsteps])⟩)
    | handlerFailed id source =>
      obtain ⟨_, handler, hsteps⟩ := hfollows
      exact absurd (hasked (by simp [hsteps])) (hdenied x)
    | pipelineFailed id source =>
      obtain ⟨_, c, _, hsteps⟩ := hfollows
      exact absurd (hasked (by simp [hsteps, Approval.steps])) (hdenied x)

/-- **A server without an authorizer does nothing.** In every run in which the
authorizer answers as that of `main` no handler makes a draft, nothing is stored,
sent or received, whatever handlers and subscriptions there are, and a call that
is over has failed: for want of a handler, by its validation, or because the
authorizer is not configured. -/
theorem unconfigured_denies (h : (runtime storeId queueCapacity).Run (State.new storeId queueCapacity) tr ρ)
    (hauthorizer : ∀ x result, .authorized x result ∈ tr →
      ∃ action, result = UnconfiguredAuthorizer.authorize action) :
    (∀ x handler drafts, .handled x handler drafts ∉ tr) ∧
    ρ.pipeline.store.records = [] ∧
    (∀ d s event result, .pipeline (.bus (.send d s event result)) ∉ tr) ∧
    (∀ s event, .pipeline (.bus (.owner s (.received (some event)))) ∉ tr) ∧
    (∀ x e result, ρ.executions.lookup x = some e → e.stage = .returned result →
      (∃ actionType, result = .error (.handlerNotFound actionType)) ∨
      (∃ id source, result = .error (.validationFailed id source)) ∨
      result = .error (.authorizationFailed e.action.id ⟨"authorization provider is not configured"⟩)) := by
  have hdenied : Unauthorized tr := by
    intro x hmem
    obtain ⟨action, heq⟩ := hauthorizer x _ hmem
    simp [UnconfiguredAuthorizer.authorize] at heq
  have hrun := pipeline_run h
  have hunsent : ∀ d s event result, .pipeline (.bus (.send d s event result)) ∉ tr := by
    intro d s event result hmem
    obtain ⟨call, hcall, _⟩ := PipelineAdapter.call_of_send hrun ((mem_pipelineTrace rfl).mpr hmem)
    simp [hdenied.not_dispatched h d] at hcall
  refine ⟨?_, ?_, hunsent, ?_, ?_⟩
  · intro x handler drafts hmem
    exact hdenied x (authorized_of_handled h hmem)
  · rw [List.eq_nil_iff_forall_not_mem]
    intro r hr
    obtain ⟨x, i, c, hp⟩ := provenance_of_stored h hr
    exact hdenied.not_approved c hp.approved
  · intro s event hmem
    have hreceived : .owner s (.received (some event)) ∈ PipelineAdapter.busTrace (pipelineTrace tr) :=
      (PipelineAdapter.mem_busTrace rfl).mpr ((mem_pipelineTrace rfl).mpr hmem)
    obtain ⟨d, hd⟩ := MemoryEventBus.sent_of_received (PipelineAdapter.bus_run hrun) hreceived
    exact hunsent d s event .sent ((mem_pipelineTrace rfl).mp ((PipelineAdapter.mem_busTrace rfl).mp hd))
  · intro x e result he hstage
    rcases hdenied.returned h he hstage with hnone | hinvalid | ⟨source, hresult, hmem⟩
    · exact .inl hnone
    · exact .inr (.inl hinvalid)
    · obtain ⟨action, heq⟩ := hauthorizer x _ hmem
      rw [hresult, Except.error.inj heq]
      exact .inr (.inr rfl)

/-- A call to a server without an authorizer. -/
def denied : List Label :=
  [.register ⟨"denied.draw"⟩ 1 (.ok ()), .pipeline (.bus (.subscribe default .all)),
    .execute 1 (Action.plain ⟨"denied.draw"⟩), .lookup 1 (some 1), .validated 1 1 (.ok ()),
    .authorized 1 (UnconfiguredAuthorizer.authorize (Action.plain ⟨"denied.draw"⟩))]

theorem unconfigured_denies_draw :
    ((runtime default 1).after denied (by decide)).pipeline.store.records = [] := by
  refine (unconfigured_denies ((runtime default 1).run_after denied (by decide)) ?_).2.1
  intro x result hmem
  simp only [denied, List.mem_cons, reduceCtorEq, false_or, List.not_mem_nil, or_false] at hmem
  exact ⟨_, (Label.authorized.inj hmem).2⟩

end Runtime

end OrbitRelay
