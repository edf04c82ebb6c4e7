import OrbitRelay.Runtime.Execute
import OrbitRelay.Server.Fresh

/-
  What a call of `execute` has been through.

  The stage of a call says exactly which of its steps are in the trace and in
  which order: `Follows` reads the steps off the stage, and `Lifecycles` holds
  of every run. A call that came as far as its dispatch has one `Approval`: the
  one handler it found, which accepted the action before the authorizer did and
  made the drafts after. Since a dispatch of the pipeline is always that of a
  call here, every batch has the approval of its call behind it.
-/

namespace OrbitRelay.Runtime

/-- The call a step belongs to. -/
def Label.task? : Label → Option TaskId
  | .execute x _ => some x
  | .lookup x _ => some x
  | .validated x _ _ => some x
  | .authorized x _ => some x
  | .handled x _ _ => some x
  | .dispatch x _ _ => some x
  | .returned x _ => some x
  | _ => none

/-- The steps of call `x`, in order. -/
def lifecycle (x : TaskId) (tr : List Label) : List Label := tr.filter fun l => l.task? = some x

/-- What a call that reaches its dispatch was asked, and what it was given. -/
structure Approval where
  action : Action
  handler : HandlerId
  drafts : List EventDraft
  stamps : List Stamp
  stamped : stamps.length = drafts.length

namespace Approval

def events (c : Approval) : List Event := c.action.materialize c.drafts c.stamps

/-- The steps of a call up to its dispatch. -/
def steps (c : Approval) (x : TaskId) : List Label :=
  [.execute x c.action, .lookup x (some c.handler), .validated x c.handler (.ok ()), .authorized x (.ok ()),
    .handled x c.handler (.ok c.drafts), .dispatch x c.stamps c.events]

theorem steps_inj {c c' : Approval} {x : TaskId} (h : c.steps x = c'.steps x) : c = c' := by
  obtain ⟨action, handler, drafts, stamps, stamped⟩ := c
  obtain ⟨action', handler', drafts', stamps', stamped'⟩ := c'
  simp only [steps, List.cons.injEq, Label.execute.injEq, Label.lookup.injEq, Label.handled.injEq,
    Label.dispatch.injEq, Option.some.injEq, Except.ok.injEq, true_and] at h
  obtain ⟨rfl, rfl, _, ⟨_, rfl⟩, ⟨rfl, _⟩, _⟩ := h
  rfl

end Approval

/-- The steps behind each stage. -/
def Follows (x : TaskId) (action : Action) : Stage → List Label → Prop
  | .started, tr => tr = [.execute x action]
  | .validating h, tr => tr = [.execute x action, .lookup x (some h)]
  | .authorizing h, tr => tr = [.execute x action, .lookup x (some h), .validated x h (.ok ())]
  | .handling h, tr =>
    tr = [.execute x action, .lookup x (some h), .validated x h (.ok ()), .authorized x (.ok ())]
  | .handled drafts, tr => ∃ h,
    tr = [.execute x action, .lookup x (some h), .validated x h (.ok ()), .authorized x (.ok ()),
      .handled x h (.ok drafts)]
  | .dispatching events, tr => ∃ c : Approval, c.action = action ∧ c.events = events ∧ tr = c.steps x
  | .returned (.ok events), tr => ∃ c : Approval,
    c.action = action ∧ c.events = events ∧ tr = c.steps x ++ [.returned x (.ok events)]
  | .returned (.error (.handlerNotFound actionType)), tr =>
    actionType = action.actionType ∧ tr = [.execute x action, .lookup x none]
  | .returned (.error (.validationFailed id source)), tr => id = action.id ∧ ∃ h,
    tr = [.execute x action, .lookup x (some h), .validated x h (.error source)]
  | .returned (.error (.authorizationFailed id source)), tr => id = action.id ∧ ∃ h,
    tr = [.execute x action, .lookup x (some h), .validated x h (.ok ()), .authorized x (.error source)]
  | .returned (.error (.handlerFailed id source)), tr => id = action.id ∧ ∃ h,
    tr = [.execute x action, .lookup x (some h), .validated x h (.ok ()), .authorized x (.ok ()),
      .handled x h (.error source)]
  | .returned (.error (.pipelineFailed id source)), tr => id = action.id ∧ ∃ c : Approval,
    c.action = action ∧ tr = c.steps x ++ [.returned x (.error (.pipelineFailed id source))]

variable {storeId : EntityId} {queueCapacity : Nat} {ρ ρ' : State} {l : Label} {tr tr' : List Label}
  {x x' : TaskId} {e : Execution} {stage : Stage} {c c' : Approval}

theorem lifecycle_append (tr tr' : List Label) : lifecycle x (tr ++ tr') = lifecycle x tr ++ lifecycle x tr' :=
  List.filter_append _ _

theorem lifecycle_of_task (h : l.task? = some x) : lifecycle x [l] = [l] := by
  simp [lifecycle, h]

theorem lifecycle_of_ne (h : l.task? ≠ some x) : lifecycle x [l] = [] := by
  simp [lifecycle, h]

/-- Every call is where its steps have led it. -/
structure Lifecycles (tr : List Label) (ρ : State) : Prop where
  call : ∀ {x e}, ρ.executions.lookup x = some e → Follows x e.action e.stage (lifecycle x tr)
  uncalled : ∀ {x}, ρ.executions.lookup x = none → lifecycle x tr = []

namespace Lifecycles

theorem new (storeId : EntityId) (queueCapacity : Nat) : Lifecycles [] (State.new storeId queueCapacity) where
  call := by simp [State.new]
  uncalled := fun _ => rfl

/-- A step that no call takes. -/
theorem idle (h : Lifecycles tr ρ) (htask : l.task? = none) (hcalls : ρ'.executions = ρ.executions) :
    Lifecycles (tr ++ [l]) ρ' where
  call := by
    intro x e he
    rw [lifecycle_append, lifecycle_of_ne (by simp [htask]), List.append_nil]
    exact h.call (hcalls ▸ he)
  uncalled := by
    intro x hx
    rw [lifecycle_append, lifecycle_of_ne (by simp [htask]), List.append_nil]
    exact h.uncalled (hcalls ▸ hx)

/-- A step of call `x`, which leads it to another stage. -/
theorem advance (h : Lifecycles tr ρ) (htask : l.task? = some x)
    (hcalls : ρ'.executions = ρ.executions.insert x e)
    (hfollows : Follows x e.action e.stage (lifecycle x tr ++ [l])) : Lifecycles (tr ++ [l]) ρ' where
  call := by
    intro x' e' he
    rw [hcalls] at he
    rw [lifecycle_append]
    rcases Table.lookup_insert_eq_some.mp he with ⟨rfl, rfl⟩ | ⟨hne, hold⟩
    · rw [lifecycle_of_task htask]
      exact hfollows
    · rw [lifecycle_of_ne (by simp [htask, Ne.symm hne]), List.append_nil]
      exact h.call hold
  uncalled := by
    intro x' hx'
    have hne : x' ≠ x := by
      intro heq
      subst heq
      rw [hcalls, AList.lookup_insert] at hx'
      simp at hx'
    rw [hcalls, AList.lookup_insert_ne hne] at hx'
    rw [lifecycle_append, lifecycle_of_ne (by simp [htask, Ne.symm hne]), List.append_nil]
    exact h.uncalled hx'

theorem step (h : Lifecycles tr ρ) (hstep : ρ.step l = some ρ') : Lifecycles (tr ++ [l]) ρ' := by
  cases step_effect hstep with
  | register => exact h.idle rfl rfl
  | unregister => exact h.idle rfl rfl
  | execute x action fresh =>
    refine h.advance (e := ⟨action, .started⟩) rfl rfl ?_
    rw [h.uncalled fresh]
    rfl
  | lookup x e running stage =>
    have hsofar := h.call running
    rw [stage] at hsofar
    apply h.advance rfl rfl
    rw [hsofar]
    cases ρ.registry.get e.action.actionType with
    | none => exact ⟨rfl, rfl⟩
    | some handler => rfl
  | validated x handler result e running stage =>
    have hsofar := h.call running
    rw [stage] at hsofar
    apply h.advance rfl rfl
    rw [hsofar]
    cases result with
    | error source => exact ⟨rfl, handler, rfl⟩
    | ok => rfl
  | authorized x handler result e running stage =>
    have hsofar := h.call running
    rw [stage] at hsofar
    apply h.advance rfl rfl
    rw [hsofar]
    cases result with
    | error source => exact ⟨rfl, handler, rfl⟩
    | ok => rfl
  | handled x handler result e running stage =>
    have hsofar := h.call running
    rw [stage] at hsofar
    apply h.advance rfl rfl
    rw [hsofar]
    cases result with
    | error source => exact ⟨rfl, handler, rfl⟩
    | ok drafts => exact ⟨handler, rfl⟩
  | dispatch x stamps e drafts pipeline running stage stamped =>
    have hsofar := h.call running
    rw [stage] at hsofar
    obtain ⟨handler, hsofar⟩ := hsofar
    apply h.advance rfl rfl
    rw [hsofar]
    exact ⟨⟨e.action, handler, drafts, stamps, stamped⟩, rfl, rfl, rfl⟩
  | returned x e events call outcome running stage =>
    have hsofar := h.call running
    rw [stage] at hsofar
    obtain ⟨c, hc, hevents, hsofar⟩ := hsofar
    apply h.advance rfl rfl
    rw [hsofar]
    -- a dispatch that failed has an approval behind it too
    cases outcome with
    | error source => exact ⟨rfl, c, hc, rfl⟩
    | ok => exact ⟨c, hc, hevents, rfl⟩
  | pipeline => exact h.idle rfl rfl

theorem run (h : (runtime storeId queueCapacity).Run (State.new storeId queueCapacity) tr ρ) : Lifecycles tr ρ :=
  Lts.Run.induct (P := Lifecycles) (Lifecycles.new storeId queueCapacity) (fun _ _ _ _ _ ih hstep => ih.step hstep) h

end Lifecycles

/-! ## The pipeline of the runtime -/

/-- What a step is to the pipeline. -/
def pipelineLabel : Label → Option PipelineAdapter.Label
  | .dispatch x _ events => some (.dispatch x events)
  | .pipeline l => some l
  | _ => none

/-- The trace of the pipeline. -/
def pipelineTrace (tr : List Label) : List PipelineAdapter.Label := tr.filterMap pipelineLabel

/-- The runtime, seen from its pipeline. -/
def pipelineOf (storeId : EntityId) (queueCapacity : Nat) :
    Lts.Simulation (runtime storeId queueCapacity) (PipelineAdapter.pipeline storeId queueCapacity) where
  rel ρ σ := ρ.pipeline = σ
  label := pipelineLabel
  start := rfl
  follow := by
    intro ρ _ l ρ' heq hstep
    subst heq
    refine ⟨ρ'.pipeline, ?_, rfl⟩
    cases step_effect hstep with
    | dispatch x stamps e drafts pipeline running stage stamped begun => exact Lts.Run.single begun
    | pipeline l pipeline foreign stepped => exact Lts.Run.single stepped
    | _ => exact Lts.Run.nil _ _

theorem pipeline_run (h : (runtime storeId queueCapacity).Run ρ tr ρ') :
    (PipelineAdapter.pipeline storeId queueCapacity).Run ρ.pipeline (pipelineTrace tr) ρ'.pipeline := by
  obtain ⟨_, hrun, rfl⟩ := (pipelineOf storeId queueCapacity).run_from rfl h
  exact hrun

theorem mem_pipelineTrace {k : PipelineAdapter.Label} (hk : isForeign k = true) :
    k ∈ pipelineTrace tr ↔ .pipeline k ∈ tr := by
  rw [pipelineTrace, List.mem_filterMap]
  constructor
  · intro h
    obtain ⟨l, hl, hlk⟩ := h
    cases l with
    | dispatch x stamps events =>
      obtain rfl := Option.some.inj hlk
      simp [isForeign] at hk
    | pipeline k' =>
      obtain rfl := Option.some.inj hlk
      exact hl
    | _ => simp [pipelineLabel] at hlk
  · intro hl
    exact ⟨_, hl, rfl⟩

/-- The clients of the pipeline do not dispatch. -/
theorem dispatch_of_mem (h : (runtime storeId queueCapacity).Run ρ tr ρ') {events : List Event}
    (hd : .dispatch x events ∈ pipelineTrace tr) : ∃ stamps, .dispatch x stamps events ∈ tr := by
  obtain ⟨l, hl, hlabel⟩ := List.mem_filterMap.mp hd
  cases l with
  -- a dispatch of the pipeline comes from a call, never from a client
  | dispatch x' stamps events' =>
    obtain ⟨rfl, rfl⟩ := PipelineAdapter.Label.dispatch.inj (Option.some.inj hlabel)
    exact ⟨stamps, hl⟩
  | pipeline k =>
    obtain rfl := Option.some.inj hlabel
    obtain ⟨_, _, ρ₀, ρ₁, _, _, (hstep : ρ₀.step (.pipeline (.dispatch x events)) = some ρ₁), _⟩ := h.at_label hl
    cases step_effect hstep with
    | pipeline l pipeline foreign => simp [isForeign] at foreign
  | _ => simp [pipelineLabel] at hlabel

/-! ## Approvals -/

/-- The steps of call `x` begin with those of an approval. -/
def Approved (tr : List Label) (x : TaskId) (c : Approval) : Prop := c.steps x <+: lifecycle x tr

theorem Approved.unique (h : Approved tr x c) (h' : Approved tr x c') : c = c' := by
  apply Approval.steps_inj (x := x)
  rcases List.prefix_or_prefix_of_prefix h h' with hp | hp
  · exact hp.eq_of_length rfl
  · exact (hp.eq_of_length rfl).symm

theorem Approved.mem (h : Approved tr x c) {l : Label} (hl : l ∈ c.steps x) : l ∈ tr :=
  (List.mem_filter.mp (h.subset hl)).1

/-- The stages from the start of the dispatch on. -/
def Stage.Dispatched : Stage → Prop
  | .dispatching _ => True
  | .returned (.ok _) => True
  | .returned (.error (.pipelineFailed _ _)) => True
  | _ => False

/-- From its dispatch on, a call has an approval. -/
theorem Follows.approval {action : Action} (h : Follows x action stage tr) (hd : stage.Dispatched) :
    ∃ c : Approval, c.action = action ∧ (tr = c.steps x ∨ ∃ result, tr = c.steps x ++ [.returned x result]) := by
  match stage, h, hd with
  | .dispatching _, ⟨c, haction, _, hsteps⟩, _ => exact ⟨c, haction, .inl hsteps⟩
  | .returned (.ok _), ⟨c, haction, _, hsteps⟩, _ => exact ⟨c, haction, .inr ⟨_, hsteps⟩⟩
  | .returned (.error (.pipelineFailed _ _)), ⟨_, c, haction, hsteps⟩, _ => exact ⟨c, haction, .inr ⟨_, hsteps⟩⟩

/-- A call that has not come to its dispatch has begun none. -/
theorem Follows.not_dispatched {action : Action} (h : Follows x action stage tr) (hd : ¬stage.Dispatched)
    {stamps : List Stamp} {events : List Event} : .dispatch x stamps events ∉ tr := by
  match stage, h, hd with
  | .started, h, _ => simp [show tr = _ from h]
  | .validating _, h, _ => simp [show tr = _ from h]
  | .authorizing _, h, _ => simp [show tr = _ from h]
  | .handling _, h, _ => simp [show tr = _ from h]
  | .handled _, ⟨_, h⟩, _ => simp [h]
  | .returned (.error (.handlerNotFound _)), ⟨_, h⟩, _ => simp [h]
  | .returned (.error (.validationFailed _ _)), ⟨_, _, h⟩, _ => simp [h]
  | .returned (.error (.authorizationFailed _ _)), ⟨_, _, h⟩, _ => simp [h]
  | .returned (.error (.handlerFailed _ _)), ⟨_, _, h⟩, _ => simp [h]
  | .dispatching _, _, hd => exact absurd trivial hd
  | .returned (.ok _), _, hd => exact absurd trivial hd
  | .returned (.error (.pipelineFailed _ _)), _, hd => exact absurd trivial hd

/-- A call that is over, and had its dispatch, has returned. -/
theorem Follows.mem_returned {action : Action} {result : Except RuntimeError (List Event)}
    (h : Follows x action (.returned result) (lifecycle x tr)) (hd : (Stage.returned result).Dispatched) :
    .returned x result ∈ tr := by
  obtain ⟨steps, hsteps⟩ : ∃ steps, lifecycle x tr = steps ++ [.returned x result] := by
    match result, h, hd with
    | .ok _, ⟨c, _, _, hsteps⟩, _ => exact ⟨c.steps x, hsteps⟩
    | .error (.pipelineFailed _ _), ⟨rfl, c, _, hsteps⟩, _ => exact ⟨c.steps x, hsteps⟩
  have hmem : .returned x result ∈ lifecycle x tr := by simp [hsteps]
  exact (List.mem_filter.mp hmem).1

/-- A call that has begun its dispatch has an approval, and its batch is the
events of it. -/
theorem approved_of_dispatch (h : (runtime storeId queueCapacity).Run (State.new storeId queueCapacity) tr ρ)
    {stamps : List Stamp} {events : List Event} (hd : .dispatch x stamps events ∈ tr) :
    ∃ c, Approved tr x c ∧ c.events = events := by
  have hinv := Lifecycles.run h
  have hmem : .dispatch x stamps events ∈ lifecycle x tr := List.mem_filter.mpr ⟨hd, by simp [Label.task?]⟩
  obtain ⟨e, he⟩ : ∃ e, ρ.executions.lookup x = some e := by
    apply Option.ne_none_iff_exists'.mp
    intro hnone
    simp [hinv.uncalled hnone] at hmem
  have hdispatched : e.stage.Dispatched := by
    by_contra hd
    exact (hinv.call he).not_dispatched hd hmem
  obtain ⟨c, _, hsteps⟩ := (hinv.call he).approval hdispatched
  refine ⟨c, ?_, ?_⟩
  · rcases hsteps with hsteps | ⟨result, hsteps⟩
    · rw [Approved, hsteps]
    · rw [Approved, hsteps]
      exact List.prefix_append _ _
  · have hin : .dispatch x stamps events ∈ c.steps x := by
      rcases hsteps with hsteps | ⟨result, hsteps⟩ <;> simpa [hsteps] using hmem
    simp only [Approval.steps, List.mem_cons, reduceCtorEq, Label.dispatch.injEq, List.not_mem_nil, false_or,
      or_false, true_and] at hin
    exact hin.2.symm

/-- Every dispatch of the pipeline has the approval of its call behind it. -/
theorem approved_of_call (h : (runtime storeId queueCapacity).Run (State.new storeId queueCapacity) tr ρ)
    {call : PipelineAdapter.Dispatch} (hcall : ρ.pipeline.dispatches.lookup x = some call) :
    ∃ c, Approved tr x c ∧ c.events = call.events := by
  obtain ⟨stamps, hd⟩ := dispatch_of_mem h (PipelineAdapter.dispatch_of_call (pipeline_run h) hcall)
  exact approved_of_dispatch h hd

/-! ## Calls that are over -/

/-- From its return on, the dispatch of a call is over. -/
theorem ended_of_returned (h : (runtime storeId queueCapacity).Run (State.new storeId queueCapacity) tr ρ)
    {result : Except RuntimeError (List Event)} (hreturned : .returned x result ∈ tr) :
    ∃ call outcome, ρ.pipeline.dispatches.lookup x = some call ∧ call.stage = .returned outcome := by
  refine h.since (I := fun ρ => ∃ call outcome, ρ.pipeline.dispatches.lookup x = some call ∧
    call.stage = .returned outcome) ?_ ?_ hreturned
  · intro τ l υ hended hstep
    obtain ⟨call, outcome, hcall, hstage⟩ := hended
    cases step_effect hstep with
    | dispatch x' stamps e drafts pipeline running stage stamped begun =>
      exact ⟨call, outcome, PipelineAdapter.returned_step begun hcall hstage, hstage⟩
    | pipeline l pipeline foreign stepped =>
      exact ⟨call, outcome, PipelineAdapter.returned_step stepped hcall hstage, hstage⟩
    | _ => exact ⟨call, outcome, hcall, hstage⟩
  · intro τ υ (hstep : τ.step (.returned x result) = some υ)
    cases step_effect hstep with
    | returned x e events call outcome running stage called ended => exact ⟨call, outcome, called, ended⟩

/-- A dispatch belongs to a call, and is over when the call is. -/
theorem execution_of_call (h : (runtime storeId queueCapacity).Run (State.new storeId queueCapacity) tr ρ)
    {call : PipelineAdapter.Dispatch} (hcall : ρ.pipeline.dispatches.lookup x = some call) :
    ∃ e, ρ.executions.lookup x = some e ∧
      ∀ result, e.stage = .returned result → ∃ outcome, call.stage = .returned outcome := by
  have hinv := Lifecycles.run h
  obtain ⟨stamps, hd⟩ := dispatch_of_mem h (PipelineAdapter.dispatch_of_call (pipeline_run h) hcall)
  have hmem : .dispatch x stamps call.events ∈ lifecycle x tr := List.mem_filter.mpr ⟨hd, by simp [Label.task?]⟩
  cases he : ρ.executions.lookup x with
  | none => simp [hinv.uncalled he] at hmem
  | some e =>
    refine ⟨e, rfl, ?_⟩
    intro result hstage
    have hfollows := hinv.call he
    have hdispatched : e.stage.Dispatched := by
      by_contra hnot
      exact hfollows.not_dispatched hnot hmem
    rw [hstage] at hfollows hdispatched
    obtain ⟨call', outcome, hcall', hended⟩ := ended_of_returned h (hfollows.mem_returned hdispatched)
    obtain rfl := Option.some.inj (hcall.symm.trans hcall')
    exact ⟨outcome, hended⟩

end OrbitRelay.Runtime
