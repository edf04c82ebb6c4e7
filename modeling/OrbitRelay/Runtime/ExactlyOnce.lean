import OrbitRelay.Runtime.Lifecycle
import OrbitRelay.Server.Order

/-
  From drafts to records and deliveries.

  A call that returns Ok has appended and published its whole batch, and with
  ids that never repeat what is done with an event of the batch is done by this
  call. So its events are in the store in the order of the drafts, each once,
  and a subscription that was there before the call and still is when it
  returns has been sent the matching ones, each once and in order, whatever
  other calls did in between.
-/

namespace OrbitRelay.Runtime

open MemoryEventBus (accepted counting dropped inFlight offers refused reported returned tries)
open PipelineAdapter (appended begun busTrace)

/-- The ids drawn by a step. -/
def Label.issued : Label → List EventId
  | .dispatch _ stamps _ => stamps.map (·.id)
  | _ => []

/-- No event id is drawn twice. -/
def FreshStamps (tr : List Label) : Prop := (tr.flatMap Label.issued).Nodup

instance (tr : List Label) : Decidable (FreshStamps tr) := inferInstanceAs (Decidable (List.Nodup _))

variable {storeId : EntityId} {queueCapacity : Nat} {ρ ρ' : State} {tr pre mid post : List Label} {x : TaskId}
  {e : Execution} {es : List Event} {s : SubscriptionId} {filter : EventFilter} {m : MemorySubscription}

theorem pipelineTrace_append (tr tr' : List Label) :
    pipelineTrace (tr ++ tr') = pipelineTrace tr ++ pipelineTrace tr' :=
  List.filterMap_append

/-- The ids in the batches are the ids drawn. -/
theorem batch_ids_eq (h : (runtime storeId queueCapacity).Run (State.new storeId queueCapacity) tr ρ) :
    ((pipelineTrace tr).flatMap fun l => l.batch.map (·.id)) = tr.flatMap Label.issued := by
  refine Lts.Run.induct (P := fun tr _ => ((pipelineTrace tr).flatMap fun l => l.batch.map (·.id)) =
    tr.flatMap Label.issued) rfl ?_ h
  intro tr τ l υ _ ih hstep
  rw [pipelineTrace_append, List.flatMap_append, List.flatMap_append, ih]
  congr 1
  cases step_effect hstep with
  | dispatch x stamps e drafts pipeline running stage stamped =>
    simpa [pipelineTrace, pipelineLabel, PipelineAdapter.Label.batch, Label.issued] using
      Action.materialize_id stamped
  | pipeline l pipeline foreign =>
    cases l with
    | dispatch => simp [isForeign] at foreign
    | _ => rfl
  | _ => rfl

theorem FreshStamps.freshIds (h : FreshStamps tr)
    (hrun : (runtime storeId queueCapacity).Run (State.new storeId queueCapacity) tr ρ) :
    PipelineAdapter.FreshIds (pipelineTrace tr) := by
  rw [PipelineAdapter.FreshIds, batch_ids_eq hrun]
  exact h

/-! ## A call that returned Ok -/

/-- When it returns its dispatch is over, and was one of its events. -/
theorem dispatch_of_returned (h : (runtime storeId queueCapacity).Run (State.new storeId queueCapacity) tr ρ)
    (hstep : ρ.step (.returned x (.ok es)) = some ρ') : ∃ call, ρ.pipeline.dispatches.lookup x = some call ∧
      call.events = es ∧ call.stage = .returned (.ok ()) := by
  generalize hresult : Except.ok es = result at hstep
  cases step_effect hstep with
  | returned x e events call outcome running stage called ended =>
    cases outcome with
    | error source => simp [afterDispatch] at hresult
    | ok =>
      obtain rfl := Except.ok.inj hresult
      have hfollows := (Lifecycles.run h).call running
      rw [stage] at hfollows
      obtain ⟨c, _, hevents, hsteps⟩ := hfollows
      obtain ⟨c', hc', hevents'⟩ := approved_of_call h called
      have hc : Approved tr x c := by rw [Approved, hsteps]
      obtain rfl := hc.unique hc'
      exact ⟨call, called, hevents'.symm.trans hevents, ended⟩

/-- And it stays over. -/
theorem dispatch_since_returned
    (h : (runtime storeId queueCapacity).Run (State.new storeId queueCapacity) tr ρ)
    (hreturned : .returned x (.ok es) ∈ tr) : ∃ call, ρ.pipeline.dispatches.lookup x = some call ∧
      call.events = es ∧ call.stage = .returned (.ok ()) := by
  obtain ⟨pre, post, rfl⟩ := List.append_of_mem hreturned
  obtain ⟨ρ₀, ρ₁, hpre, hstep, hpost⟩ := run_split.mp h
  obtain ⟨call, hcall, hevents, hstage⟩ := dispatch_of_returned hpre hstep
  have hwhole := pipeline_run (run_split.mpr ⟨ρ₀, ρ₁, hpre, hstep, hpost⟩)
  obtain ⟨σ, hσ, hrest⟩ := Lts.run_append.mp (pipelineTrace_append _ _ ▸ hwhole)
  obtain rfl := (pipeline_run hpre).det hσ
  exact ⟨call, PipelineAdapter.returned_run hrest hcall hstage, hevents, hstage⟩

/-- Before it begins nothing is published for it. -/
theorem begun_of_new (h : (runtime storeId queueCapacity).Run (State.new storeId queueCapacity) tr ρ)
    (hnew : ρ.executions.lookup x = none) : begun x (pipelineTrace tr) = [] := by
  refine ((PipelineAdapter.Invariant.run (pipeline_run h)).uncalled ?_).2
  cases hcall : ρ.pipeline.dispatches.lookup x with
  | none => rfl
  | some call =>
    obtain ⟨c, hc, _⟩ := approved_of_call h hcall
    rw [Approved, (Lifecycles.run h).uncalled hnew] at hc
    simp [Approval.steps] at hc

/-- What the call has sent, when it returns, to a subscription that was there
before it: the matching events of its batch. -/
theorem offers_at_return {action : Action} {ρ₁ : State}
    (h : (runtime storeId queueCapacity).Run (State.new storeId queueCapacity) (pre ++ .execute x action :: mid) ρ₁)
    (hstep : ρ₁.step (.returned x (.ok es)) = some ρ') (hsub : .pipeline (.bus (.subscribe s filter)) ∈ pre)
    (hm : ρ₁.pipeline.bus.subscriptions.lookup s = some m) (hopen : m.IsOpen) :
    offers x s (busTrace (pipelineTrace (pre ++ .execute x action :: mid))) = es.filter filter.matches := by
  obtain ⟨call, hcall, rfl, hstage⟩ := dispatch_of_returned h hstep
  obtain ⟨ρ₀, _, hpre, hexecute, _⟩ := run_split.mp h
  have hnew : ρ₀.executions.lookup x = none := by
    cases step_effect hexecute with
    | execute x action fresh => exact fresh
  have hrun := pipeline_run h
  have hbegun : begun x (pipelineTrace (pre ++ .execute x action :: mid)) = call.events := by
    have hprogress := (PipelineAdapter.Invariant.run hrun).call hcall
    rw [hstage] at hprogress
    exact hprogress.2
  have hbefore := begun_of_new hpre hnew
  obtain ⟨pre₁, pre₂, rfl⟩ := List.append_of_mem hsub
  have htrace : pipelineTrace (pre₁ ++ .pipeline (.bus (.subscribe s filter)) :: pre₂ ++ .execute x action :: mid) =
      pipelineTrace pre₁ ++ .bus (.subscribe s filter) :: (pipelineTrace pre₂ ++ pipelineTrace mid) := by
    simp [pipelineTrace, List.filterMap_cons, pipelineLabel]
  have hfirst : begun x (pipelineTrace pre₁) = [] := by
    rw [pipelineTrace_append, PipelineAdapter.begun_append] at hbefore
    exact (List.append_eq_nil_iff.mp hbefore).1
  rw [htrace] at hrun hbegun ⊢
  rw [PipelineAdapter.begun_append, hfirst, List.nil_append] at hbegun
  rw [PipelineAdapter.offers_of_returned hrun hm hopen hcall hstage]
  exact congrArg (List.filter _) hbegun

/-- A call that has returned sends nothing more. -/
theorem not_sent_after_return
    (h : (runtime storeId queueCapacity).Run (State.new storeId queueCapacity)
      (pre ++ .returned x (.ok es) :: post) ρ) {event : Event} {result : TrySend} :
    .bus (.send x s event result) ∉ pipelineTrace post := by
  intro hsend
  obtain ⟨ρ₀, ρ₁, hpre, hstep, _⟩ := run_split.mp h
  obtain ⟨call, hcall, _, hstage⟩ := dispatch_of_returned hpre hstep
  have hwhole := pipeline_run h
  rw [pipelineTrace_append] at hwhole
  obtain ⟨call', hcall', hprogress⟩ := PipelineAdapter.inProgress_of_send hwhole (pipeline_run hpre) hsend hcall
  obtain rfl := Option.some.inj (hcall.symm.trans hcall')
  exact hprogress _ hstage

/-- What is sent to `s` of the events of `x` in a run of the bus, and where it is
once the subscription is `m`. -/
structure Delivered (tr : List MemoryEventBus.Label) (b : MemoryEventBus.State) (m : MemorySubscription) (x : TaskId)
    (s : SubscriptionId) (filter : EventFilter) (es : List Event) : Prop where
  kept : b.subscriptions.lookup s = some m
  /-- the matching events, each once and in order -/
  sent : ((tries s tr).filter fun t => t.1 ∈ es).map Prod.fst = es.filter filter.matches
  /-- each is queued or refused -/
  split : ∀ t ∈ tries s tr, t.1 ∈ es → t.2 = .sent ∨ t.2 = .full
  /-- what the subscription has returned and has in its queue is what was queued -/
  fifo : returned s tr ++ m.channel.queue = accepted s tr
  /-- so each was returned, is in the queue, or was dropped, and only one of them -/
  placed : ((returned s tr ++ m.channel.queue ++ dropped s tr).filter (· ∈ es)).Perm (es.filter filter.matches)
  /-- those queued are queued in order -/
  queued : ((returned s tr ++ m.channel.queue).filter (· ∈ es)).Sublist es
  /-- those dropped are added to the lag counter, the call has none left to add -/
  counted : (refused s tr).count x = (counting s tr).count x
  /-- and a drop that was added was reported or is in the counter -/
  missed : (dropped s tr).length < u64Max → reported s tr + m.lagged + inFlight s b = (dropped s tr).length

section

variable {action : Action} {ρ₁ : State} (h : (runtime storeId queueCapacity).Run (State.new storeId queueCapacity) tr ρ)
  (hfresh : FreshStamps tr) (htr : tr = pre ++ .execute x action :: mid ++ .returned x (.ok es) :: post)
  (hbefore : (runtime storeId queueCapacity).Run (State.new storeId queueCapacity) (pre ++ .execute x action :: mid) ρ₁)
  (hm : ρ₁.pipeline.bus.subscriptions.lookup s = some m) (hopen : m.IsOpen)

include htr in
theorem pipelineTrace_split :
    pipelineTrace tr = pipelineTrace (pre ++ .execute x action :: mid) ++ pipelineTrace post := by
  rw [htr]
  exact pipelineTrace_append _ _

include htr in
theorem mem_of_split : .returned x (.ok es) ∈ tr := by
  rw [htr]
  exact List.mem_append_right _ List.mem_cons_self

include h hfresh htr hbefore hm hopen

/-- The events of the call are sent in its own time, to a subscription that was
there before it: the matching ones, in the order of the batch. -/
theorem sent_of_call (hsub : .pipeline (.bus (.subscribe s filter)) ∈ pre) :
    ((tries s (busTrace (pipelineTrace tr))).filter fun t => t.1 ∈ es).map Prod.fst = es.filter filter.matches := by
  obtain ⟨call, hcall, hevents, _⟩ := dispatch_since_returned h (mem_of_split htr)
  have hsplit := htr ▸ h
  obtain ⟨ρ₀, ρ₂, hfirst, hstep, _⟩ := run_split.mp hsplit
  obtain rfl := hbefore.det hfirst
  -- after the return nothing more is sent for this call
  have hlast : offers x s (busTrace (pipelineTrace post)) = [] := by
    rw [offers, List.filterMap_eq_nil_iff]
    intro k hk
    cases k with
    | send p s' event result =>
      rw [ite_eq_right_iff]
      intro hsame
      obtain ⟨rfl, rfl⟩ := hsame
      exact absurd ((PipelineAdapter.mem_busTrace rfl).mp hk) (not_sent_after_return hsplit)
    | _ => rfl
  have hbatch := (hfresh.freshIds h).tries_of_call (s := s) (pipeline_run h) hcall
  rw [hevents] at hbatch
  rw [hbatch, pipelineTrace_split htr, PipelineAdapter.busTrace_append, MemoryEventBus.offers_append, hlast,
    List.append_nil]
  exact offers_at_return hbefore hstep hsub hm hopen

/-- And each send of them found the channel open. -/
theorem open_of_call : ∀ t ∈ tries s (busTrace (pipelineTrace tr)), t.1 ∈ es → t.2 = .sent ∨ t.2 = .full := by
  intro t ht hes
  have hrun := pipeline_run h
  have hids := hfresh.freshIds h
  obtain ⟨call, hcall, hevents, _⟩ := dispatch_since_returned h (mem_of_split htr)
  obtain ⟨pre', p, post', hlabels⟩ := MemoryEventBus.mem_tries ht
  have hmem : .bus (.send p s t.1 t.2) ∈ pipelineTrace tr := by
    apply (PipelineAdapter.mem_busTrace rfl).mp
    rw [hlabels]
    exact List.mem_append_right _ List.mem_cons_self
  obtain ⟨call', hcall', he'⟩ := PipelineAdapter.call_of_send hrun hmem
  obtain ⟨rfl, _, _⟩ := hids.unique (PipelineAdapter.dispatch_of_call hrun hcall')
    (PipelineAdapter.dispatch_of_call hrun hcall) he' (hevents ▸ hes) rfl
  rw [pipelineTrace_split htr, List.mem_append] at hmem
  have hearly := hmem.resolve_right (not_sent_after_return (htr ▸ h))
  obtain ⟨_, _, hlabels'⟩ := List.append_of_mem ((PipelineAdapter.mem_busTrace rfl).mpr hearly)
  obtain ⟨_, _, _, _, _, hresult⟩ :=
    MemoryEventBus.send_of_open (PipelineAdapter.bus_run (pipeline_run hbefore)) hm hopen hlabels'
  exact hresult.imp And.left And.left

theorem delivered (hsub : .pipeline (.bus (.subscribe s filter)) ∈ pre) :
    ∃ m', Delivered (busTrace (pipelineTrace tr)) ρ.pipeline.bus m' x s filter es := by
  have hrun := pipeline_run h
  have hbus := PipelineAdapter.bus_run hrun
  have hsent := sent_of_call h hfresh htr hbefore hm hopen hsub
  have hfound := open_of_call h hfresh htr hbefore hm hopen
  obtain ⟨call, hcall, _, hstage⟩ := dispatch_since_returned h (mem_of_split htr)
  obtain ⟨σ, hσ, hlater⟩ := Lts.run_append.mp (pipelineTrace_split htr ▸ hrun)
  obtain rfl := (pipeline_run hbefore).det hσ
  -- the subscription may have closed since, but its books stay
  obtain ⟨m', hm', _⟩ := (PipelineAdapter.Invariant.run hσ).bus.subscription_run (PipelineAdapter.bus_run hlater) hm
  have hfifo := MemoryEventBus.returned_append_queue hbus hm'
  refine ⟨m', {
    kept := hm'
    sent := hsent
    split := hfound
    fifo := hfifo
    placed := ?_
    queued := ?_
    counted := ?_
    missed := MemoryEventBus.reported_add_lagged hbus hm' }⟩
  · have hplaced := MemoryEventBus.accepted_append_dropped (P := fun e => decide (e ∈ es)) fun t ht hes =>
      hfound t ht (of_decide_eq_true hes)
    rw [List.filter_map] at hplaced
    rw [hfifo, ← hsent]
    exact hplaced
  · have hsub : ((accepted s (busTrace (pipelineTrace tr))).filter (· ∈ es)).Sublist
        (((tries s (busTrace (pipelineTrace tr))).filter fun t => t.1 ∈ es).map Prod.fst) := by
      rw [accepted, List.filter_map]
      exact (List.filter_sublist.filter _).map Prod.fst
    rw [hfifo]
    exact hsub.trans (hsent ▸ List.filter_sublist)
  · exact (MemoryEventBus.count_refused hbus hm' x).1 (MemoryEventBus.not_laggingAt_of_none
      ((PipelineAdapter.Invariant.run hrun).idle_of_returned hcall hstage))

end

/-- **Exactly once and in order.** With ids that never repeat, a call that
returned Ok has made one event of each draft of its handler, in order; its
events are in the store in this order, each in one record, and it has appended
no other; and a subscription that was registered before the call and open when
it returned has been sent exactly the matching ones, each once, in this order: each
was returned by it, is in its queue, or was dropped, those queued in this order and
every drop of the call counted. -/
theorem executed_exactly_once
    (h : (runtime storeId queueCapacity).Run (State.new storeId queueCapacity) tr ρ) (hfresh : FreshStamps tr)
    (hreturned : .returned x (.ok es) ∈ tr) :
    (∃ c, Approved tr x c ∧ es = c.events ∧ es.map Event.draft = c.drafts) ∧
    (es.map (·.id)).Nodup ∧ (ρ.pipeline.store.records.map (·.event)).filter (· ∈ es) = es ∧
    (∀ event r, .pipeline (.append x event (.ok r)) ∈ tr → event ∈ es) ∧
    ∀ pre action mid post s filter ρ₁ m, tr = pre ++ .execute x action :: mid ++ .returned x (.ok es) :: post →
      .pipeline (.bus (.subscribe s filter)) ∈ pre →
      (runtime storeId queueCapacity).Run (State.new storeId queueCapacity) (pre ++ .execute x action :: mid) ρ₁ →
      ρ₁.pipeline.bus.subscriptions.lookup s = some m → m.IsOpen →
      ∃ m', Delivered (busTrace (pipelineTrace tr)) ρ.pipeline.bus m' x s filter es := by
  have hrun := pipeline_run h
  have hids := hfresh.freshIds h
  have hinv := PipelineAdapter.Invariant.run hrun
  obtain ⟨call, hcall, hevents, hstage⟩ := dispatch_since_returned h hreturned
  have hprogress := hinv.call hcall
  rw [hstage] at hprogress
  refine ⟨?_, ?_, ?_, ?_, ?_⟩
  · obtain ⟨c, hc, hcevents⟩ := approved_of_call h hcall
    have hes : es = c.events := by rw [hcevents, hevents]
    exact ⟨c, hc, hes, by rw [hes]; exact Action.materialize_draft c.stamped⟩
  · rw [← hevents]
    exact (List.nodup_flatMap.mp hids).1 _ (PipelineAdapter.dispatch_of_call hrun hcall)
  · rw [← hevents, hids.records_of_call hrun hcall, hprogress.1]
  · intro event r hmem
    rw [← hevents, ← hprogress.1]
    exact List.mem_filterMap.mpr ⟨_, (mem_pipelineTrace rfl).mpr hmem, by simp⟩
  · intro pre action mid post s filter ρ₁ m htr hsub hbefore hm hopen
    exact delivered h hfresh htr hbefore hm hopen hsub

/-- A drawing, from the call to a queue. -/
def beforeCall : List Label := [.register ⟨"canvas.draw"⟩ 1 (.ok ()), .pipeline (.bus (.subscribe default .all))]

def drawing : EventDraft := ⟨⟨"canvas.drawn"⟩, Payload.new, BTreeMap.new⟩
def drawingEvent : Event := (Action.plain ⟨"canvas.draw"⟩).event drawing ⟨default, Timestamp.epoch⟩

def duringCall : List Label :=
  [.lookup 1 (some 1), .validated 1 1 (.ok ()), .authorized 1 (.ok ()), .handled 1 1 (.ok [drawing]),
    .dispatch 1 [⟨default, Timestamp.epoch⟩] [drawingEvent],
    .pipeline (.append 1 drawingEvent (.ok ⟨.forMemory default 1, drawingEvent⟩)), .pipeline (.persisted 1),
    .pipeline (.publish 1 drawingEvent), .pipeline (.bus (.send 1 default drawingEvent .sent)),
    .pipeline (.bus (.endScan 1)), .pipeline (.published 1), .pipeline (.returned 1)]

/-- The whole call. -/
def wholeCall : List Label :=
  beforeCall ++ .execute 1 (Action.plain ⟨"canvas.draw"⟩) :: duringCall ++ [.returned 1 (.ok [drawingEvent])]

theorem executed_exactly_once_drawing : ∃ m', Delivered (busTrace (pipelineTrace wholeCall))
    ((runtime default 1).after wholeCall (by decide)).pipeline.bus m' 1 default .all [drawingEvent] :=
  (executed_exactly_once ((runtime default 1).run_after wholeCall (by decide)) (by decide)
    (List.mem_append_right _ List.mem_cons_self)).2.2.2.2 beforeCall _ duringCall [] default .all _ _ rfl
    (List.mem_cons_of_mem _ List.mem_cons_self)
    ((runtime default 1).run_after (beforeCall ++ .execute 1 (Action.plain ⟨"canvas.draw"⟩) :: duringCall) (by decide))
    (Option.some_get (by decide)).symm (by decide)

end OrbitRelay.Runtime
