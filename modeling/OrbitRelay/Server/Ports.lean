import OrbitRelay.Server.Pipeline

/-
  The pipeline over any store and any bus (orbitrelay-server: pipeline.rs).

  The adapter is made of two abstract ports. Here the bus may answer a publish
  as it likes, and of the store is asked only what its trait says: it keeps the
  first event of each id, takes an event again that it has, and may fail to
  answer, whether it has stored the event by then or not. So both `map_err` of
  the source are reached. The pipeline over memory is one of these.

  Correspondence (Rust ↔ Lean):
    `event_store.append(..).await`   ↔ `append`, with what the store does
    `event_bus.publish(..).await`    ↔ `publish`, and `published` for its answer
    `PipelineError::new(..)`         ↔ `persistenceFailed`, `publicationFailed`
-/

namespace OrbitRelay.Ports

open PipelineAdapter (Stage Dispatch persistenceFailed)
open KeyedLog (put)

/-- The error for an event that was not published. -/
def publicationFailed (event : Event) : PipelineError :=
  ⟨"event publication failed for `" ++ event.id.entityId.text ++ "`"⟩

/-- The log of the store, and the calls of the adapter. -/
structure State where
  log : List Event
  dispatches : Table TaskId Dispatch

/-- What a store does with an append. -/
inductive Append where
  /-- it has the event and says so -/
  | done
  /-- it fails and has not stored it -/
  | failed
  /-- it has the event and fails all the same -/
  | lost
  deriving DecidableEq

inductive Label where
  | dispatch (d : TaskId) (events : List Event)
  | append (d : TaskId) (event : Event) (outcome : Append)
  | persisted (d : TaskId)
  | publish (d : TaskId) (event : Event)
  | published (d : TaskId) (result : Except SyncError Unit)
  | returned (d : TaskId)
  deriving DecidableEq

/-- No other event is in the log under the id. -/
def Accepts (log : List Event) (event : Event) : Prop := ∀ e ∈ log, e.id = event.id → e = event

instance (log : List Event) (event : Event) : Decidable (Accepts log event) :=
  inferInstanceAs (Decidable (∀ e ∈ log, e.id = event.id → e = event))

/-- Where the call goes with the answer to a publish. -/
def afterPublish (event : Event) (rest : List Event) : Except SyncError Unit → Stage
  | .ok () => .publishing rest
  | .error _ => .returned (.error (publicationFailed event))

namespace State

/-- An empty store, and no calls. -/
def new : State := ⟨[], ∅⟩

/-- The state with the call `d` at another stage. -/
def setStage (σ : State) (d : TaskId) (call : Dispatch) (stage : Stage) : State :=
  { σ with dispatches := σ.dispatches.insert d { call with stage } }

/-- The state with an event in the log. -/
def store (σ : State) (event : Event) : State := { σ with log := (put Event.id σ.log event).2 }

def step (σ : State) : Label → Option State
  | .dispatch d events =>
    if σ.dispatches.lookup d = none then
      some { σ with dispatches := σ.dispatches.insert d ⟨events, .appending events⟩ }
    else none
  | .append d event outcome => do
    let call ← σ.dispatches.lookup d
    match call.stage with
    | .appending (e :: rest) =>
      if e = event then
        match outcome with
        | .done =>
          if Accepts σ.log event then some ((σ.store event).setStage d call (.appending rest)) else none
        | .failed => some (σ.setStage d call (.returned (.error (persistenceFailed event))))
        | .lost =>
          if Accepts σ.log event then
            some ((σ.store event).setStage d call (.returned (.error (persistenceFailed event))))
          else none
      else none
    | _ => none
  | .persisted d => do
    let call ← σ.dispatches.lookup d
    if call.stage = .appending [] then some (σ.setStage d call (.publishing call.events)) else none
  | .publish d event => do
    let call ← σ.dispatches.lookup d
    match call.stage with
    | .publishing (e :: rest) => if e = event then some (σ.setStage d call (.inFlight event rest)) else none
    | _ => none
  | .published d result => do
    let call ← σ.dispatches.lookup d
    match call.stage with
    | .inFlight event rest => some (σ.setStage d call (afterPublish event rest result))
    | _ => none
  | .returned d => do
    let call ← σ.dispatches.lookup d
    if call.stage = .publishing [] then some (σ.setStage d call (.returned (.ok ()))) else none

end State

/-- The adapter over a store and a bus, with its callers. -/
def ports : Lts State Label := ⟨State.new, State.step⟩

/-! ## What a step does -/

/-- The ways a step can go, each with what it finds and what it leaves. -/
inductive Effect (σ : State) : Label → State → Prop where
  | dispatch (d : TaskId) (events : List Event) (fresh : σ.dispatches.lookup d = none) :
      Effect σ (.dispatch d events) { σ with dispatches := σ.dispatches.insert d ⟨events, .appending events⟩ }
  | appended (d : TaskId) (event : Event) (rest : List Event) (call : Dispatch)
      (running : σ.dispatches.lookup d = some call) (stage : call.stage = .appending (event :: rest))
      (accepts : Accepts σ.log event) :
      Effect σ (.append d event .done) ((σ.store event).setStage d call (.appending rest))
  | failed (d : TaskId) (event : Event) (rest : List Event) (call : Dispatch)
      (running : σ.dispatches.lookup d = some call) (stage : call.stage = .appending (event :: rest)) :
      Effect σ (.append d event .failed) (σ.setStage d call (.returned (.error (persistenceFailed event))))
  | lost (d : TaskId) (event : Event) (rest : List Event) (call : Dispatch)
      (running : σ.dispatches.lookup d = some call) (stage : call.stage = .appending (event :: rest))
      (accepts : Accepts σ.log event) :
      Effect σ (.append d event .lost)
        ((σ.store event).setStage d call (.returned (.error (persistenceFailed event))))
  | persisted (d : TaskId) (call : Dispatch) (running : σ.dispatches.lookup d = some call)
      (stage : call.stage = .appending []) :
      Effect σ (.persisted d) (σ.setStage d call (.publishing call.events))
  | publish (d : TaskId) (event : Event) (rest : List Event) (call : Dispatch)
      (running : σ.dispatches.lookup d = some call) (stage : call.stage = .publishing (event :: rest)) :
      Effect σ (.publish d event) (σ.setStage d call (.inFlight event rest))
  | published (d : TaskId) (event : Event) (rest : List Event) (call : Dispatch) (result : Except SyncError Unit)
      (running : σ.dispatches.lookup d = some call) (stage : call.stage = .inFlight event rest) :
      Effect σ (.published d result) (σ.setStage d call (afterPublish event rest result))
  | returned (d : TaskId) (call : Dispatch) (running : σ.dispatches.lookup d = some call)
      (stage : call.stage = .publishing []) :
      Effect σ (.returned d) (σ.setStage d call (.returned (.ok ())))

theorem step_effect {σ σ' : State} {l : Label} (h : σ.step l = some σ') : Effect σ l σ' := by
  cases l with
  | dispatch d events =>
    simp only [State.step, Option.ite_none_right_eq_some, Option.some.injEq] at h
    obtain ⟨fresh, rfl⟩ := h
    exact .dispatch d events fresh
  | append d event outcome =>
    simp only [State.step, Option.bind_eq_bind, Option.bind_eq_some_iff] at h
    obtain ⟨call, running, h⟩ := h
    split at h
    · next e rest stage =>
      simp only [Option.ite_none_right_eq_some] at h
      obtain ⟨rfl, h⟩ := h
      cases outcome with
      | done =>
        simp only [Option.ite_none_right_eq_some, Option.some.injEq] at h
        obtain ⟨accepts, rfl⟩ := h
        exact .appended d e rest call running stage accepts
      | failed =>
        obtain rfl := Option.some.inj h
        exact .failed d e rest call running stage
      | lost =>
        simp only [Option.ite_none_right_eq_some, Option.some.injEq] at h
        obtain ⟨accepts, rfl⟩ := h
        exact .lost d e rest call running stage accepts
    · simp at h
  | persisted d =>
    simp only [State.step, Option.bind_eq_bind, Option.bind_eq_some_iff, Option.ite_none_right_eq_some,
      Option.some.injEq] at h
    obtain ⟨call, running, stage, rfl⟩ := h
    exact .persisted d call running stage
  | publish d event =>
    simp only [State.step, Option.bind_eq_bind, Option.bind_eq_some_iff] at h
    obtain ⟨call, running, h⟩ := h
    split at h
    · next e rest stage =>
      simp only [Option.ite_none_right_eq_some, Option.some.injEq] at h
      obtain ⟨rfl, rfl⟩ := h
      exact .publish d e rest call running stage
    · simp at h
  | published d result =>
    simp only [State.step, Option.bind_eq_bind, Option.bind_eq_some_iff] at h
    obtain ⟨call, running, h⟩ := h
    split at h
    · next event rest stage =>
      obtain rfl := Option.some.inj h
      exact .published d event rest call result running stage
    · simp at h
  | returned d =>
    simp only [State.step, Option.bind_eq_bind, Option.bind_eq_some_iff, Option.ite_none_right_eq_some,
      Option.some.injEq] at h
    obtain ⟨call, running, stage, rfl⟩ := h
    exact .returned d call running stage

/-! ## The log -/

variable {σ σ' τ : State} {l : Label} {tr tr' : List Label} {d d' : TaskId} {call : Dispatch} {event e : Event}
  {events batch rest : List Event} {stage : Stage}

/-- A store that accepts an event has it already, or adds it under a new id. -/
theorem store_cases (h : Accepts σ.log event) :
    (event ∈ σ.log ∧ (σ.store event).log = σ.log) ∨
      ((∀ e ∈ σ.log, e.id ≠ event.id) ∧ (σ.store event).log = σ.log ++ [event]) := by
  by_cases hin : event ∈ σ.log
  · refine .inl ⟨hin, ?_⟩
    have hsome : (σ.log.find? fun e => e.id = event.id).isSome := by
      rw [List.find?_isSome]
      exact ⟨event, hin, by simp⟩
    obtain ⟨e, he⟩ := Option.isSome_iff_exists.mp hsome
    rw [State.store, KeyedLog.put_of_mem Event.id he]
  · have hfresh : ∀ e ∈ σ.log, e.id ≠ event.id := fun e he hid => hin (h e he hid ▸ he)
    refine .inr ⟨hfresh, ?_⟩
    rw [State.store, KeyedLog.put_of_fresh Event.id hfresh]

theorem mem_store (h : Accepts σ.log event) : e ∈ (σ.store event).log ↔ e ∈ σ.log ∨ e = event := by
  rcases store_cases h with ⟨hin, hlog⟩ | ⟨_, hlog⟩
  · rw [hlog]
    constructor
    · exact .inl
    · intro he
      rcases he with he | rfl
      · exact he
      · exact hin
  · rw [hlog, List.mem_append, List.mem_singleton]

/-- The ids of a log are its own. -/
theorem nodup_store (h : Accepts σ.log event) (hnodup : (σ.log.map Event.id).Nodup) :
    ((σ.store event).log.map Event.id).Nodup := by
  rcases store_cases h with ⟨_, hlog⟩ | ⟨hfresh, hlog⟩
  · rwa [hlog]
  · rw [hlog, List.map_append, List.map_singleton]
    apply List.nodup_append.mpr
    refine ⟨hnodup, List.nodup_singleton _, ?_⟩
    intro id hid id' hid' heq
    obtain ⟨e, he, rfl⟩ := List.mem_map.mp hid
    exact hfresh e he (heq.trans (List.mem_singleton.mp hid'))

/-! ## The program counters -/

/-- The events of call `d` that the store has taken. -/
def appended (d : TaskId) (tr : List Label) : List Event :=
  tr.filterMap fun
    | .append d' event .done => if d' = d then some event else none
    | _ => none

/-- The events call `d` has begun to publish. -/
def begun (d : TaskId) (tr : List Label) : List Event :=
  tr.filterMap fun
    | .publish d' event => if d' = d then some event else none
    | _ => none

/-- How many publishes of call `d` the bus has answered with Ok. -/
def acknowledged (d : TaskId) (tr : List Label) : Nat := tr.count (.published d (.ok ()))

theorem appended_append (tr tr' : List Label) : appended d (tr ++ tr') = appended d tr ++ appended d tr' :=
  List.filterMap_append

theorem begun_append (tr tr' : List Label) : begun d (tr ++ tr') = begun d tr ++ begun d tr' :=
  List.filterMap_append

theorem acknowledged_append (tr tr' : List Label) :
    acknowledged d (tr ++ tr') = acknowledged d tr + acknowledged d tr' :=
  List.count_append

/-- A call that failed names the event it failed at: one it could not append, or
one it could not publish after it had appended them all. -/
def FailedAt (events : List Event) (error : PipelineError) (done sent : List Event) (acks : Nat) : Prop :=
  (∃ event rest, events = done ++ event :: rest ∧ error = persistenceFailed event ∧ sent = [] ∧ acks = 0) ∨
  (done = events ∧ ∃ before event rest, events = before ++ event :: rest ∧ error = publicationFailed event ∧
    sent = before ++ [event] ∧ acks = before.length)

/-- What the ports have been asked and have answered, at each stage of a call. -/
def Progress (events : List Event) : Stage → List Event → List Event → Nat → Prop
  | .appending rest, done, sent, acks => events = done ++ rest ∧ sent = [] ∧ acks = 0
  | .publishing rest, done, sent, acks => done = events ∧ events = sent ++ rest ∧ acks = sent.length
  | .inFlight event rest, done, sent, acks => done = events ∧ ∃ before, events = before ++ event :: rest ∧
    sent = before ++ [event] ∧ acks = before.length
  | .returned (.ok _), done, sent, acks => done = events ∧ sent = events ∧ acks = events.length
  | .returned (.error error), done, sent, acks => FailedAt events error done sent acks

/-- How the calls, the log and the trace fit together. -/
structure Invariant (tr : List Label) (σ : State) : Prop where
  call : ∀ {d call}, σ.dispatches.lookup d = some call →
    Progress call.events call.stage (appended d tr) (begun d tr) (acknowledged d tr)
  uncalled : ∀ {d}, σ.dispatches.lookup d = none → appended d tr = [] ∧ begun d tr = [] ∧ acknowledged d tr = 0
  dispatched : ∀ {d call}, σ.dispatches.lookup d = some call → .dispatch d call.events ∈ tr
  logged : ∀ {d event}, event ∈ appended d tr → event ∈ σ.log
  origin : ∀ {e}, e ∈ σ.log → ∃ d call, σ.dispatches.lookup d = some call ∧ e ∈ call.events
  nodup : (σ.log.map Event.id).Nodup

namespace Invariant

theorem new : Invariant [] State.new where
  call := by simp [State.new]
  uncalled := fun _ => ⟨rfl, rfl, rfl⟩
  dispatched := by simp [State.new]
  logged := by simp [appended]
  origin := by simp [State.new]
  nodup := List.nodup_nil

/-- A step of call `d`, which leads it to another stage. -/
theorem advance (h : Invariant tr σ) (stage : Stage) (running : σ.dispatches.lookup d = some call)
    (hprogress : Progress call.events stage (appended d tr ++ appended d [l]) (begun d tr ++ begun d [l])
      (acknowledged d tr + acknowledged d [l]))
    (hothers : ∀ d', d' ≠ d → appended d' [l] = [] ∧ begun d' [l] = [] ∧ acknowledged d' [l] = 0)
    (hcalls : σ'.dispatches = σ.dispatches.insert d { call with stage }) (hkept : ∀ e ∈ σ.log, e ∈ σ'.log)
    (hnew : ∀ e ∈ appended d [l], e ∈ σ'.log) (horigin : ∀ e ∈ σ'.log, e ∈ σ.log ∨ e ∈ call.events)
    (hnodup : (σ'.log.map Event.id).Nodup) : Invariant (tr ++ [l]) σ' where
  call := by
    intro d' call' hcall
    rw [hcalls] at hcall
    rw [appended_append, begun_append, acknowledged_append]
    rcases Table.lookup_insert_eq_some.mp hcall with ⟨rfl, rfl⟩ | ⟨hne, hold⟩
    · exact hprogress
    · obtain ⟨ha, hb, hk⟩ := hothers d' hne
      rw [ha, hb, hk, List.append_nil, List.append_nil]
      exact h.call hold
  uncalled := by
    intro d' hnone
    have hne : d' ≠ d := by
      intro heq
      subst heq
      rw [hcalls, AList.lookup_insert] at hnone
      simp at hnone
    rw [hcalls, AList.lookup_insert_ne hne] at hnone
    obtain ⟨ha, hb, hk⟩ := hothers d' hne
    rw [appended_append, begun_append, acknowledged_append, ha, hb, hk, List.append_nil, List.append_nil]
    exact h.uncalled hnone
  dispatched := by
    intro d' call' hcall
    rw [hcalls] at hcall
    apply List.mem_append_left
    rcases Table.lookup_insert_eq_some.mp hcall with ⟨rfl, rfl⟩ | ⟨_, hold⟩
    · have hmem := h.dispatched running
      exact hmem
    · exact h.dispatched hold
  logged := by
    intro d' event he
    rw [appended_append] at he
    rcases List.mem_append.mp he with he | he
    · exact hkept _ (h.logged he)
    · by_cases hd : d' = d
      · subst hd
        exact hnew _ he
      · simp [(hothers d' hd).1] at he
  origin := by
    have hold : ∀ {d' call'}, σ.dispatches.lookup d' = some call' →
        ∃ call'', σ'.dispatches.lookup d' = some call'' ∧ call''.events = call'.events := by
      intro d' call' hcall
      rw [hcalls]
      by_cases hd : d' = d
      · subst hd
        obtain rfl := Option.some.inj (running.symm.trans hcall)
        exact ⟨_, AList.lookup_insert _, rfl⟩
      · exact ⟨call', (AList.lookup_insert_ne hd).trans hcall, rfl⟩
    intro e he
    rcases horigin e he with he | he
    · obtain ⟨d', call', hcall, hmem⟩ := h.origin he
      obtain ⟨call'', hcall'', hevents⟩ := hold hcall
      exact ⟨d', call'', hcall'', hevents ▸ hmem⟩
    · obtain ⟨call'', hcall'', hevents⟩ := hold running
      exact ⟨d, call'', hcall'', hevents ▸ he⟩
  nodup := hnodup

/-- The same for a step that leaves the log alone. -/
theorem advance_log (h : Invariant tr σ) (stage : Stage) (running : σ.dispatches.lookup d = some call)
    (hprogress : Progress call.events stage (appended d tr) (begun d tr ++ begun d [l])
      (acknowledged d tr + acknowledged d [l]))
    (hnone : ∀ d', appended d' [l] = []) (hothers : ∀ d', d' ≠ d → begun d' [l] = [] ∧ acknowledged d' [l] = 0) :
    Invariant (tr ++ [l]) (σ.setStage d call stage) := by
  refine h.advance stage running ?_ (fun d' hne => ⟨hnone d', hothers d' hne⟩) rfl (fun e he => he) ?_
    (fun e he => .inl he) h.nodup
  · rwa [hnone, List.append_nil]
  · simp [hnone]

theorem step (h : Invariant tr σ) (hstep : σ.step l = some σ') : Invariant (tr ++ [l]) σ' := by
  cases step_effect hstep with
  | dispatch d events fresh =>
    obtain ⟨ha, hb, hk⟩ := h.uncalled fresh
    have hnothing : ∀ d', appended d' [.dispatch d events] = [] ∧ begun d' [.dispatch d events] = [] ∧
        acknowledged d' [.dispatch d events] = 0 := fun d' => ⟨rfl, rfl, rfl⟩
    refine ⟨?_, ?_, ?_, ?_, ?_, h.nodup⟩
    · intro d' call hcall
      rw [appended_append, begun_append, acknowledged_append, (hnothing d').1, (hnothing d').2.1, (hnothing d').2.2,
        List.append_nil, List.append_nil]
      rcases Table.lookup_insert_eq_some.mp hcall with ⟨rfl, rfl⟩ | ⟨_, hold⟩
      · rw [ha, hb, hk]
        exact ⟨rfl, rfl, rfl⟩
      · exact h.call hold
    · intro d' hnone
      have hne : d' ≠ d := by
        intro heq
        subst heq
        simp at hnone
      have hold : σ.dispatches.lookup d' = none := (AList.lookup_insert_ne hne).symm.trans hnone
      rw [appended_append, begun_append, acknowledged_append, (hnothing d').1, (hnothing d').2.1, (hnothing d').2.2,
        List.append_nil, List.append_nil]
      exact h.uncalled hold
    · intro d' call hcall
      rcases Table.lookup_insert_eq_some.mp hcall with ⟨rfl, rfl⟩ | ⟨_, hold⟩
      · exact List.mem_append_right _ List.mem_cons_self
      · exact List.mem_append_left _ (h.dispatched hold)
    · intro d' event he
      rw [appended_append, (hnothing d').1, List.append_nil] at he
      exact h.logged he
    · intro e he
      obtain ⟨d', call, hcall, hmem⟩ := h.origin he
      have hne : d' ≠ d := by
        intro heq
        subst heq
        simp [fresh] at hcall
      exact ⟨d', call, (AList.lookup_insert_ne hne).trans hcall, hmem⟩
  | appended d event rest call running stage accepts =>
    have hprogress := h.call running
    rw [stage] at hprogress
    obtain ⟨hsplit, hsent, hacks⟩ := hprogress
    have hone : appended d [.append d event .done] = [event] := by simp [appended]
    refine h.advance (.appending rest) running ?_ ?_ rfl ?_ ?_ ?_ (nodup_store accepts h.nodup)
    · rw [hone, hsent, hacks]
      exact ⟨by simp [hsplit], rfl, rfl⟩
    · intro d' hne
      exact ⟨by simp [appended, Ne.symm hne], rfl, rfl⟩
    · intro e he
      exact (mem_store accepts).mpr (.inl he)
    · intro e he
      rw [hone, List.mem_singleton] at he
      exact (mem_store accepts).mpr (.inr he)
    · intro e he
      refine ((mem_store accepts).mp he).imp_right ?_
      rintro rfl
      simp [hsplit]
  | failed d event rest call running stage =>
    have hprogress := h.call running
    rw [stage] at hprogress
    obtain ⟨hsplit, hsent, hacks⟩ := hprogress
    refine h.advance_log _ running ?_ (fun _ => rfl) (fun _ _ => ⟨rfl, rfl⟩)
    rw [hsent, hacks]
    exact .inl ⟨event, rest, hsplit, rfl, rfl, rfl⟩
  | lost d event rest call running stage accepts =>
    have hprogress := h.call running
    rw [stage] at hprogress
    obtain ⟨hsplit, hsent, hacks⟩ := hprogress
    have hnone : appended d [.append d event .lost] = [] := rfl
    refine h.advance (.returned (.error (persistenceFailed event))) running ?_ (fun _ _ => ⟨rfl, rfl, rfl⟩) rfl ?_ ?_
      ?_ (nodup_store accepts h.nodup)
    · rw [hnone, hsent, hacks, List.append_nil]
      exact .inl ⟨event, rest, hsplit, rfl, rfl, rfl⟩
    · intro e he
      exact (mem_store accepts).mpr (.inl he)
    · simp [appended]
    · intro e he
      refine ((mem_store accepts).mp he).imp_right ?_
      rintro rfl
      simp [hsplit]
  | persisted d call running stage =>
    have hprogress := h.call running
    rw [stage] at hprogress
    obtain ⟨hsplit, hsent, hacks⟩ := hprogress
    refine h.advance_log _ running ?_ (fun _ => rfl) (fun _ _ => ⟨rfl, rfl⟩)
    rw [hsent, hacks]
    exact ⟨by simp [hsplit], rfl, rfl⟩
  | publish d event rest call running stage =>
    have hprogress := h.call running
    rw [stage] at hprogress
    obtain ⟨hdone, hsplit, hacks⟩ := hprogress
    have hone : begun d [.publish d event] = [event] := by simp [begun]
    refine h.advance_log _ running ?_ (fun _ => rfl) ?_
    · rw [hone]
      exact ⟨hdone, _, hsplit, rfl, hacks⟩
    · intro d' hne
      exact ⟨by simp [begun, Ne.symm hne], rfl⟩
  | published d event rest call result running stage =>
    have hprogress := h.call running
    rw [stage] at hprogress
    obtain ⟨hdone, before, hsplit, hsent, hacks⟩ := hprogress
    refine h.advance_log _ running ?_ (fun _ => rfl) ?_
    · cases result with
      | ok =>
        have hone : acknowledged d [.published d (.ok ())] = 1 := by simp [acknowledged]
        rw [hone, hsent, hacks]
        exact ⟨hdone, by simp [hsplit, begun], by simp [begun]⟩
      | error error =>
        have hnone : acknowledged d [.published d (.error error)] = 0 := by simp [acknowledged]
        have hsame : begun d [.published d (.error error)] = [] := rfl
        rw [hnone, hsame, List.append_nil]
        exact .inr ⟨hdone, before, event, rest, hsplit, rfl, hsent, hacks⟩
    · intro d' hne
      exact ⟨rfl, by simp [acknowledged, Ne.symm hne]⟩
  | returned d call running stage =>
    have hprogress := h.call running
    rw [stage] at hprogress
    obtain ⟨hdone, hsplit, hacks⟩ := hprogress
    rw [List.append_nil] at hsplit
    refine h.advance_log _ running ?_ (fun _ => rfl) (fun _ _ => ⟨rfl, rfl⟩)
    exact ⟨hdone, by rw [hsplit]; simp [begun], by rw [hsplit]; exact hacks⟩

theorem run (h : ports.Run State.new tr σ) : Invariant tr σ :=
  Lts.Run.induct (P := Invariant) Invariant.new (fun _ _ _ _ _ ih hstep => ih.step hstep) h

end Invariant

/-! ## The steps a call can take -/

theorem Effect.step (h : Effect σ l σ') : σ.step l = some σ' := by
  cases h with
  | dispatch d events fresh => simp [State.step, fresh]
  | appended d event rest call running stage accepts => simp [State.step, running, stage, accepts]
  | failed d event rest call running stage => simp [State.step, running, stage]
  | lost d event rest call running stage accepts => simp [State.step, running, stage, accepts]
  | persisted d call running stage => simp [State.step, running, stage]
  | publish d event rest call running stage => simp [State.step, running, stage]
  | published d event rest call result running stage => simp [State.step, running, stage]
  | returned d call running stage => simp [State.step, running, stage]

@[simp] theorem lookup_setStage :
    (σ.setStage d call stage).dispatches.lookup d = some ⟨call.events, stage⟩ :=
  AList.lookup_insert _

/-- Equal ids in the batch are equal events. -/
def Consistent (batch : List Event) : Prop := ∀ a ∈ batch, ∀ b ∈ batch, a.id = b.id → a = b

/-- A store that answers takes what a call has left to append. -/
theorem append_all : ∀ (rest : List Event) {σ : State}, σ.dispatches.lookup d = some ⟨events, .appending rest⟩ →
    (∀ e ∈ rest, Accepts σ.log e) → Consistent rest →
    ∃ σ', ports.Run σ (rest.map fun e => .append d e .done) σ' ∧
      σ'.dispatches.lookup d = some ⟨events, .appending []⟩
  | [], σ, running, _, _ => ⟨σ, Lts.Run.nil _ _, running⟩
  | event :: rest, σ, running, haccepts, hconsistent => by
    have haccept := haccepts event List.mem_cons_self
    have hlater : ∀ e ∈ rest, Accepts ((σ.store event).setStage d ⟨events, .appending (event :: rest)⟩
        (.appending rest)).log e := by
      intro e he b hb hid
      rcases (mem_store haccept).mp hb with hb | rfl
      · exact haccepts e (List.mem_cons_of_mem _ he) b hb hid
      · exact hconsistent b List.mem_cons_self e (List.mem_cons_of_mem _ he) hid
    have hrest : Consistent rest := by
      intro a ha b hb
      exact hconsistent a (List.mem_cons_of_mem _ ha) b (List.mem_cons_of_mem _ hb)
    obtain ⟨σ', hrun, hlast⟩ := append_all rest lookup_setStage hlater hrest
    have hstep := (Effect.appended d event rest _ running rfl haccept).step
    exact ⟨σ', Lts.run_cons.mpr ⟨_, hstep, hrun⟩, hlast⟩

/-- A bus that answers Ok takes what a call has left to publish. -/
theorem publish_all : ∀ (rest : List Event) {σ : State}, σ.dispatches.lookup d = some ⟨events, .publishing rest⟩ →
    ∃ σ', ports.Run σ (rest.flatMap fun e => [.publish d e, .published d (.ok ())]) σ' ∧
      σ'.dispatches.lookup d = some ⟨events, .publishing []⟩
  | [], σ, running => ⟨σ, Lts.Run.nil _ _, running⟩
  | event :: rest, σ, running => by
    have hbegin := (Effect.publish d event rest _ running rfl).step
    have hwaiting : (σ.setStage d ⟨events, .publishing (event :: rest)⟩ (.inFlight event rest)).dispatches.lookup d =
        some ⟨events, .inFlight event rest⟩ := lookup_setStage
    have hend := (Effect.published d event rest _ (.ok ()) hwaiting rfl).step
    have hnext : ((σ.setStage d ⟨events, .publishing (event :: rest)⟩ (.inFlight event rest)).setStage d
        ⟨events, .inFlight event rest⟩ (.publishing rest)).dispatches.lookup d = some ⟨events, .publishing rest⟩ :=
      lookup_setStage
    obtain ⟨σ', hrun, hlast⟩ := publish_all rest hnext
    exact ⟨σ', Lts.run_cons.mpr ⟨_, hbegin, Lts.run_cons.mpr ⟨_, hend, hrun⟩⟩, hlast⟩

/-- A call to ports that answer. -/
def attempt (d : TaskId) (batch : List Event) : List Label :=
  [.dispatch d batch] ++ batch.map (fun e => .append d e .done) ++ [.persisted d] ++
    batch.flatMap (fun e => [.publish d e, .published d (.ok ())]) ++ [.returned d]

/-- Where no other event has an id of the batch, an attempt succeeds. -/
theorem attempt_succeeds (fresh : σ.dispatches.lookup d = none) (haccepts : ∀ e ∈ batch, Accepts σ.log e)
    (hconsistent : Consistent batch) :
    ∃ σ', ports.Run σ (attempt d batch) σ' ∧ σ'.dispatches.lookup d = some ⟨batch, .returned (.ok ())⟩ := by
  have hdispatch := (Effect.dispatch d batch fresh).step
  have hstarted : (σ.dispatches.insert d ⟨batch, .appending batch⟩).lookup d = some ⟨batch, .appending batch⟩ :=
    AList.lookup_insert _
  obtain ⟨τ, happend, hτ⟩ := append_all batch
    (σ := { σ with dispatches := σ.dispatches.insert d ⟨batch, .appending batch⟩ }) hstarted haccepts hconsistent
  have hpersisted : ports.step τ (.persisted d) = some (τ.setStage d ⟨batch, .appending []⟩ (.publishing batch)) :=
    (Effect.persisted d _ hτ rfl).step
  obtain ⟨υ, hpublish, hυ⟩ := publish_all batch (σ := τ.setStage d ⟨batch, .appending []⟩ (.publishing batch))
    lookup_setStage
  have hreturned : ports.step υ (.returned d) = some (υ.setStage d ⟨batch, .publishing []⟩ (.returned (.ok ()))) :=
    (Effect.returned d _ hυ rfl).step
  have hfirst : ports.Run σ [.dispatch d batch] _ := Lts.Run.single hdispatch
  exact ⟨_, (((hfirst.append happend).snoc hpersisted).append hpublish).snoc hreturned, lookup_setStage⟩

/-! ## The pipeline over memory -/

/-- The pipeline over memory, as its ports see it. -/
def portsOf (π : PipelineAdapter.State) : State := ⟨π.store.events, π.dispatches⟩

/-- What a step of the pipeline over memory is to its ports. -/
def portsLabel : PipelineAdapter.Label → Option Label
  | .dispatch d events => some (.dispatch d events)
  | .append d event (.ok _) => some (.append d event .done)
  | .append d event (.error _) => some (.append d event .failed)
  | .appendFailed d event _ => some (.append d event .failed)
  | .persisted d => some (.persisted d)
  | .publish d event => some (.publish d event)
  | .published d => some (.published d (.ok ()))
  | .returned d => some (.returned d)
  | _ => none

/-- A memory store takes what it accepts. -/
theorem accepts_of_append {store : MemoryEventStore.State} {r : StoredEvent} (h : (store.append event).1 = .ok r) :
    Accepts store.events event := by
  intro e he hid
  rcases MemoryEventStore.State.append_ok_events h with ⟨hin, _⟩ | ⟨hfresh, _⟩
  · obtain ⟨r, hr, rfl⟩ := List.mem_map.mp he
    obtain ⟨r', hr', rfl⟩ := List.mem_map.mp hin
    rw [MemoryEventStore.State.eq_of_id_eq hr hr' hid]
  · exact absurd hid (hfresh e he)

/-- The store and the bus in memory are ports, and this bus does not fail. -/
def memoryPorts (storeId : EntityId) (queueCapacity : Nat) :
    Lts.Simulation (PipelineAdapter.pipeline storeId queueCapacity) ports where
  rel π σ := portsOf π = σ
  label := portsLabel
  start := rfl
  follow := by
    intro π _ l π' heq hstep
    subst heq
    refine ⟨portsOf π', ?_, rfl⟩
    cases PipelineAdapter.step_effect hstep with
    | dispatch d events fresh => exact Lts.Run.single (Effect.dispatch d events fresh).step
    | appended d event rest call r running stage answer =>
      have hstep := (Effect.appended (σ := portsOf π) d event rest call running stage (accepts_of_append answer)).step
      have hlog : (π.store.append event).2.events = (put Event.id π.store.events event).2 :=
        (π.store.append_refines_put event).1
      refine Lts.Run.single (hstep.trans ?_)
      simp only [portsOf, State.setStage, State.store, PipelineAdapter.State.setStage, hlog]
    | refused d event rest call error running stage answer =>
      have hstep := (Effect.failed (σ := portsOf π) d event rest call running stage).step
      refine Lts.Run.single (hstep.trans ?_)
      simp only [portsOf, State.setStage, PipelineAdapter.State.setStage,
        MemoryEventStore.State.append_of_error answer]
    | appendFailed d event rest call error running stage =>
      exact Lts.Run.single (Effect.failed (σ := portsOf π) d event rest call running stage).step
    | persisted d call running stage =>
      exact Lts.Run.single (Effect.persisted (σ := portsOf π) d call running stage).step
    | publish d event rest call bus running stage begun =>
      exact Lts.Run.single (Effect.publish (σ := portsOf π) d event rest call running stage).step
    | published d event rest call running stage ended =>
      exact Lts.Run.single (Effect.published (σ := portsOf π) d event rest call (.ok ()) running stage).step
    | returned d call running stage =>
      exact Lts.Run.single (Effect.returned (σ := portsOf π) d call running stage).step
    | bus l bus foreign stepped => exact Lts.Run.nil _ _
    | get id => exact Lts.Run.nil _ _
    | query q => exact Lts.Run.nil _ _

/-! ## What a call has done -/

/-- The two errors of the adapter can be told apart. -/
theorem persistenceFailed_ne_publicationFailed : persistenceFailed event ≠ publicationFailed e := by
  intro heq
  have htexts := congrArg String.toList (PipelineError.mk.inj heq)
  simp only [String.toList_append] at htexts
  have hletter := congrArg (·[7]?) htexts
  simp at hletter

theorem count_log (h : Invariant tr σ) (he : e ∈ σ.log) : σ.log.count e = 1 :=
  List.count_eq_one_of_mem (List.Nodup.of_map _ h.nodup) he

/-- A publish begins with all of its batch in the log. -/
theorem logged_of_publish (h : Invariant tr σ) (hstep : σ.step (.publish d event) = some σ') :
    ∃ batch, .dispatch d batch ∈ tr ∧ event ∈ batch ∧ ∀ e ∈ batch, e ∈ σ.log := by
  cases step_effect hstep with
  | publish d event rest call running stage =>
    have hprogress := h.call running
    rw [stage] at hprogress
    obtain ⟨hdone, hsplit, _⟩ := hprogress
    refine ⟨call.events, h.dispatched running, by simp [hsplit], ?_⟩
    intro e he
    exact h.logged (hdone ▸ he)

/-- A call that failed has published something exactly if its error is that of a publish. -/
theorem FailedAt.begun_iff {error : PipelineError} {done sent : List Event} {acks : Nat}
    (h : FailedAt events error done sent acks) : sent = [] ↔ ∃ event, error = persistenceFailed event := by
  rcases h with ⟨event, _, _, rfl, rfl, _⟩ | ⟨_, before, event, _, _, rfl, rfl, _⟩
  · exact ⟨fun _ => ⟨event, rfl⟩, fun _ => rfl⟩
  · constructor
    · intro hnone
      simp at hnone
    · intro hsame
      obtain ⟨_, heq⟩ := hsame
      exact absurd heq.symm persistenceFailed_ne_publicationFailed

/-- Events that come from consistent batches are accepted. -/
theorem accepts_of_dispatched (h : Invariant tr σ)
    (hids : ∀ d events, .dispatch d events ∈ tr → ∀ a ∈ events, ∀ b ∈ batch, a.id = b.id → a = b) :
    ∀ b ∈ batch, Accepts σ.log b := by
  intro b hb e he hid
  obtain ⟨d, call, hcall, hmem⟩ := h.origin he
  exact hids d call.events (h.dispatched hcall) e hmem b hb hid

/-- What holds of a call that has returned. -/
def Tells (d : TaskId) (events : List Event) (tr : List Label) (σ : State) : Except PipelineError Unit → Prop
  | .ok _ => (∀ e ∈ events, σ.log.count e = 1) ∧ begun d tr = events ∧ acknowledged d tr = events.length
  | .error error => FailedAt events error (appended d tr) (begun d tr) (acknowledged d tr) ∧
    (∀ e ∈ appended d tr, σ.log.count e = 1) ∧ (begun d tr = [] ↔ ∃ event, error = persistenceFailed event)

/-- **A dispatch over any ports.** In every run of the adapter over a bus that may
refuse any publish and a store that may fail any append, before or after it has
taken effect, with any number of calls side by side, dropped anywhere:
* when a publish begins, all of its batch is in the log;
* Ok says that the log has each event once and that each publish was answered
  with Ok, in order; an error says at which event the call failed and how, and
  so all that it has done before;
* as long as nobody else has dispatched an event under one of the ids, the batch
  can be tried again, whatever has failed before, and succeeds where the ports
  answer.
The pipeline over memory is such a run, in which every publish is answered with Ok. -/
theorem dispatch_over_any_ports (h : ports.Run State.new tr σ) :
    (∀ pre d event post, tr = pre ++ .publish d event :: post → ∀ τ, ports.Run State.new pre τ →
      ∃ batch, .dispatch d batch ∈ pre ∧ event ∈ batch ∧ ∀ e ∈ batch, e ∈ τ.log) ∧
    (∀ d events result, σ.dispatches.lookup d = some ⟨events, .returned result⟩ → Tells d events tr σ result) ∧
    (∀ d batch, σ.dispatches.lookup d = none → Consistent batch →
      (∀ d' events, .dispatch d' events ∈ tr → ∀ a ∈ events, ∀ b ∈ batch, a.id = b.id → a = b) →
      ∃ σ', ports.Run σ (attempt d batch) σ' ∧ σ'.dispatches.lookup d = some ⟨batch, .returned (.ok ())⟩) ∧
    (∀ storeId queueCapacity memoryTr π, (PipelineAdapter.pipeline storeId queueCapacity).Run
      (PipelineAdapter.State.new storeId queueCapacity) memoryTr π →
      ports.Run State.new (memoryTr.filterMap portsLabel) (portsOf π) ∧
      ∀ d error, .published d (.error error) ∉ memoryTr.filterMap portsLabel) := by
  have hinv := Invariant.run h
  refine ⟨?_, ?_, ?_, ?_⟩
  · intro pre d event post htr τ hpre
    obtain ⟨τ', υ, hpre', hstep, _⟩ := Lts.run_split.mp (htr ▸ h)
    obtain rfl := hpre.det hpre'
    exact logged_of_publish (Invariant.run hpre) hstep
  · intro d events result hcall
    have hprogress := hinv.call hcall
    cases result with
    | ok =>
      have hdone : appended d tr = events := hprogress.1
      obtain ⟨_, hsent, hacks⟩ := hprogress
      refine ⟨?_, hsent, hacks⟩
      intro e he
      exact count_log hinv (hinv.logged (hdone ▸ he))
    | error error => exact ⟨hprogress, fun e he => count_log hinv (hinv.logged he), hprogress.begun_iff⟩
  · intro d batch fresh hconsistent hids
    exact attempt_succeeds fresh (accepts_of_dispatched hinv hids) hconsistent
  · intro storeId queueCapacity memoryTr π hrun
    refine ⟨?_, ?_⟩
    · obtain ⟨_, hports, rfl⟩ := (memoryPorts storeId queueCapacity).run hrun
      exact hports
    · intro d error hmem
      obtain ⟨l, _, hl⟩ := List.mem_filterMap.mp hmem
      cases l with
      | append d event result => cases result <;> simp [portsLabel] at hl
      | _ => simp [portsLabel] at hl

def portsBatch : List Event :=
  [Event.plain ⟨"port", by decide⟩ ⟨"sail.set"⟩, Event.plain ⟨"starboard", by decide⟩ ⟨"sail.struck"⟩]

/-- An attempt whose answer is lost, and one whose second publish is refused. -/
def portsAttempts : List Label :=
  let port := Event.plain ⟨"port", by decide⟩ ⟨"sail.set"⟩
  let starboard := Event.plain ⟨"starboard", by decide⟩ ⟨"sail.struck"⟩
  [.dispatch 1 portsBatch, .append 1 port .lost, .dispatch 2 portsBatch, .append 2 port .done,
    .append 2 starboard .done, .persisted 2, .publish 2 port, .published 2 (.ok ()), .publish 2 starboard,
    .published 2 (.error .invalidQueueCapacity)]

theorem dispatch_over_any_ports_again :
    ∃ σ', ports.Run (ports.after portsAttempts (by decide)) (attempt 3 portsBatch) σ' ∧
      σ'.dispatches.lookup 3 = some ⟨portsBatch, .returned (.ok ())⟩ := by
  refine (dispatch_over_any_ports (ports.run_after portsAttempts (by decide))).2.2.1 3 portsBatch (by decide) ?_ ?_
  · show ∀ a ∈ portsBatch, ∀ b ∈ portsBatch, a.id = b.id → a = b
    decide
  · intro d events hmem
    have hsame : events = portsBatch := by
      simp only [portsAttempts, List.mem_cons, Label.dispatch.injEq, reduceCtorEq, false_or, List.not_mem_nil,
        or_false] at hmem
      rcases hmem with ⟨_, rfl⟩ | ⟨_, rfl⟩ <;> rfl
    subst hsame
    decide

end OrbitRelay.Ports
