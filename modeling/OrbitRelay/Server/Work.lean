import OrbitRelay.Server.Retry
import OrbitRelay.Sync.Work

/-
  The work of the dispatches.

  A dispatch appends, publishes and returns; what it waits for is its own
  publish, which in turn waits for no subscriber. An event costs one append, one
  start and one end of its publish, and two steps for every entry of the map
  with two to end with, so `batchSteps` bounds what a batch can ask for, however
  the calls run into each other.
-/

namespace OrbitRelay.PipelineAdapter

/-- The call that takes a step, itself or in its publish. -/
def worker : Label → Option TaskId
  | .append d _ _ => some d
  | .appendFailed d _ _ => some d
  | .persisted d => some d
  | .publish d _ => some d
  | .published d => some d
  | .returned d => some d
  | .bus l => MemoryEventBus.worker l
  | _ => none

def isWork (l : Label) : Bool := (worker l).isSome

/-- The subscriptions made in a trace. -/
def subscribes (tr : List Label) : Nat := (busTrace tr).countP MemoryEventBus.isSubscribe

/-- The steps to publish events, while the map has at most `n` entries. -/
def publishSteps (n : Nat) (events : List Event) : Nat := events.length * (2 * n + 4)

/-- The steps of a whole batch. -/
def batchSteps (n : Nat) (events : List Event) : Nat := events.length + publishSteps n events + 2

/-- The steps a call has left, beside those of a publish in progress. -/
def Dispatch.stepsLeft (n : Nat) (call : Dispatch) : Nat :=
  match call.stage with
  | .appending rest => rest.length + publishSteps n call.events + 2
  | .publishing rest => publishSteps n rest + 1
  | .inFlight _ rest => publishSteps n rest + 2
  | .returned _ => 0

/-- The steps all calls have left. -/
def stepsLeft (n : Nat) (σ : State) : Nat :=
  σ.dispatches.total (Dispatch.stepsLeft n) + MemoryEventBus.stepsLeft σ.bus

/-- What a step brings in. -/
def stepsBegun (n : Nat) : Label → Nat
  | .dispatch _ events => batchSteps n events
  | _ => 0

variable {storeId : EntityId} {queueCapacity n : Nat} {σ τ : State} {l : Label} {tr : List Label}
  {d : TaskId} {call : Dispatch} {event : Event} {stage : Stage}

theorem publishSteps_cons (n : Nat) (event : Event) (rest : List Event) :
    publishSteps n (event :: rest) = publishSteps n rest + (2 * n + 4) := by
  simp [publishSteps, Nat.add_mul]

/-! ## The budget -/

/-- The pipeline while the map of its bus has at most `n` entries. -/
structure Within (n : Nat) (σ : State) : Prop where
  reached : ∃ tr, Invariant tr σ
  entries : σ.bus.subscribers.keys.length ≤ n

/-- The bus has what its label says, and no publish but those of calls. -/
theorem subscribers_length_step (hstep : σ.step l = some τ) :
    τ.bus.subscribers.keys.length ≤ σ.bus.subscribers.keys.length + subscribes [l] := by
  have hone : (pipeline default 0).Run σ [l] τ := Lts.Run.single hstep
  exact MemoryEventBus.subscribers_length_run (bus_run hone)

/-- A call moves on to a stage with less to do. -/
theorem stepsLeft_setStage (running : σ.dispatches.lookup d = some call)
    (hcalls : τ.dispatches = σ.dispatches.insert d { call with stage })
    (hless : { call with stage }.stepsLeft n + MemoryEventBus.stepsLeft τ.bus + 1 ≤
      call.stepsLeft n + MemoryEventBus.stepsLeft σ.bus) : stepsLeft n τ + 1 ≤ stepsLeft n σ := by
  have htotal := Table.total_update (f := Dispatch.stepsLeft n) { call with stage } running
  rw [stepsLeft, stepsLeft, hcalls]
  omega

/-- A step of a call, or of its publish, is one fewer to take. -/
theorem stepsLeft_work (hn : σ.bus.subscribers.keys.length ≤ n) (hstep : σ.step l = some τ)
    (hl : isWork l = true) : stepsLeft n τ + 1 ≤ stepsLeft n σ := by
  cases step_effect hstep with
  | appended d event rest call r running stage =>
    apply stepsLeft_setStage running rfl
    simp only [Dispatch.stepsLeft, stage, List.length_cons, State.setStage]
    omega
  | refused d event rest call error running stage =>
    apply stepsLeft_setStage running rfl
    simp only [Dispatch.stepsLeft, stage, List.length_cons, State.setStage]
    omega
  | appendFailed d event rest call error running stage =>
    apply stepsLeft_setStage running rfl
    simp only [Dispatch.stepsLeft, stage, List.length_cons, State.setStage]
    omega
  | persisted d call running stage =>
    apply stepsLeft_setStage running rfl
    simp only [Dispatch.stepsLeft, stage, List.length_nil, State.setStage]
    omega
  | publish d event rest call bus running stage begun =>
    have hbus := MemoryEventBus.stepsLeft_client begun hn rfl
    simp only [MemoryEventBus.stepsBegun, MemoryEventBus.isPublish, if_true] at hbus
    apply stepsLeft_setStage running rfl
    simp only [Dispatch.stepsLeft, stage, publishSteps_cons]
    omega
  | published d event rest call running stage =>
    apply stepsLeft_setStage running rfl
    simp only [Dispatch.stepsLeft, stage, State.setStage]
    omega
  | returned d call running stage =>
    apply stepsLeft_setStage running rfl
    simp only [Dispatch.stepsLeft, stage, State.setStage]
    omega
  | bus k bus foreign stepped =>
    have hbus := MemoryEventBus.stepsLeft_work stepped hl
    simp only [stepsLeft]
    omega
  | _ => simp [isWork, worker] at hl

/-- Only a new call brings work in. -/
theorem stepsLeft_client (hn : σ.bus.subscribers.keys.length ≤ n) (hstep : σ.step l = some τ)
    (hl : isWork l = false) : stepsLeft n τ ≤ stepsLeft n σ + stepsBegun n l := by
  cases step_effect hstep with
  | dispatch d events fresh =>
    have htotal := Table.total_insert_new (f := Dispatch.stepsLeft n) (v := ⟨events, .appending events⟩) fresh
    simp only [stepsLeft, stepsBegun, batchSteps]
    simp only [Dispatch.stepsLeft] at htotal ⊢
    omega
  | bus k bus foreign stepped =>
    have hbus := MemoryEventBus.stepsLeft_client stepped hn hl
    have hnone : MemoryEventBus.stepsBegun n k = 0 := by
      cases k <;> first | rfl | simp [isForeign] at foreign
    simp only [stepsLeft]
    omega
  | get => exact Nat.le_add_right _ _
  | query => exact Nat.le_add_right _ _
  | appended => simp [isWork, worker] at hl
  | refused => simp [isWork, worker] at hl
  | appendFailed => simp [isWork, worker] at hl
  | persisted => simp [isWork, worker] at hl
  | publish => simp [isWork, worker] at hl
  | published => simp [isWork, worker] at hl
  | returned => simp [isWork, worker] at hl

theorem budget (storeId : EntityId) (queueCapacity n : Nat) :
    (pipeline storeId queueCapacity).Budget (Within n) isWork (stepsBegun n) (stepsLeft n) where
  pays h hstep hl := Nat.le_trans (stepsLeft_work h.entries hstep hl) (Nat.le_add_right _ _)
  keeps h hstep hl := stepsLeft_client h.entries hstep hl

/-- Work subscribes no one. -/
theorem subscribes_of_work (hl : isWork l = true) : subscribes [l] = 0 := by
  cases l with
  | bus k => cases k <;> first | rfl | simp [isWork, worker, MemoryEventBus.worker] at hl
  | _ => rfl

theorem Within.work (h : Within n σ) (hstep : σ.step l = some τ) (hl : isWork l = true) : Within n τ where
  reached := by
    obtain ⟨tr, hinv⟩ := h.reached
    exact ⟨_, hinv.step hstep⟩
  entries := by
    have hone := subscribers_length_step hstep
    rw [subscribes_of_work hl] at hone
    exact Nat.le_trans hone h.entries

/-! ## A call can go on -/

/-- A call that has not returned has a step to take, itself or in its publish,
unless the publish has only closed entries to remove and another one scans. -/
theorem next_of_call (h : Invariant tr σ) (hcall : σ.dispatches.lookup d = some call)
    (hbusy : ∀ result, call.stage ≠ .returned result)
    (hfree : ∀ pub, σ.bus.publishes.lookup d = some pub → pub.stage ≠ .cleaning ∨ σ.bus.readLocked = false) :
    ∃ l, worker l = some d ∧ (σ.step l).isSome := by
  cases hstage : call.stage with
  | appending rest =>
    cases rest with
    | nil => exact ⟨.persisted d, rfl, by simp [State.step, hcall, hstage]⟩
    | cons event rest =>
      refine ⟨.append d event (σ.store.append event).1, rfl, ?_⟩
      cases hanswer : (σ.store.append event).1 <;> simp [State.step, hcall, hstage, hanswer]
  | publishing rest =>
    cases rest with
    | nil => exact ⟨.returned d, rfl, by simp [State.step, hcall, hstage]⟩
    | cons event rest =>
      refine ⟨.publish d event, rfl, ?_⟩
      -- the bus lives, and has no publish of this call
      have hidle : σ.bus.publishes.lookup d = none := by
        rw [Option.eq_none_iff_forall_ne_some]
        intro pub hpub
        exact h.not_publishing hcall (by simp [hstage]) hpub rfl
      simp [State.step, hcall, hstage, MemoryEventBus.State.step, MemoryEventBus.State.publish, h.alive, hidle]
  | inFlight event rest =>
    cases hpub : σ.bus.publishes.lookup d with
    | none => exact ⟨.published d, rfl, by simp [State.step, hcall, hstage, hpub]⟩
    | some pub =>
      obtain ⟨k, hworker, hstep⟩ := MemoryEventBus.next_of_free h.bus hpub (hfree pub hpub)
      have hforeign : isForeign k = true := by
        cases k <;> first | rfl | simp [MemoryEventBus.worker] at hworker
      exact ⟨.bus k, hworker, by simp [State.step, hforeign, hstep]⟩
  | returned result => exact absurd hstage (hbusy result)

/-- Every call has returned. -/
def AllReturned (σ : State) : Prop :=
  ∀ d call, σ.dispatches.lookup d = some call → ∃ result, call.stage = .returned result

/-- While a call has not returned, some call has a step to take. -/
theorem next_of_busy (h : Invariant tr σ) (hbusy : ¬AllReturned σ) : ∃ l, isWork l = true ∧ (σ.step l).isSome := by
  by_cases hpublishing : σ.bus.publishes = ∅
  · simp only [AllReturned, not_forall, not_exists] at hbusy
    obtain ⟨d, call, hcall, hstage⟩ := hbusy
    have hfree : ∀ pub, σ.bus.publishes.lookup d = some pub →
        pub.stage ≠ .cleaning ∨ σ.bus.readLocked = false := by
      simp [hpublishing]
    obtain ⟨l, hworker, hstep⟩ := next_of_call h hcall hstage hfree
    exact ⟨l, by simp [isWork, hworker], hstep⟩
  · obtain ⟨k, hwork, hstep⟩ := MemoryEventBus.next_of_publishing h.bus hpublishing
    have hforeign : isForeign k = true := by
      cases k <;> first | rfl | simp [MemoryEventBus.isWork, MemoryEventBus.worker] at hwork
    exact ⟨.bus k, hwork, by simp [State.step, hforeign, hstep]⟩

/-- The batches dispatched in a trace. -/
def batches (tr : List Label) : List (List Event) :=
  tr.filterMap fun
    | .dispatch _ events => some events
    | _ => none

theorem sum_stepsBegun (n : Nat) : ∀ tr : List Label,
    (tr.map (stepsBegun n)).sum = ((batches tr).map (batchSteps n)).sum
  | [] => rfl
  | l :: tr => by
    rw [List.map_cons, List.sum_cons, sum_stepsBegun n tr]
    cases l <;> simp [batches, stepsBegun]

/-- **Every dispatch can return.** In every run all calls together take at most
`batchSteps` steps for each batch dispatched, whatever the subscribers do and
however the calls overlap. A call that has not returned can take its next step,
unless its publish has only closed entries to remove and another one scans. From
every reachable state the calls alone can go on until all of them have returned. -/
theorem dispatches_return (h : (pipeline storeId queueCapacity).Run (State.new storeId queueCapacity) tr σ) :
    tr.countP isWork ≤ ((batches tr).map (batchSteps (subscribes tr))).sum ∧
    (∀ d call, σ.dispatches.lookup d = some call → (∀ result, call.stage ≠ .returned result) →
      (∀ pub, σ.bus.publishes.lookup d = some pub → pub.stage ≠ .cleaning ∨ σ.bus.readLocked = false) →
      ∃ l, worker l = some d ∧ (σ.step l).isSome) ∧
    ∃ tr' τ, (pipeline storeId queueCapacity).Run σ tr' τ ∧ (∀ l ∈ tr', isWork l = true) ∧
      ∀ d events, .dispatch d events ∈ tr → ∃ result, τ.dispatches.lookup d = some ⟨events, .returned result⟩ := by
  have hinv := Invariant.run h
  refine ⟨?_, fun d call => next_of_call hinv, ?_⟩
  · have hwork := (budget storeId queueCapacity (subscribes tr)).run h ?_
    · rw [sum_stepsBegun] at hwork
      have hnone : stepsLeft (subscribes tr) (State.new storeId queueCapacity) = 0 := rfl
      omega
    · intro pre post υ hsplit hpre
      refine ⟨⟨pre, Invariant.run hpre⟩, ?_⟩
      have hlength := MemoryEventBus.subscribers_length_run (bus_run hpre)
      have hnone : (State.new storeId queueCapacity).bus.subscribers.keys.length = 0 := rfl
      rw [subscribes, hsplit, busTrace_append, List.countP_append]
      omega
  · have hfinish := (budget storeId queueCapacity σ.bus.subscribers.keys.length).finish AllReturned
      Within.work ?_ ⟨⟨tr, hinv⟩, Nat.le_refl _⟩
    · obtain ⟨tr', τ, hrun, hwork, hall⟩ := hfinish
      refine ⟨tr', τ, hrun, hwork, ?_⟩
      intro d events hd
      obtain ⟨call, hcall, hevents⟩ := call_of_dispatch (h.append hrun) (List.mem_append_left tr' hd)
      obtain ⟨result, hstage⟩ := hall d call hcall
      exact ⟨result, by rw [hcall, ← hevents, ← hstage]⟩
    · intro υ hwithin hbusy
      obtain ⟨_, hυ⟩ := hwithin.reached
      obtain ⟨l, hl, hstep⟩ := next_of_busy hυ hbusy
      obtain ⟨υ', hstep⟩ := Option.isSome_iff_exists.mp hstep
      refine ⟨l, υ', hl, ?_, hstep⟩
      cases l <;> first | rfl | simp [isWork, worker] at hl

/-- A dispatch in the middle of its second publish, which has found the queue of
a subscriber full. -/
def outpaced : List Label :=
  let fast := Event.plain ⟨"fast", by decide⟩ ⟨"canvas.drawn"⟩
  let faster := Event.plain ⟨"faster", by decide⟩ ⟨"canvas.drawn"⟩
  [.bus (.subscribe default .all), .dispatch 1 [fast, faster],
    .append 1 fast (.ok ⟨.forMemory default 1, fast⟩), .append 1 faster (.ok ⟨.forMemory default 2, faster⟩),
    .persisted 1, .publish 1 fast, .bus (.send 1 default fast .sent), .bus (.endScan 1), .published 1,
    .publish 1 faster, .bus (.send 1 default faster .full)]

theorem dispatches_return_outpaced :
    outpaced.countP isWork ≤ ((batches outpaced).map (batchSteps (subscribes outpaced))).sum ∧
    ∃ tr τ, (pipeline default 1).Run ((pipeline default 1).after outpaced (by decide)) tr τ ∧
      ∃ call, τ.dispatches.lookup 1 = some call ∧ ∃ result, call.stage = .returned result := by
  obtain ⟨hbound, _, tr, τ, hrun, _, hall⟩ :=
    dispatches_return ((pipeline default 1).run_after outpaced (by decide))
  obtain ⟨result, hcall⟩ := hall 1 _ (by
    simp only [outpaced, List.mem_cons]
    exact .inr (.inl rfl))
  exact ⟨hbound, tr, τ, hrun, _, hcall, result, rfl⟩

end OrbitRelay.PipelineAdapter
