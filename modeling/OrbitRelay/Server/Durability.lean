import OrbitRelay.Server.Progress
import OrbitRelay.Sync.Lag

/-
  Persist before publish.

  A call publishes only after its first loop is over, and by then all of its
  batch is stored; a call that fails to append leaves its first loop for good.
  Since every event that a subscriber sees, or is told it missed, comes from a
  send, and every send from the publish of some call, no subscriber is ever
  ahead of the store.
-/

namespace OrbitRelay.PipelineAdapter

variable {storeId : EntityId} {queueCapacity : Nat} {σ σ' : State} {l : Label} {tr : List Label}
  {d : TaskId} {s : SubscriptionId} {call : Dispatch} {event : Event}

/-- The event is stored, with this content. -/
def Stored (σ : State) (event : Event) : Prop := ∃ r, σ.store.get event.id = some r ∧ r.event = event

theorem mem_busTrace {k : MemoryEventBus.Label} (hk : isForeign k = true) : k ∈ busTrace tr ↔ .bus k ∈ tr := by
  rw [busTrace, List.mem_filterMap]
  constructor
  · intro h
    obtain ⟨l, hl, hlk⟩ := h
    cases l with
    | publish d event =>
      obtain rfl := Option.some.inj hlk
      simp [isForeign] at hk
    | bus k' =>
      obtain rfl := Option.some.inj hlk
      exact hl
    | _ => simp [busLabel] at hlk
  · intro hl
    exact ⟨_, hl, rfl⟩

theorem begun_mono {pre post : List Label} (he : event ∈ begun d pre) : event ∈ begun d (pre ++ post) := by
  rw [begun_append]
  exact List.mem_append_left _ he

/-- What is sent for a call is the last event it has begun to publish. -/
theorem Invariant.begun_last (h : Invariant tr σ) {result : TrySend}
    (hstep : σ.step (.bus (.send d s event result)) = some σ') : (begun d tr).getLast? = some event := by
  cases step_effect hstep with
  | bus k bus foreign stepped =>
    cases MemoryEventBus.step_effect stepped with
    | send p s result pub entry m channel running =>
      obtain ⟨call, rest, hcall, hstage⟩ := h.publishing running
      have hprogress := h.call hcall
      rw [hstage] at hprogress
      exact hprogress.2.2

theorem begun_of_send (h : (pipeline storeId queueCapacity).Run (State.new storeId queueCapacity) tr σ)
    {result : TrySend} (hsend : .bus (.send d s event result) ∈ tr) : event ∈ begun d tr := by
  obtain ⟨pre, post, σ₀, σ₁, rfl, hpre, hstep, _⟩ := h.at_label hsend
  exact begun_mono (List.mem_of_mem_getLast? ((Invariant.run hpre).begun_last hstep))

/-- A call that has returned stays as it is. -/
theorem returned_step (hstep : σ.step l = some σ') (hcall : σ.dispatches.lookup d = some call)
    {result : Except PipelineError Unit} (hstage : call.stage = .returned result) :
    σ'.dispatches.lookup d = some call := by
  -- every other step of a call is of one that has not returned
  have hother : ∀ {d' call' stage' stage₁} {τ : State}, τ.dispatches = σ.dispatches →
      σ.dispatches.lookup d' = some call' → call'.stage = stage₁ → (∀ r, stage₁ ≠ .returned r) →
      (τ.setStage d' call' stage').dispatches.lookup d = some call := by
    intro d' call' stage' stage₁ τ hτ hcall' heq hne
    subst heq
    have hd : d ≠ d' := by
      intro heq
      subst heq
      obtain rfl := Option.some.inj (hcall.symm.trans hcall')
      exact hne _ hstage
    rw [lookup_setStage_ne hd, hτ, hcall]
  cases step_effect hstep with
  | dispatch d' events fresh =>
    have hd : d ≠ d' := by
      intro heq
      subst heq
      simp [fresh] at hcall
    exact (AList.lookup_insert_ne hd).trans hcall
  | appended d' event rest call' r running stage => exact hother rfl running stage (by simp)
  | refused d' event rest call' error running stage => exact hother rfl running stage (by simp)
  | appendFailed d' event rest call' error running stage => exact hother rfl running stage (by simp)
  | persisted d' call' running stage => exact hother rfl running stage (by simp)
  | publish d' event rest call' bus running stage => exact hother rfl running stage (by simp)
  | published d' event rest call' running stage => exact hother rfl running stage (by simp)
  | returned d' call' running stage => exact hother rfl running stage (by simp)
  | _ => exact hcall

theorem returned_run (h : (pipeline storeId queueCapacity).Run σ tr σ')
    (hcall : σ.dispatches.lookup d = some call) {result : Except PipelineError Unit}
    (hstage : call.stage = .returned result) : σ'.dispatches.lookup d = some call :=
  h.invariant (I := fun σ' => σ'.dispatches.lookup d = some call)
    (fun _ _ _ ht hstep => returned_step hstep ht hstage) hcall

/-- The call has returned an error. -/
def Failed (σ : State) (d : TaskId) : Prop :=
  ∃ call error, σ.dispatches.lookup d = some call ∧ call.stage = .returned (.error error)

theorem Failed.step (h : Failed σ d) (hstep : σ.step l = some σ') : Failed σ' d := by
  obtain ⟨call, error, hcall, hstage⟩ := h
  exact ⟨call, error, returned_step hstep hcall hstage, hstage⟩

/-- A failed append, of either kind, fails the call. -/
theorem failed_of_append {error : StorageError}
    (h : (pipeline storeId queueCapacity).Run (State.new storeId queueCapacity) tr σ)
    (hfail : .append d event (.error error) ∈ tr ∨ .appendFailed d event error ∈ tr) : Failed σ d := by
  rcases hfail with hfail | hfail
  · apply h.since (fun _ _ _ => Failed.step) _ hfail
    intro σ σ' (hstep : σ.step (.append d event (.error error)) = some σ')
    cases step_effect hstep with
    | refused d event rest call error running stage => exact ⟨_, _, lookup_setStage, rfl⟩
  · apply h.since (fun _ _ _ => Failed.step) _ hfail
    intro σ σ' (hstep : σ.step (.appendFailed d event error) = some σ')
    cases step_effect hstep with
    | appendFailed d event rest call error running stage => exact ⟨_, _, lookup_setStage, rfl⟩

/-- A call whose append failed has begun to publish nothing. -/
theorem begun_of_failed (h : (pipeline storeId queueCapacity).Run (State.new storeId queueCapacity) tr σ)
    (hfailed : Failed σ d) : begun d tr = [] := by
  obtain ⟨call, error, hcall, hstage⟩ := hfailed
  have hprogress := (Invariant.run h).call hcall
  rw [hstage] at hprogress
  exact hprogress.2

/-- **Persist before publish.** In every reachable state, whatever has been sent
for a call, its whole batch is stored with the content it was dispatched with;
what is queued, returned or counted as missed has been sent; and for a call that
failed to append nothing has been sent. -/
theorem persisted_before_published
    (h : (pipeline storeId queueCapacity).Run (State.new storeId queueCapacity) tr σ) :
    (∀ d s event result, .bus (.send d s event result) ∈ tr →
      ∃ call, σ.dispatches.lookup d = some call ∧ event ∈ call.events ∧ ∀ e ∈ call.events, Stored σ e) ∧
    (∀ s m event, σ.bus.subscriptions.lookup s = some m → event ∈ m.channel.queue →
      ∃ d, .bus (.send d s event .sent) ∈ tr) ∧
    (∀ s event, .bus (.owner s (.received (some event))) ∈ tr → ∃ d, .bus (.send d s event .sent) ∈ tr) ∧
    (∀ d s, .bus (.countMissed d s) ∈ tr → ∃ event, .bus (.send d s event .full) ∈ tr) ∧
    (∀ d event error, .append d event (.error error) ∈ tr ∨ .appendFailed d event error ∈ tr →
      ∀ s event result, .bus (.send d s event result) ∉ tr) := by
  have hinv := Invariant.run h
  have hbus := bus_run h
  refine ⟨?_, ?_, ?_, ?_, ?_⟩
  · intro d s event result hsend
    obtain ⟨call, hcall, he, happended⟩ := hinv.batch_of_begun (begun_of_send h hsend)
    exact ⟨call, hcall, he, fun e hmem => hinv.stored (happended ▸ hmem)⟩
  · intro s m event hm he
    obtain ⟨d, hd⟩ := MemoryEventBus.sent_of_queued hbus hm he
    exact ⟨d, (mem_busTrace rfl).mp hd⟩
  · intro s event he
    obtain ⟨d, hd⟩ := MemoryEventBus.sent_of_received hbus ((mem_busTrace rfl).mpr he)
    exact ⟨d, (mem_busTrace rfl).mp hd⟩
  · intro d s hc
    obtain ⟨event, he⟩ := MemoryEventBus.full_of_counted hbus ((mem_busTrace rfl).mpr hc)
    exact ⟨event, (mem_busTrace rfl).mp he⟩
  -- a send would need a publish begun, and a failed call has begun none
  · intro d event error hfail s event' result hsend
    have hbegun := begun_of_send h hsend
    rw [begun_of_failed h (failed_of_append h hfail)] at hbegun
    simp at hbegun

/-- Two calls with one id, of which the second loses. -/
def conflicting : List Label :=
  let event := Event.plain default ⟨"canvas.drawn"⟩
  let other := Event.plain default ⟨"chat.posted"⟩
  [.bus (.subscribe default .all), .dispatch 1 [event], .dispatch 2 [other],
    .append 1 event (.ok ⟨.forMemory default 1, event⟩), .append 2 other (.error (.eventConflict other.id)),
    .persisted 1, .publish 1 event, .bus (.send 1 default event .sent)]

theorem persisted_before_published_conflict :
    ∃ σ, (pipeline default 1).Run (State.new default 1) conflicting σ ∧
      Stored σ (Event.plain default ⟨"canvas.drawn"⟩) ∧
      .bus (.send 2 default (Event.plain default ⟨"chat.posted"⟩) .sent) ∉ conflicting := by
  have hrun := (pipeline default 1).run_after conflicting (by decide)
  have hdurable := persisted_before_published hrun
  have hsent : .bus (.send 1 default (Event.plain default ⟨"canvas.drawn"⟩) .sent) ∈ conflicting := by
    simp [conflicting]
  have hrefused : .append 2 (Event.plain default ⟨"chat.posted"⟩) (.error (.eventConflict default)) ∈ conflicting := by
    simp only [conflicting, List.mem_cons]
    exact .inr (.inr (.inr (.inr (.inl rfl))))
  obtain ⟨_, _, he, hstored⟩ := hdurable.1 1 default _ .sent hsent
  exact ⟨_, hrun, hstored _ he, hdurable.2.2.2.2 2 _ _ (.inl hrefused) default _ .sent⟩

end OrbitRelay.PipelineAdapter
