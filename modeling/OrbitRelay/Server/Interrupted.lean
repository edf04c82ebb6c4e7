import OrbitRelay.Server.Exclusive

/-
  A shutdown that fails stays unfinished.

  `begin_shutdown` lets a shutdown begin from starting or ready only, and a
  call that the registry fails leaves the lifecycle draining. A further call is
  turned away there, whether the registry would work by then or not, so the
  node stays registered as the failed call has left it.

  A context also hands out its lifecycle and its registry, and whoever holds
  them can stop the one or write the node's entry in the other. The runs here
  are those in which only `shutdown` does.
-/

namespace OrbitRelay.Shutdown

variable {σ σ' τ : State} {l : Label} {tr later : List Label} {node : Node} {c c' : TaskId} {n : Nat}
  {result : Except ServerError Unit} {context : ServerContext}

/-- With the one call over, nothing changes any more. -/
theorem Led.returned_step (h : Led node tr σ c (.returned result) n) (hstep : σ.step l = some σ') :
    Led node (tr ++ [l]) σ' c (.returned result) n ∧ σ'.lifecycle = σ.lifecycle := by
  have hover : ∀ {c' stage}, σ.calls.lookup c' = some stage → (∀ r, stage ≠ .returned r) → False := by
    intro c' stage hc' hwaits
    exact hwaits _ (h.eq_of_waiting hc' hwaits).2
  cases step_effect hstep with
  | registered c' state waiting => exact (hover waiting (by simp)).elim
  | registerFailed c' state error waiting => exact (hover waiting (by simp)).elim
  | unregistered c' waiting => exact (hover waiting (by simp)).elim
  | unregisterFailed c' error waiting => exact (hover waiting (by simp)).elim
  | stopped c' waiting => exact (hover waiting (by simp)).elim
  | stopRejected c' waiting => exact (hover waiting (by simp)).elim
  | _ => exact h.idle_step rfl hstep

theorem Led.returned_run (h : Led node tr σ c (.returned result) n) (hrun : (server context).Run σ later τ) :
    Led node (tr ++ later) τ c (.returned result) n ∧ τ.lifecycle = σ.lifecycle := by
  refine Lts.Run.induct (P := fun later τ => Led node (tr ++ later) τ c (.returned result) n ∧
    τ.lifecycle = σ.lifecycle) ?_ ?_ hrun
  · rw [List.append_nil]
    exact ⟨h, rfl⟩
  · intro later υ l υ' _ ih hstep
    obtain ⟨hled, hsame⟩ := ih.1.returned_step hstep
    rw [← List.append_assoc]
    exact ⟨hled, hsame.trans ih.2⟩

/-- A process that is shutting down, or has, lets no other shutdown begin. -/
theorem beginShutdown_rejected (hstate : σ.lifecycle.state = .draining ∨ σ.lifecycle.state = .stopped)
    (hfresh : σ.calls.lookup c = none) :
    σ.step (.beginShutdown c (.ok ())) = none ∧
    σ.step (.beginShutdown c (.error ⟨σ.lifecycle.state, .draining⟩)) =
      some (σ.setStage c (.returned (.error (.lifecycle ⟨σ.lifecycle.state, .draining⟩)))) := by
  have hbegin : σ.lifecycle.beginShutdown = .error ⟨σ.lifecycle.state, .draining⟩ := by
    apply ServerLifecycle.transition_error_iff.mpr
    rcases hstate with hs | hs <;> simp [hs]
  simp [State.step, hfresh, hbegin]

/-- What is left of a failed call's own changes and of the entry. -/
theorem Led.entry_of_failed (h : Led node tr σ c (.returned result) n) (hfailed : result ≠ .ok ()) :
    n < 3 ∧ σ.lifecycle.state = .draining ∧ ∃ entry, entryAfter node ((plan node).take n) = some entry := by
  have hreached := h.reached
  generalize σ.lifecycle.state = process at hreached
  cases hreached with
  | drainingFailed => exact ⟨by omega, rfl, _, rfl⟩
  | offlineFailed => exact ⟨by omega, rfl, _, rfl⟩
  | unregisterFailed => exact ⟨by omega, rfl, _, rfl⟩
  | stopped => exact absurd rfl hfailed

/-- **A failed shutdown is final.** After a call that returned an error, on a
server that `Bootstrap` built, a further call fails at once with a lifecycle
error and does nothing. If the call failed because of the registry, the process
stays draining, its health stopping and its node registered, as the changes
that succeeded have left it, whatever the registry does from then on, as long as
nobody but `shutdown` changes the lifecycle and the entry of the node. -/
theorem failed_shutdown_is_final {config : ServerConfig} {newId : NodeId} {faults : Option NodeError × Option NodeError}
    {eventStore : MemoryEventStore.State} {eventBus : MemoryEventBus.State} {nodeRegistry : NodeRegistry}
    (hbuilt : Bootstrap.buildWith config newId faults eventStore eventBus nodeRegistry = .ok context)
    (h : (server context).Run (State.new context) tr σ) {error : ServerError}
    (hfailed : σ.calls.lookup c = some (.returned (.error error))) :
    let node := context.localNode
    (∀ c', σ.calls.lookup c' = none →
      σ.step (.beginShutdown c' (.ok ())) = none ∧
      σ.step (.beginShutdown c' (.error ⟨σ.lifecycle.state, .draining⟩)) =
        some (σ.setStage c' (.returned (.error (.lifecycle ⟨σ.lifecycle.state, .draining⟩))))) ∧
    (∀ message, error = .nodeLifecycle message → ∃ n entry, n < 3 ∧
      changes node (work c tr) = (plan node).take n ∧ entryAfter node ((plan node).take n) = some entry ∧
      ∀ later τ, (server context).Run σ later τ →
        τ.lifecycle = .fromState .draining ∧ τ.nodeRegistry.lookup node.id = some entry) := by
  intro node
  obtain ⟨_, hlifecycle, _, hentry, _⟩ := Bootstrap.buildWith_ok hbuilt
  have hinv : ∀ {tr σ}, (server context).Run (State.new context) tr σ → Invariant node tr σ :=
    fun hrun => Invariant.run (by rw [hlifecycle]; rfl) hentry hrun
  rcases (hinv h).course with huntouched | ⟨c₁, stage, n, hled⟩
  · simp [huntouched.uncalled c] at hfailed
  refine ⟨fun c' => beginShutdown_rejected hled.reached.process_eq, ?_⟩
  intro message herror
  subst herror
  -- a call that was turned away has a lifecycle error, so this is the one that led
  by_cases hc : c = c₁
  · subst hc
    obtain rfl := Option.some.inj (hled.call.symm.trans hfailed)
    obtain ⟨hn, hstate, entry, hplan⟩ := hled.entry_of_failed (by simp)
    refine ⟨n, entry, hn, hled.changes_work, hplan, ?_⟩
    intro later τ hlater
    obtain ⟨hled', hsame⟩ := hled.returned_run hlater
    refine ⟨by rw [hsame, ServerLifecycle.eq_fromState hstate], ?_⟩
    rw [(hinv (h.append hlater)).entry, hled'.changes, hplan]
  · obtain ⟨state, hother⟩ := hled.others hfailed hc
    simp at hother

/-- A registry that is away when the node is to be marked draining. -/
def interrupted : List Label :=
  [.beginShutdown 1 (.ok ()), .register 1 .draining (.error (.registryUnavailable "temporarily offline"))]

theorem failed_shutdown_is_final_interrupted :
    ((server memoryServer).after interrupted (by decide)).nodeRegistry.lookup memoryServer.localNode.id =
      some memoryServer.localNode := by
  have hbuilt : Bootstrap.buildWith default default (none, none) (.new default) (.new 64) ∅ = .ok memoryServer := rfl
  have hrun := (server memoryServer).run_after interrupted (by decide)
  have hfailed : ((server memoryServer).after interrupted (by decide)).calls.lookup 1 =
      some (.returned (.error registrationFailed)) := by decide
  obtain ⟨n, entry, _, hchanges, hentry, hlater⟩ := (failed_shutdown_is_final hbuilt hrun hfailed).2 _ rfl
  have hnone : changes memoryServer.localNode (work 1 interrupted) = [] := by decide
  rw [(hlater [] _ (Lts.run_nil.mpr rfl)).2, ← hentry]
  cases n with
  | zero => rfl
  | succ n => simp [hnone, plan] at hchanges

/-- The steps of call `c` in which the registry does not fail. -/
def unfailing (c : TaskId) : Label → Bool
  | .beginShutdown c' _ => c' = c
  | .register c' _ (.ok ()) => c' = c
  | .unregister c' (.ok ()) => c' = c
  | .stop c' _ => c' = c
  | _ => false

/-- A second call finds the process draining. -/
theorem failed_shutdown_not_completed : ¬ ∀ config newId faults eventStore eventBus nodeRegistry context tr σ c error,
    Bootstrap.buildWith config newId faults eventStore eventBus nodeRegistry = .ok context →
    (server context).Run (State.new context) tr σ → σ.calls.lookup c = some (.returned (.error error)) →
    ∀ c' later τ result, σ.calls.lookup c' = none → (server context).Run σ later τ →
      (∀ l ∈ later, unfailing c' l = true) → τ.calls.lookup c' = some (.returned result) →
      result = .ok () ∧ τ.lifecycle = .fromState .stopped ∧ τ.nodeRegistry.lookup context.localNode.id = none := by
  intro hall
  have hbuilt : Bootstrap.buildWith default default (none, none) (.new default) (.new 64) ∅ = .ok memoryServer := rfl
  have hrun := (server memoryServer).run_after interrupted (by decide)
  have hfailed : ((server memoryServer).after interrupted (by decide)).calls.lookup 1 =
      some (.returned (.error registrationFailed)) := by decide
  have hagain : (server memoryServer).Run ((server memoryServer).after interrupted (by decide))
      [.beginShutdown 2 (.error ⟨.draining, .draining⟩)]
      ((server memoryServer).after (interrupted ++ [.beginShutdown 2 (.error ⟨.draining, .draining⟩)]) (by decide)) := by
    obtain ⟨σ, hσ, hstep⟩ := Lts.run_append.mp ((server memoryServer).run_after
      (interrupted ++ [.beginShutdown 2 (.error ⟨.draining, .draining⟩)]) (by decide))
    rwa [hrun.det hσ]
  have hresult := (hall _ _ _ _ _ _ _ _ _ 1 _ hbuilt hrun hfailed 2 _ _ (.error (.lifecycle ⟨.draining, .draining⟩))
    (by decide) hagain (by decide) (by decide)).1
  simp at hresult

end OrbitRelay.Shutdown
