import OrbitRelay.Runtime.ExactlyOnce
import OrbitRelay.Server.Exclusive

/-
  What a shutdown drains.

  A server process is a runtime and the shutdown of its context, and neither
  looks at the other: `execute` does not read the lifecycle, and `shutdown` does
  not wait for a call. So it is left to the callers that a shutdown drains. If
  they start no call once the process has left ready, and none is in progress
  when `stop` is called, then nothing is stored or published after the end.
-/

namespace OrbitRelay.Process

abbrev State := Runtime.State × Shutdown.State

abbrev Label := Runtime.Label ⊕ Shutdown.Label

/-- The process of a context: its runtime and the callers of its `shutdown`. -/
def process (storeId : EntityId) (queueCapacity : Nat) (context : ServerContext) : Lts State Label :=
  Lts.interleave (Runtime.runtime storeId queueCapacity) (Shutdown.server context)

/-- A context as it was built. -/
def State.new (context : ServerContext) : State := (context.runtime, Shutdown.State.new context)

/-- The call of `execute` for which a step stores an event, or hands one to the
bus or to a subscriber. -/
def output : Runtime.Label → Option TaskId
  | .pipeline (.append x _ (.ok _)) => some x
  | .pipeline (.publish x _) => some x
  | .pipeline (.bus (.send x _ _ _)) => some x
  | _ => none

/-- The shutdowns of the trace drain: no call started after the beginning of one
puts anything out, and after the end of one no call does. -/
structure Drains (tr : List Label) : Prop where
  late : ∀ {pre c mid x action post},
    tr = pre ++ .inr (.beginShutdown c (.ok ())) :: (mid ++ .inl (.execute x action) :: post) →
      ∀ l, .inl l ∈ tr → output l ≠ some x
  ended : ∀ {pre c post}, tr = pre ++ .inr (.stop c (.ok ())) :: post → ∀ l, .inl l ∈ post → output l = none

/-- The call has returned. -/
def isOver : Runtime.Stage → Bool
  | .returned _ => true
  | _ => false

theorem isOver_iff {stage : Runtime.Stage} : isOver stage = true ↔ ∃ result, stage = .returned result := by
  cases stage <;> simp [isOver]

/-- No call of `execute` is in progress. -/
def Idle (ρ : Runtime.State) : Prop := ∀ x e, ρ.executions.lookup x = some e → isOver e.stage = true

instance (ρ : Runtime.State) : Decidable (Idle ρ) :=
  decidable_of_iff (∀ y ∈ ρ.executions.entries, isOver y.2.stage = true) <| by
    constructor
    · intro h x e he
      exact h _ (Table.mem_entries_iff.mpr he)
    · intro h y hy
      exact h y.1 y.2 (Table.mem_entries_iff.mp hy)

/-- What the callers have to see to: they start no call in a process that is not
ready, and let none be in progress when a shutdown comes to its `stop`. -/
def Gated (σ : State) : Label → Prop
  | .inl (.execute _ _) => σ.2.lifecycle.state = .ready
  | .inr (.stop _ _) => Idle σ.1
  | _ => True

instance (σ : State) (l : Label) : Decidable (Gated σ l) := by
  unfold Gated
  split <;> infer_instance

variable {storeId : EntityId} {queueCapacity : Nat} {context : ServerContext} {σ σ' : State} {tr : List Label}
  {ρ ρ' : Runtime.State} {x : TaskId}

/-! ## The lifecycle -/

/-- The process is shutting down or has. -/
def Closing (σ : Shutdown.State) : Prop := σ.lifecycle.state = .draining ∨ σ.lifecycle.state = .stopped

theorem Closing.step {τ τ' : Shutdown.State} {l : Shutdown.Label} (h : Closing τ) (hstep : τ.step l = some τ') :
    Closing τ' := by
  cases Shutdown.step_effect hstep with
  | begun => exact .inl rfl
  | stopped => exact .inr rfl
  | _ => exact h

/-! ## Idle runtimes -/

/-- An idle runtime stays idle until a call is started. -/
theorem Idle.step {l : Runtime.Label} (h : Idle ρ) (hl : ∀ x action, l ≠ .execute x action)
    (hstep : ρ.step l = some ρ') : Idle ρ' := by
  have hover : ∀ {x e stage}, ρ.executions.lookup x = some e → e.stage = stage → isOver stage = false → False := by
    intro x e stage he hstage hnot
    have hreturned := h x e he
    rw [hstage, hnot] at hreturned
    simp at hreturned
  cases Runtime.step_effect hstep with
  | execute x action => exact absurd rfl (hl x action)
  | lookup x e running stage => exact (hover running stage rfl).elim
  | validated x handler result e running stage => exact (hover running stage rfl).elim
  | authorized x handler result e running stage => exact (hover running stage rfl).elim
  | handled x handler result e running stage => exact (hover running stage rfl).elim
  | dispatch x stamps e drafts pipeline running stage => exact (hover running stage rfl).elim
  | returned x e events call outcome running stage => exact (hover running stage rfl).elim
  | _ => exact h

/-- An idle runtime puts nothing out. -/
theorem Idle.output_eq_none {rtr : List Runtime.Label} {l : Runtime.Label} (h : Idle ρ)
    (hrun : (Runtime.runtime storeId queueCapacity).Run (Runtime.State.new storeId queueCapacity) rtr ρ)
    (hstep : ρ.step l = some ρ') : output l = none := by
  -- the dispatch of a call that is over is over too
  have hover : ∀ {x call stage}, ρ.pipeline.dispatches.lookup x = some call → call.stage = stage →
      (∀ r, stage ≠ .returned r) → False := by
    intro x call stage hcall heq hne
    obtain ⟨e, he, hended⟩ := Runtime.execution_of_call hrun hcall
    obtain ⟨result, hstage⟩ := isOver_iff.mp (h x e he)
    obtain ⟨outcome, houtcome⟩ := hended result hstage
    exact hne outcome (heq.symm.trans houtcome)
  cases Runtime.step_effect hstep with
  | pipeline k pipeline foreign stepped =>
    cases PipelineAdapter.step_effect stepped with
    | appended d event rest call r running stage => exact (hover running stage (by simp)).elim
    | publish d event rest call bus running stage => exact (hover running stage (by simp)).elim
    | bus k bus foreign taken =>
      cases MemoryEventBus.step_effect taken with
      | send p s result pub entry m channel running =>
        obtain ⟨call, rest, hcall, hstage⟩ :=
          (PipelineAdapter.Invariant.run (Runtime.pipeline_run hrun)).publishing running
        exact (hover hcall hstage (by simp)).elim
      | _ => rfl
    | _ => rfl
  | _ => rfl

/-! ## The process -/

theorem step_left {l : Runtime.Label} (h : (process storeId queueCapacity context).step σ (.inl l) = some σ') :
    ∃ ρ, σ.1.step l = some ρ ∧ σ' = (ρ, σ.2) := by
  obtain ⟨ρ, hρ, rfl⟩ := Option.map_eq_some_iff.mp h
  exact ⟨ρ, hρ, rfl⟩

theorem step_right {k : Shutdown.Label} (h : (process storeId queueCapacity context).step σ (.inr k) = some σ') :
    ∃ τ, σ.2.step k = some τ ∧ σ' = (σ.1, τ) := by
  obtain ⟨τ, hτ, rfl⟩ := Option.map_eq_some_iff.mp h
  exact ⟨τ, hτ, rfl⟩

/-- The two halves of a run of the process. -/
theorem halves (h : (process storeId queueCapacity context).Run σ tr σ') :
    (Runtime.runtime storeId queueCapacity).Run σ.1 (tr.filterMap Sum.getLeft?) σ'.1 ∧
      (Shutdown.server context).Run σ.2 (tr.filterMap Sum.getRight?) σ'.2 :=
  Lts.interleave_run h

/-- Once it has begun to shut down, the process goes on doing so. -/
theorem closing_run (h : (process storeId queueCapacity context).Run σ tr σ') (hclosing : Closing σ.2) :
    Closing σ'.2 :=
  (halves h).2.invariant (fun _ _ _ => Closing.step) hclosing

/-- The start of a call waits for a process that is ready. -/
theorem Gated.not_closing {action : Action} (h : Gated σ (.inl (.execute x action))) : ¬Closing σ.2 := by
  intro hclosing
  have hready : σ.2.lifecycle.state = .ready := h
  rcases hclosing with hs | hs <;> simp [hs] at hready

/-- A closing process whose runtime is idle stays so, if its callers see to it. -/
theorem idle_run (h : (process storeId queueCapacity context).Run σ tr σ')
    (hgated : (process storeId queueCapacity context).Meets Gated σ tr) (hclosing : Closing σ.2) (hidle : Idle σ.1) :
    Closing σ'.2 ∧ Idle σ'.1 := by
  refine h.invariant_meets (I := fun σ => Closing σ.2 ∧ Idle σ.1) ?_ hgated ⟨hclosing, hidle⟩
  intro τ l υ hτ hgate hstep
  refine ⟨closing_run (Lts.Run.single hstep) hτ.1, ?_⟩
  cases l with
  | inl l =>
    obtain ⟨ρ, hρ, rfl⟩ := step_left hstep
    apply hτ.2.step _ hρ
    intro x action hl
    subst hl
    exact hgate.not_closing hτ.1
  | inr k =>
    obtain ⟨τ', _, rfl⟩ := step_right hstep
    exact hτ.2

/-- **Shutdown drains if its callers do.** In every run of a process that
`Bootstrap` built whose callers start no call once it has left ready, and have
none in progress when they come to `stop`, a shutdown drains. The code sees to
neither: whatever the lifecycle, a run of the runtime is one of the process. -/
theorem shutdown_drains {config : ServerConfig} {newId : NodeId} {faults : Option NodeError × Option NodeError}
    {nodeRegistry : NodeRegistry}
    (hbuilt : Bootstrap.buildWith config newId faults (.new storeId) (.new queueCapacity) nodeRegistry = .ok context)
    (h : (process storeId queueCapacity context).Run (State.new context) tr σ) :
    ((process storeId queueCapacity context).Meets Gated (State.new context) tr → Drains tr) ∧
    ∀ rtr ρ, (Runtime.runtime storeId queueCapacity).Run σ.1 rtr ρ →
      (process storeId queueCapacity context).Run σ (rtr.map .inl) (ρ, σ.2) := by
  obtain ⟨_, _, hruntime, _⟩ := Bootstrap.buildWith_ok hbuilt
  refine ⟨?_, fun rtr ρ hrun => hrun.interleave_left⟩
  intro hgated
  have hsplit : ∀ {pre l post}, tr = pre ++ l :: post → ∃ τ υ,
      (process storeId queueCapacity context).Run (State.new context) pre τ ∧
      (process storeId queueCapacity context).step τ l = some υ ∧
      (process storeId queueCapacity context).Run υ post σ ∧ Gated τ l ∧
      (process storeId queueCapacity context).Meets Gated υ post := by
    intro pre l post htr
    subst htr
    obtain ⟨τ, υ, hpre, hstep, hpost⟩ := Lts.run_split.mp h
    obtain ⟨_, hgate, hrest⟩ := (Lts.meets_append hpre).mp hgated
    exact ⟨τ, υ, hpre, hstep, hpost, hgate, hrest υ hstep⟩
  refine ⟨?_, ?_⟩
  · intro pre c mid x action post htr
    exfalso
    obtain ⟨τ, υ, _, hstep, hpost, _, hrest⟩ := hsplit htr
    have hclosing : Closing υ.2 := by
      obtain ⟨τ', hτ', rfl⟩ := step_right hstep
      cases Shutdown.step_effect hτ' with
      | begun => exact .inl rfl
    -- so the process is not ready when the call is started
    obtain ⟨υ', hmid, hlater⟩ := Lts.run_append.mp hpost
    have hgate := ((Lts.meets_append hmid).mp hrest).2.1
    exact hgate.not_closing (closing_run hmid hclosing)
  · intro pre c post htr l hl
    obtain ⟨τ, υ, hpre, hstep, hpost, hgate, hrest⟩ := hsplit htr
    obtain ⟨hclosing, hidle⟩ : Closing υ.2 ∧ Idle υ.1 := by
      obtain ⟨τ', hτ', rfl⟩ := step_right hstep
      refine ⟨?_, hgate⟩
      cases Shutdown.step_effect hτ' with
      | stopped => exact .inr rfl
    -- and the runtime is idle when the step is taken
    obtain ⟨before, after, rfl⟩ := List.append_of_mem hl
    obtain ⟨ω, ω', hbefore, hlast, _⟩ := Lts.run_split.mp hpost
    have hω := idle_run hbefore ((Lts.meets_append hbefore).mp hrest).1 hclosing hidle
    obtain ⟨ρ, hρ, _⟩ := step_left hlast
    have hwhole := (halves (hpre.append (Lts.run_cons.mpr ⟨υ, hstep, hbefore⟩))).1
    have hstart : (State.new context).1 = Runtime.State.new storeId queueCapacity := hruntime
    rw [hstart] at hwhole
    exact hω.2.output_eq_none hwhole hρ

/-- A drawing, and then the end. -/
def drawnBefore : List Label := Runtime.wholeCall.map .inl ++ Shutdown.shutDown.map .inr

/-- The end, and then a drawing. -/
def drawnAfter : List Label := Shutdown.shutDown.map .inr ++ Runtime.wholeCall.map .inl

theorem shutdown_drains_drawing : Drains drawnBefore := by
  have hbuilt : Bootstrap.buildWith default default (none, none) (.new default) (.new 64) ∅ =
    .ok Shutdown.memoryServer := rfl
  have hrun := (process default 64 Shutdown.memoryServer).run_after drawnBefore (by decide)
  exact (shutdown_drains hbuilt hrun).1 (by decide)

/-- A drawing on a server that has been shut down is stored and published all
the same. -/
theorem shutdown_not_drained : ¬ ∀ storeId queueCapacity config newId faults nodeRegistry context tr σ,
    Bootstrap.buildWith config newId faults (.new storeId) (.new queueCapacity) nodeRegistry = .ok context →
    (process storeId queueCapacity context).Run (State.new context) tr σ → Drains tr := by
  intro hall
  have hbuilt : Bootstrap.buildWith default default (none, none) (.new default) (.new 64) ∅ =
    .ok Shutdown.memoryServer := rfl
  have hrun := (process default 64 Shutdown.memoryServer).run_after drawnAfter (by decide)
  have hdrains := hall _ _ _ _ _ _ _ _ _ hbuilt hrun
  have hsplit : drawnAfter = (Shutdown.shutDown.take 6).map .inr ++
      .inr (.stop 1 (.ok ())) :: Runtime.wholeCall.map .inl := rfl
  have hnone := hdrains.ended hsplit (.pipeline (.publish 1 Runtime.drawingEvent)) (by
    simp [Runtime.wholeCall, Runtime.duringCall])
  simp [output] at hnone

end OrbitRelay.Process
