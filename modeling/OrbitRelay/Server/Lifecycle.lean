import OrbitRelay.Node

/-
  The process lifecycle and its health (orbitrelay-server: lifecycle.rs,
  health.rs, error.rs).

  A lifecycle is a state and the health that goes with it. The source writes
  both in one critical section of the state's lock, so here they change in one
  step and the record carries that they agree.
-/

namespace OrbitRelay

/-- The internal lifecycle state of the server process. -/
inductive LifecycleState where
  | starting
  | ready
  | draining
  | stopped
  deriving DecidableEq

/-- The externally observable health of the server process. -/
inductive HealthState where
  | starting
  | ready
  | degraded
  | stopping
  | stopped
  deriving DecidableEq

/-- An invalid process lifecycle transition. -/
structure LifecycleError where
  «from» : LifecycleState
  «to» : LifecycleState
  deriving DecidableEq

/-- Errors produced while loading, composing, or shutting down the server. -/
inductive ServerError where
  | lifecycle (error : LifecycleError)
  | config (message : String)
  | bootstrap (message : String)
  | nodeLifecycle (message : String)
  | shutdown (message : String)
  deriving DecidableEq

/-- The health of a process in a state. No state is `degraded`. -/
def LifecycleState.health : LifecycleState → HealthState
  | .starting => .starting
  | .ready => .ready
  | .draining => .stopping
  | .stopped => .stopped

/-- A state machine for one server process lifecycle. -/
structure ServerLifecycle where
  state : LifecycleState
  health : HealthState
  agrees : health = state.health
  deriving DecidableEq

namespace ServerLifecycle

/-- The lifecycle in a state, with the health for it. -/
def fromState (state : LifecycleState) : ServerLifecycle := ⟨state, state.health, rfl⟩

/-- A lifecycle in the stopped state. -/
def new : ServerLifecycle := fromState .stopped

def transition (lifecycle : ServerLifecycle) (allowedFrom : List LifecycleState) (target : LifecycleState) :
    Except LifecycleError ServerLifecycle :=
  if lifecycle.state ∈ allowedFrom then .ok (fromState target) else .error ⟨lifecycle.state, target⟩

/-- Transitions a stopped process to starting. -/
def start (lifecycle : ServerLifecycle) : Except LifecycleError ServerLifecycle :=
  lifecycle.transition [.stopped] .starting

/-- Transitions a starting process to ready. -/
def ready (lifecycle : ServerLifecycle) : Except LifecycleError ServerLifecycle :=
  lifecycle.transition [.starting] .ready

/-- Begins graceful shutdown from a starting or ready process. -/
def beginShutdown (lifecycle : ServerLifecycle) : Except LifecycleError ServerLifecycle :=
  lifecycle.transition [.starting, .ready] .draining

/-- Completes graceful shutdown from the draining state. -/
def stop (lifecycle : ServerLifecycle) : Except LifecycleError ServerLifecycle :=
  lifecycle.transition [.draining] .stopped

variable {lifecycle lifecycle' : ServerLifecycle} {allowedFrom : List LifecycleState} {target : LifecycleState}

theorem transition_ok_iff :
    lifecycle.transition allowedFrom target = .ok lifecycle' ↔
      lifecycle.state ∈ allowedFrom ∧ lifecycle' = fromState target := by
  unfold transition
  split <;> simp_all [eq_comm]

theorem transition_error_iff {error : LifecycleError} :
    lifecycle.transition allowedFrom target = .error error ↔
      lifecycle.state ∉ allowedFrom ∧ error = ⟨lifecycle.state, target⟩ := by
  unfold transition
  split <;> simp_all [eq_comm]

/-- A lifecycle is its state. -/
theorem eq_fromState (h : lifecycle.state = target) : lifecycle = fromState target := by
  obtain ⟨state, health, agrees⟩ := lifecycle
  subst h
  subst agrees
  rfl

end ServerLifecycle

end OrbitRelay
