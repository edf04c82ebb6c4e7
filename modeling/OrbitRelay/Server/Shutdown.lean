import OrbitRelay.Lib.Lts
import OrbitRelay.Server.Bootstrap

/-
  Shutting a server down (orbitrelay-server: context.rs).

  A call of `shutdown` is five effects on two things: the lifecycle, changed
  under its lock, and the registry, which may fail and then changes nothing.
  Calls on a context and its clones run side by side, and so do the other nodes
  that use the registry, each under its own id. A call that is dropped is one
  that takes no more steps.

  Correspondence (Rust ↔ Lean):
    `lifecycle.begin_shutdown()?`            ↔ `beginShutdown`
    `register_node_state(Draining | Offline)` ↔ `register`
    `node_registry.unregister(..)`           ↔ `unregister`
    `lifecycle.stop()?`                      ↔ `stop`
-/

namespace OrbitRelay.Shutdown

/-- Where a call of `shutdown` stands. -/
inductive Stage where
  | registering (state : NodeState)
  | unregistering
  | stopping
  | returned (result : Except ServerError Unit)
  deriving DecidableEq

/-- What the calls share, and the calls in progress or over. -/
structure State where
  localNode : Node
  lifecycle : ServerLifecycle
  nodeRegistry : NodeRegistry
  calls : Table TaskId Stage

inductive Label where
  | beginShutdown (c : TaskId) (result : Except LifecycleError Unit)
  | register (c : TaskId) (state : NodeState) (result : Except NodeError Unit)
  | unregister (c : TaskId) (result : Except NodeError Unit)
  | stop (c : TaskId) (result : Except LifecycleError Unit)
  /-- another node registers -/
  | peerRegister (node : Node)
  /-- another node unregisters -/
  | peerUnregister (id : NodeId)
  deriving DecidableEq

/-- What the registry fails with. -/
def fault : Except NodeError Unit → Option NodeError
  | .ok () => none
  | .error error => some error

/-- Where a call goes with a state of the node registered. -/
def afterRegister : NodeState → Stage
  | .draining => .registering .offline
  | _ => .unregistering

namespace State

/-- A context that nobody has shut down. -/
def new (context : ServerContext) : State := ⟨context.localNode, context.lifecycle, context.nodeRegistry, ∅⟩

/-- The state with the call `c` at another stage. -/
def setStage (σ : State) (c : TaskId) (stage : Stage) : State := { σ with calls := σ.calls.insert c stage }

def step (σ : State) : Label → Option State
  | .beginShutdown c result =>
    if σ.calls.lookup c = none then
      match σ.lifecycle.beginShutdown, result with
      | .ok lifecycle, .ok () => some ({ σ with lifecycle }.setStage c (.registering .draining))
      | .error error, .error error' =>
        if error = error' then some (σ.setStage c (.returned (.error (.lifecycle error)))) else none
      | _, _ => none
    else none
  | .register c state result =>
    if σ.calls.lookup c = some (.registering state) then
      match σ.nodeRegistry.register (fault result) { σ.localNode with state }, result with
      | .ok nodeRegistry, .ok () => some ({ σ with nodeRegistry }.setStage c (afterRegister state))
      | .error _, .error _ => some (σ.setStage c (.returned (.error registrationFailed)))
      | _, _ => none
    else none
  | .unregister c result =>
    if σ.calls.lookup c = some .unregistering then
      match σ.nodeRegistry.unregister (fault result) σ.localNode.id, result with
      | .ok nodeRegistry, .ok () => some ({ σ with nodeRegistry }.setStage c .stopping)
      | .error _, .error _ => some (σ.setStage c (.returned (.error unregisterFailed)))
      | _, _ => none
    else none
  | .stop c result =>
    if σ.calls.lookup c = some .stopping then
      match σ.lifecycle.stop, result with
      | .ok lifecycle, .ok () => some ({ σ with lifecycle }.setStage c (.returned (.ok ())))
      | .error error, .error error' =>
        if error = error' then some (σ.setStage c (.returned (.error (.lifecycle error)))) else none
      | _, _ => none
    else none
  | .peerRegister node =>
    if node.id = σ.localNode.id then none
    else match σ.nodeRegistry.register none node with
      | .ok nodeRegistry => some { σ with nodeRegistry }
      | .error _ => none
  | .peerUnregister id =>
    if id = σ.localNode.id then none else some { σ with nodeRegistry := σ.nodeRegistry.erase id }

end State

/-- A context with the callers of its `shutdown`. -/
def server (context : ServerContext) : Lts State Label := ⟨State.new context, State.step⟩

/-! ## What a step does -/

/-- The ways a step can go, each with what it finds and what it leaves. -/
inductive Effect (σ : State) : Label → State → Prop where
  | begun (c : TaskId) (fresh : σ.calls.lookup c = none)
      (running : σ.lifecycle.state = .starting ∨ σ.lifecycle.state = .ready) :
      Effect σ (.beginShutdown c (.ok ()))
        ({ σ with lifecycle := .fromState .draining }.setStage c (.registering .draining))
  | rejected (c : TaskId) (fresh : σ.calls.lookup c = none)
      (ended : σ.lifecycle.state = .draining ∨ σ.lifecycle.state = .stopped) :
      Effect σ (.beginShutdown c (.error ⟨σ.lifecycle.state, .draining⟩))
        (σ.setStage c (.returned (.error (.lifecycle ⟨σ.lifecycle.state, .draining⟩))))
  | registered (c : TaskId) (state : NodeState) (waiting : σ.calls.lookup c = some (.registering state))
      (valid : ({ σ.localNode with state } : Node).validate = .ok ()) :
      Effect σ (.register c state (.ok ()))
        ({ σ with nodeRegistry := σ.nodeRegistry.insert σ.localNode.id { σ.localNode with state } }.setStage c
          (afterRegister state))
  | registerFailed (c : TaskId) (state : NodeState) (error : NodeError)
      (waiting : σ.calls.lookup c = some (.registering state)) :
      Effect σ (.register c state (.error error)) (σ.setStage c (.returned (.error registrationFailed)))
  | unregistered (c : TaskId) (waiting : σ.calls.lookup c = some .unregistering) :
      Effect σ (.unregister c (.ok ()))
        ({ σ with nodeRegistry := σ.nodeRegistry.erase σ.localNode.id }.setStage c .stopping)
  | unregisterFailed (c : TaskId) (error : NodeError) (waiting : σ.calls.lookup c = some .unregistering) :
      Effect σ (.unregister c (.error error)) (σ.setStage c (.returned (.error unregisterFailed)))
  | stopped (c : TaskId) (waiting : σ.calls.lookup c = some .stopping)
      (draining : σ.lifecycle.state = .draining) :
      Effect σ (.stop c (.ok ()))
        ({ σ with lifecycle := .fromState .stopped }.setStage c (.returned (.ok ())))
  | stopRejected (c : TaskId) (waiting : σ.calls.lookup c = some .stopping)
      (other : σ.lifecycle.state ≠ .draining) :
      Effect σ (.stop c (.error ⟨σ.lifecycle.state, .stopped⟩))
        (σ.setStage c (.returned (.error (.lifecycle ⟨σ.lifecycle.state, .stopped⟩))))
  | peerRegister (node : Node) (other : node.id ≠ σ.localNode.id) (valid : node.validate = .ok ()) :
      Effect σ (.peerRegister node) { σ with nodeRegistry := σ.nodeRegistry.insert node.id node }
  | peerUnregister (id : NodeId) (other : id ≠ σ.localNode.id) :
      Effect σ (.peerUnregister id) { σ with nodeRegistry := σ.nodeRegistry.erase id }

theorem step_effect {σ σ' : State} {l : Label} (h : σ.step l = some σ') : Effect σ l σ' := by
  cases l with
  | beginShutdown c result =>
    simp only [State.step, Option.ite_none_right_eq_some] at h
    obtain ⟨fresh, h⟩ := h
    split at h
    · next lifecycle hbegin =>
      obtain rfl := Option.some.inj h
      obtain ⟨hstate, rfl⟩ := ServerLifecycle.transition_ok_iff.mp hbegin
      exact .begun c fresh (by simpa using hstate)
    · next error error' hbegin =>
      simp only [Option.ite_none_right_eq_some, Option.some.injEq] at h
      obtain ⟨rfl, rfl⟩ := h
      obtain ⟨hstate, rfl⟩ := ServerLifecycle.transition_error_iff.mp hbegin
      refine .rejected c fresh ?_
      cases hs : σ.lifecycle.state <;> simp_all
    · simp at h
  | register c state result =>
    simp only [State.step, Option.ite_none_right_eq_some] at h
    obtain ⟨waiting, h⟩ := h
    split at h
    · next nodeRegistry hregister =>
      obtain rfl := Option.some.inj h
      obtain ⟨_, valid, rfl⟩ := NodeRegistry.register_ok_iff.mp hregister
      exact .registered c state waiting valid
    · obtain rfl := Option.some.inj h
      exact .registerFailed c state _ waiting
    · simp at h
  | unregister c result =>
    simp only [State.step, Option.ite_none_right_eq_some] at h
    obtain ⟨waiting, h⟩ := h
    split at h
    · next nodeRegistry hunregister =>
      obtain rfl := Option.some.inj h
      obtain ⟨_, rfl⟩ := NodeRegistry.unregister_ok_iff.mp hunregister
      exact .unregistered c waiting
    · obtain rfl := Option.some.inj h
      exact .unregisterFailed c _ waiting
    · simp at h
  | stop c result =>
    simp only [State.step, Option.ite_none_right_eq_some] at h
    obtain ⟨waiting, h⟩ := h
    split at h
    · next lifecycle hstop =>
      obtain rfl := Option.some.inj h
      obtain ⟨hstate, rfl⟩ := ServerLifecycle.transition_ok_iff.mp hstop
      exact .stopped c waiting (by simpa using hstate)
    · next error error' hstop =>
      simp only [Option.ite_none_right_eq_some, Option.some.injEq] at h
      obtain ⟨rfl, rfl⟩ := h
      obtain ⟨hstate, rfl⟩ := ServerLifecycle.transition_error_iff.mp hstop
      exact .stopRejected c waiting (by simpa using hstate)
    · simp at h
  | peerRegister node =>
    simp only [State.step, Option.ite_none_left_eq_some] at h
    obtain ⟨other, h⟩ := h
    split at h
    · next nodeRegistry hregister =>
      obtain rfl := Option.some.inj h
      obtain ⟨_, valid, rfl⟩ := NodeRegistry.register_ok_iff.mp hregister
      exact .peerRegister node other valid
    · simp at h
  | peerUnregister id =>
    simp only [State.step, Option.ite_none_left_eq_some, Option.some.injEq] at h
    obtain ⟨other, rfl⟩ := h
    exact .peerUnregister id other

end OrbitRelay.Shutdown
