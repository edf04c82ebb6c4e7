import OrbitRelay.Server.Capacity
import OrbitRelay.Server.Shutdown

/-
  A server process from its start to its end (orbitrelay-server: main.rs,
  config.rs, context.rs).

  `main` loads the environment, builds the server over memory, waits for the
  signal and shuts the server down. The environment, the ids that are drawn and
  the outcome of the wait are arguments. Nobody else has the context, so the
  shutdown is a call of its own: `shutdown` is the sequence of its effects, and
  `shutdown_alone` says that it is a run of the machine of `shutdown` calls in
  which no other party takes a step.

  Correspondence (Rust ↔ Lean):
    `main`                                ↔ `main`, which returns the context as it is left
    `std::env::var_os(..)`                ↔ `Environment`
    `tokio::signal::ctrl_c().await`       ↔ `signal`
    `ServerContext::register_node_state`  ↔ `ServerContext.registerNodeState`
    `ServerContext::shutdown`             ↔ `ServerContext.shutdown`
-/

namespace OrbitRelay

/-- The two variables of the environment that are read. -/
structure Environment where
  nodeId : Option OsString
  subscriptionQueueCapacity : Option OsString

/-- What each use of the registry fails with, if it does. -/
structure RegistryFaults where
  draining : Option NodeError
  offline : Option NodeError
  unregister : Option NodeError

/-- A registry that does not fail. -/
def RegistryFaults.none : RegistryFaults := ⟨.none, .none, .none⟩

namespace ServerContext

def registerNodeState (context : ServerContext) (state : NodeState) (fault : Option NodeError) :
    Except ServerError ServerContext :=
  match context.nodeRegistry.register fault { context.localNode with state } with
  | .error _ => .error registrationFailed
  | .ok nodeRegistry => .ok { context with nodeRegistry }

/-- Gracefully drains, unregisters, and stops this server context. -/
def shutdown (context : ServerContext) (faults : RegistryFaults) : Except ServerError Unit × ServerContext :=
  match context.lifecycle.beginShutdown with
  | .error error => (.error (.lifecycle error), context)
  | .ok lifecycle =>
    let context := { context with lifecycle }
    match context.registerNodeState .draining faults.draining with
    | .error error => (.error error, context)
    | .ok context =>
      match context.registerNodeState .offline faults.offline with
      | .error error => (.error error, context)
      | .ok context =>
        match context.nodeRegistry.unregister faults.unregister context.localNode.id with
        | .error _ => (.error unregisterFailed, context)
        | .ok nodeRegistry =>
          let context := { context with nodeRegistry }
          match context.lifecycle.stop with
          | .error error => (.error (.lifecycle error), context)
          | .ok lifecycle => (.ok (), { context with lifecycle })

end ServerContext

/-- The process. It returns the context as the shutdown has left it. -/
def main (parseNodeId : String → Option NodeId) (env : Environment) (newId : NodeId) (storeId : EntityId)
    (signal : Except Unit Unit) : Except ServerError ServerContext := do
  let config ← ServerConfig.load parseNodeId env.nodeId env.subscriptionQueueCapacity
  let context ← Bootstrap.build config newId storeId
  signal.mapError fun _ => .shutdown "failed to wait for process shutdown signal"
  let (result, context) := context.shutdown .none
  result
  return context

/-! ## The shutdown -/

namespace Shutdown

variable {context context' context₀ : ServerContext} {c : TaskId} {state : NodeState} {failure : Option NodeError}

/-- The call that takes the step. A peer is none. -/
def Label.caller : Label → Option TaskId
  | .beginShutdown c _ | .register c _ _ | .unregister c _ | .stop c _ => some c
  | .peerRegister _ | .peerUnregister _ => none

/-- A context, with one call of `shutdown` and no other. -/
def alone (context : ServerContext) (c : TaskId) (stage : Stage) : State :=
  ⟨context.localNode, context.lifecycle, context.nodeRegistry, (∅ : Table TaskId Stage).insert c stage⟩

/-- A state of the node that was registered. -/
theorem step_registered (h : context.registerNodeState state failure = .ok context') :
    (server context₀).step (alone context c (.registering state)) (.register c state (.ok ())) =
      some (alone context' c (afterRegister state)) := by
  unfold ServerContext.registerNodeState at h
  split at h
  · simp at h
  · next nodeRegistry hregister =>
    obtain rfl := Except.ok.inj h
    obtain ⟨rfl, _⟩ := NodeRegistry.register_ok_iff.mp hregister
    have hnone : context.nodeRegistry.register (fault (.ok ())) { context.localNode with state } = .ok nodeRegistry :=
      hregister
    simp [server, State.step, alone, State.setStage, AList.insert_insert, hnone, -AList.insert_empty]

/-- One that was not. -/
theorem step_unregistered {error : ServerError} (h : context.registerNodeState state failure = .error error) :
    ∃ l, (server context₀).step (alone context c (.registering state)) l =
      some (alone context c (.returned (.error error))) ∧ l.caller = some c := by
  unfold ServerContext.registerNodeState at h
  split at h
  · next error' hregister =>
    obtain rfl := Except.error.inj h
    have hfails : context.nodeRegistry.register (fault (.error error')) { context.localNode with state } =
        .error error' := rfl
    refine ⟨.register c state (.error error'), ?_, rfl⟩
    simp [server, State.step, alone, State.setStage, AList.insert_insert, hfails, -AList.insert_empty]
  · simp at h

/-- The shutdown by itself is a run of the calls of `shutdown` that no other
party joins. -/
theorem shutdown_alone (context : ServerContext) (faults : RegistryFaults) (c : TaskId) :
    ∃ tr, (server context).Run (State.new context) tr
      (alone (context.shutdown faults).2 c (.returned (context.shutdown faults).1)) ∧
      ∀ l ∈ tr, l.caller = some c := by
  unfold ServerContext.shutdown
  split
  · next error hbegin =>
    refine ⟨[.beginShutdown c (.error error)], Lts.Run.single ?_, by simp [Label.caller]⟩
    simp [server, State.step, State.new, alone, State.setStage, hbegin]
  · next lifecycle hbegin =>
    have h₁ : (server context).Run (State.new context) [.beginShutdown c (.ok ())]
        (alone { context with lifecycle } c (.registering .draining)) :=
      Lts.Run.single (by simp [server, State.step, State.new, alone, State.setStage, hbegin])
    dsimp only
    split
    · next error hdraining =>
      obtain ⟨l, hstep, hcaller⟩ := step_unregistered (c := c) hdraining
      exact ⟨_, h₁.snoc hstep, by simpa [Label.caller] using hcaller⟩
    · next context₁ hdraining =>
      have h₂ := h₁.snoc (step_registered (c := c) hdraining)
      split
      · next error hoffline =>
        obtain ⟨l, hstep, hcaller⟩ := step_unregistered (c := c) hoffline
        exact ⟨_, h₂.snoc hstep, by simpa [Label.caller] using hcaller⟩
      · next context₂ hoffline =>
        have h₃ := h₂.snoc (step_registered (c := c) hoffline)
        split
        · next error hunregister =>
          have hfails : context₂.nodeRegistry.unregister (fault (.error error)) context₂.localNode.id =
              .error error := rfl
          refine ⟨_, h₃.snoc (l := .unregister c (.error error)) ?_, by simp [Label.caller]⟩
          simp [server, State.step, alone, afterRegister, State.setStage, AList.insert_insert, hfails,
            -AList.insert_empty]
        · next nodeRegistry hunregister =>
          obtain ⟨hnone, rfl⟩ := NodeRegistry.unregister_ok_iff.mp hunregister
          have hdone : context₂.nodeRegistry.unregister (fault (.ok ())) context₂.localNode.id =
              .ok (context₂.nodeRegistry.erase context₂.localNode.id) := rfl
          have hstep : (server context).step (alone context₂ c .unregistering) (.unregister c (.ok ())) =
              some (alone { context₂ with nodeRegistry := context₂.nodeRegistry.erase context₂.localNode.id } c
                .stopping) := by
            simp [server, State.step, alone, State.setStage, AList.insert_insert, hdone, -AList.insert_empty]
          have h₄ := h₃.snoc hstep
          split
          · next error hstop =>
            refine ⟨_, h₄.snoc (l := .stop c (.error error)) ?_, by simp [Label.caller]⟩
            simp [server, State.step, alone, State.setStage, AList.insert_insert, hstop, -AList.insert_empty]
          · next lifecycle' hstop =>
            refine ⟨_, h₄.snoc (l := .stop c (.ok ())) ?_, by simp [Label.caller]⟩
            simp [server, State.step, alone, State.setStage, AList.insert_insert, hstop, -AList.insert_empty]

end Shutdown

/-! ## The environment -/

/-- An unsigned number as it may be written: a sign, zeros, and its digits. -/
def Numeral (text : String) (n : Nat) : Prop :=
  ∃ sign zeros, (sign = [] ∨ sign = ['+']) ∧
    text.toList = sign ++ (List.replicate zeros '0' ++ Nat.toDigits 10 n)

/-- What the variable of the node id stands for. -/
def ReadsNodeId (parseNodeId : String → Option NodeId) : Option OsString → Option NodeId → Prop
  | none, id => id = none
  | some none, _ => False
  | some (some text), id => ∃ parsed, parseNodeId text = some parsed ∧ id = some parsed

/-- What the variable of the queue capacity stands for. -/
def ReadsCapacity : Option OsString → Nat → Prop
  | none, n => n = 64
  | some none, _ => False
  | some (some text), n => Numeral text n ∧ 1 ≤ n ∧ n ≤ usizeMax

/-- The complaints about the variable of the node id. -/
def nodeIdErrors : List ServerError :=
  [.config "ORBITRELAY_NODE_ID is not valid UTF-8", .config "ORBITRELAY_NODE_ID is not a valid node ID"]

/-- The complaints about that of the queue capacity. -/
def capacityErrors : List ServerError :=
  [.config "ORBITRELAY_SUBSCRIPTION_QUEUE_CAPACITY is not valid UTF-8",
    .config "ORBITRELAY_SUBSCRIPTION_QUEUE_CAPACITY must be a positive integer",
    .config "subscription queue capacity must be greater than zero"]

namespace ServerConfig

variable {parseNodeId : String → Option NodeId} {env : Environment} {config : ServerConfig} {error : ServerError}

/-- The first half of `load`. -/
def loadNodeId (parseNodeId : String → Option NodeId) : Option OsString → Except ServerError (Option NodeId)
  | none => .ok none
  | some none => .error (.config "ORBITRELAY_NODE_ID is not valid UTF-8")
  | some (some text) => match parseNodeId text with
    | none => .error (.config "ORBITRELAY_NODE_ID is not a valid node ID")
    | some id => .ok (some id)

/-- Its second half, with the validation. -/
def loadCapacity : Option OsString → Except ServerError Nat
  | none => .ok 64
  | some none => .error (.config "ORBITRELAY_SUBSCRIPTION_QUEUE_CAPACITY is not valid UTF-8")
  | some (some text) => match Text.parseUnsignedBelow usizeMax text.toList with
    | none => .error (.config "ORBITRELAY_SUBSCRIPTION_QUEUE_CAPACITY must be a positive integer")
    | some 0 => .error (.config "subscription queue capacity must be greater than zero")
    | some (n + 1) => .ok (n + 1)

theorem load_eq (parseNodeId : String → Option NodeId) (nodeId capacity : Option OsString) :
    load parseNodeId nodeId capacity = do
      let id ← loadNodeId parseNodeId nodeId
      let n ← loadCapacity capacity
      return ⟨id, BTreeMap.new, n⟩ := by
  have hthrow : ∀ {α : Type} (e : ServerError), (throw e : Except ServerError α) = .error e := fun _ => rfl
  have hsecond : ∀ id : Option NodeId, load (fun _ => id) (id.map fun _ => some "") capacity = do
      let n ← loadCapacity capacity
      return ⟨id, BTreeMap.new, n⟩ := by
    intro id
    rcases capacity with _ | _ | text
    · cases id <;> rfl
    · cases id <;> rfl
    · rcases hparse : Text.parseUnsignedBelow usizeMax text.toList with _ | _ | n
      · cases id <;> simp [load, loadCapacity, hparse, hthrow, bind, Except.bind]
      · cases id <;> simp [load, loadCapacity, hparse, validate, bind, Except.bind]
      · cases id <;> simp [load, loadCapacity, hparse, validate, bind, Except.bind, default, pure, Except.pure]
  rcases nodeId with _ | _ | text
  · exact hsecond none
  · rfl
  · cases hid : parseNodeId text with
    | none => simp [load, loadNodeId, hid, hthrow, bind, Except.bind]
    | some id =>
      have hfirst : load parseNodeId (some (some text)) capacity =
          load (fun _ => some id) (some (some "")) capacity := by
        simp [load, hid]
      rw [hfirst]
      simp only [loadNodeId, hid]
      exact hsecond (some id)

theorem loadNodeId_ok_iff {nodeId : Option OsString} {id : Option NodeId} :
    loadNodeId parseNodeId nodeId = .ok id ↔ ReadsNodeId parseNodeId nodeId id := by
  rcases nodeId with _ | _ | text
  · simp [loadNodeId, ReadsNodeId, eq_comm]
  · simp [loadNodeId, ReadsNodeId]
  · cases hid : parseNodeId text with
    | none => simp [loadNodeId, ReadsNodeId, hid]
    | some parsed => simp [loadNodeId, ReadsNodeId, hid, eq_comm]

theorem loadCapacity_ok_iff {capacity : Option OsString} {n : Nat} :
    loadCapacity capacity = .ok n ↔ ReadsCapacity capacity n := by
  rcases capacity with _ | _ | text
  · simp [loadCapacity, ReadsCapacity, eq_comm]
  · simp [loadCapacity, ReadsCapacity]
  · have hparse : Text.parseUnsignedBelow usizeMax text.toList = some n ↔ Numeral text n ∧ n ≤ usizeMax := by
      rw [Text.parseUnsignedBelow, Option.filter_eq_some_iff, Text.parseUnsigned_eq_some_iff, decide_eq_true_iff]
      rfl
    have hread : ReadsCapacity (some (some text)) n ↔
        Text.parseUnsignedBelow usizeMax text.toList = some n ∧ 1 ≤ n := by
      rw [hparse, ReadsCapacity, and_assoc, and_comm (a := n ≤ usizeMax)]
    rw [hread]
    rcases hfound : Text.parseUnsignedBelow usizeMax text.toList with _ | _ | m
    · simp [loadCapacity, hfound]
    · simp only [loadCapacity, hfound, reduceCtorEq, Option.some.injEq, false_iff]
      omega
    · simp only [loadCapacity, hfound, Except.ok.injEq, Option.some.injEq]
      omega

theorem loadNodeId_error {nodeId : Option OsString} (h : loadNodeId parseNodeId nodeId = .error error) :
    error ∈ nodeIdErrors := by
  unfold loadNodeId at h
  split at h
  · simp at h
  · simp [nodeIdErrors, ← Except.error.inj h]
  · split at h
    · simp [nodeIdErrors, ← Except.error.inj h]
    · simp at h

theorem loadCapacity_error {capacity : Option OsString} (h : loadCapacity capacity = .error error) :
    error ∈ capacityErrors := by
  unfold loadCapacity at h
  split at h
  · simp at h
  · simp [capacityErrors, ← Except.error.inj h]
  · split at h
    · simp [capacityErrors, ← Except.error.inj h]
    · simp [capacityErrors, ← Except.error.inj h]
    · simp at h

/-- The configuration is what the two variables stand for. -/
theorem load_ok_iff {nodeId capacity : Option OsString} : load parseNodeId nodeId capacity = .ok config ↔
    ReadsNodeId parseNodeId nodeId config.nodeId ∧ ReadsCapacity capacity config.subscriptionQueueCapacity ∧
      config.nodeMetadata = BTreeMap.new := by
  rw [load_eq, Outcome.bind_eq_ok]
  simp only [Outcome.bind_eq_ok, Outcome.pure_eq_ok, loadNodeId_ok_iff, loadCapacity_ok_iff]
  constructor
  · intro h
    obtain ⟨id, hid, n, hn, rfl⟩ := h
    exact ⟨hid, hn, rfl⟩
  · intro h
    obtain ⟨hid, hn, hmetadata⟩ := h
    exact ⟨_, hid, _, hn, by rw [← hmetadata]⟩

/-- The complaint is about the first variable that stands for nothing. -/
theorem load_error {nodeId capacity : Option OsString} (h : load parseNodeId nodeId capacity = .error error) :
    ((∀ id, ¬ReadsNodeId parseNodeId nodeId id) ∧ error ∈ nodeIdErrors) ∨
      ((∃ id, ReadsNodeId parseNodeId nodeId id) ∧ (∀ n, ¬ReadsCapacity capacity n) ∧ error ∈ capacityErrors) := by
  rw [load_eq, Outcome.bind_eq_error] at h
  rcases h with hfirst | ⟨id, hid, hsecond⟩
  · refine .inl ⟨?_, loadNodeId_error hfirst⟩
    intro id hid
    rw [loadNodeId_ok_iff.mpr hid] at hfirst
    simp at hfirst
  · rcases Outcome.bind_eq_error.mp hsecond with hsecond | ⟨n, _, hlast⟩
    · refine .inr ⟨⟨id, loadNodeId_ok_iff.mp hid⟩, ?_, loadCapacity_error hsecond⟩
      intro n hn
      rw [loadCapacity_ok_iff.mpr hn] at hsecond
      simp at hsecond
    · simp [pure, Except.pure] at hlast

end ServerConfig

/-! ## A process that serves -/

namespace NodeRegistry

variable {nodes : NodeRegistry} {node : Node}

/-- A registry that has one node lists it. -/
theorem list_one (h : ∀ id n, nodes.lookup id = some n ↔ id = node.id ∧ n = node) : nodes.list none = .ok [node] := by
  have hentries : nodes.entries.Perm [⟨node.id, node⟩] := by
    apply (List.perm_ext_iff_of_nodup (List.NodupKeys.nodup nodes.nodupKeys) (List.nodup_singleton _)).mpr
    rintro ⟨id, n⟩
    rw [Table.mem_entries_iff, h, List.mem_singleton, Sigma.mk.injEq, heq_eq_eq]
  rw [list, List.perm_singleton.mp hentries, List.mergeSort_singleton]
  rfl

/-- A registry that has none lists none. -/
theorem list_none (h : ∀ id, nodes.lookup id = none) : nodes.list none = .ok [] := by
  have hentries : nodes.entries = [] := by
    rw [List.eq_nil_iff_forall_not_mem]
    rintro ⟨id, n⟩ hmem
    have hfound := Table.mem_entries_iff.mp hmem
    rw [h id] at hfound
    simp at hfound
  rw [list, hentries, List.mergeSort_nil]
  rfl

end NodeRegistry

/-- Over a registry that does not fail a server that is ready shuts down. -/
theorem ServerContext.shutdown_ok {context : ServerContext} (hready : context.lifecycle = .fromState .ready)
    (hvalid : ∀ state, ({ context.localNode with state } : Node).validate = .ok ()) :
    ∃ context', context.shutdown .none = (.ok (), context') ∧ context'.lifecycle = .fromState .stopped ∧
      ∀ id, context'.nodeRegistry.lookup id =
        if id = context.localNode.id then none else context.nodeRegistry.lookup id := by
  have hregister : ∀ (c : ServerContext) (state : NodeState), c.localNode = context.localNode →
      c.registerNodeState state none =
        .ok { c with nodeRegistry := c.nodeRegistry.insert c.localNode.id { c.localNode with state } } := by
    intro c state hsame
    have hok : c.nodeRegistry.register none { c.localNode with state } = .ok _ :=
      NodeRegistry.register_ok_iff.mpr ⟨rfl, hsame ▸ hvalid state, rfl⟩
    rw [registerNodeState, hok]
  have hbegin : (ServerLifecycle.fromState .ready).beginShutdown = .ok (.fromState .draining) := rfl
  have hstop : (ServerLifecycle.fromState .draining).stop = .ok (.fromState .stopped) := rfl
  let id := context.localNode.id
  let registered := (context.nodeRegistry.insert id { context.localNode with state := .draining }).insert id
    { context.localNode with state := .offline }
  refine ⟨{ context with lifecycle := .fromState .stopped, nodeRegistry := registered.erase id }, ?_, rfl, ?_⟩
  · simp [shutdown, hready, hbegin, hstop, hregister, RegistryFaults.none, NodeRegistry.unregister, registered, id]
  · intro other
    show (registered.erase id).lookup other = _
    split
    · next heq =>
      rw [heq]
      exact AList.lookup_erase _ _
    · next hne =>
      rw [AList.lookup_erase_ne hne, AList.lookup_insert_ne hne, AList.lookup_insert_ne hne]

section

variable {config : ServerConfig} {newId : NodeId} {storeId : EntityId} {context : ServerContext}

/-- A server that has been built over memory has a registry of its own. -/
theorem Bootstrap.build_ok (h : Bootstrap.build config newId storeId = .ok context) :
    context.localNode = Bootstrap.node config (config.nodeId.getD newId) .ready ∧
    context.lifecycle = .fromState .ready ∧
    context.runtime.pipeline.bus = MemoryEventBus.State.new config.subscriptionQueueCapacity ∧
    ∀ id n, context.nodeRegistry.lookup id = some n ↔ id = context.localNode.id ∧ n = context.localNode := by
  simp only [Bootstrap.build, Outcome.bind_eq_ok, Outcome.mapError_eq_ok] at h
  obtain ⟨_, _, b, hb, hwith⟩ := h
  obtain rfl := (MemoryEventBus.State.withQueueCapacity_ok_iff.mp hb).2
  obtain ⟨hnode, hlifecycle, hruntime, hmine, hothers⟩ := Bootstrap.buildWith_ok hwith
  refine ⟨hnode, hlifecycle, by rw [hruntime], ?_⟩
  intro id n
  by_cases hid : id = context.localNode.id
  · rw [hid, hmine, Option.some.injEq]
    simp [eq_comm]
  · rw [hothers id hid]
    simp [hid]

/-- The node of a server is well formed in every state. -/
theorem Bootstrap.localNode_valid (h : Bootstrap.build config newId storeId = .ok context) (state : NodeState) :
    ({ context.localNode with state } : Node).validate = .ok () := by
  rw [(Bootstrap.build_ok h).1]
  exact Bootstrap.node_valid config (config.nodeId.getD newId) state

/-- A server that has been built over memory shuts down, and leaves nothing behind. -/
theorem Bootstrap.shutdown_ok (h : Bootstrap.build config newId storeId = .ok context) :
    ∃ context', context.shutdown .none = (.ok (), context') ∧ context'.lifecycle = .fromState .stopped ∧
      context'.nodeRegistry.list none = .ok [] := by
  obtain ⟨_, hlifecycle, _, hregistered⟩ := Bootstrap.build_ok h
  obtain ⟨context', hshutdown, hstopped, hlookup⟩ :=
    ServerContext.shutdown_ok hlifecycle (Bootstrap.localNode_valid h)
  refine ⟨context', hshutdown, hstopped, NodeRegistry.list_none ?_⟩
  intro id
  rw [hlookup]
  split
  · rfl
  · next hne =>
    cases hfound : context.nodeRegistry.lookup id with
    | none => rfl
    | some n => exact absurd ((hregistered id n).mp hfound).1 hne

end

variable {parseNodeId : String → Option NodeId} {env : Environment}

/-- The error for a signal that cannot be waited for. -/
def signalFailed : ServerError := .shutdown "failed to wait for process shutdown signal"

/-- What a process does whose environment is accepted. -/
theorem main_of_load (newId : NodeId) (storeId : EntityId) (signal : Except Unit Unit) {config : ServerConfig}
    (h : ServerConfig.load parseNodeId env.nodeId env.subscriptionQueueCapacity = .ok config) :
    ∃ context context', Bootstrap.build config newId storeId = .ok context ∧
      context.shutdown .none = (.ok (), context') ∧
      main parseNodeId env newId storeId signal = (signal.mapError fun _ => signalFailed).map fun _ => context' := by
  have hpos : config.subscriptionQueueCapacity ≠ 0 := by
    obtain ⟨_, hcapacity, _⟩ := ServerConfig.load_ok_iff.mp h
    intro hzero
    rw [hzero] at hcapacity
    unfold ReadsCapacity at hcapacity
    split at hcapacity
    · simp at hcapacity
    · exact hcapacity
    · exact absurd hcapacity.2.1 (by decide)
  obtain ⟨context, hbuild, _⟩ := Bootstrap.exists_build hpos newId storeId
  obtain ⟨context', hshutdown, _⟩ := Bootstrap.shutdown_ok hbuild
  refine ⟨context, context', hbuild, hshutdown, ?_⟩
  rw [main, h]
  show (Bootstrap.build config newId storeId >>= _) = _
  rw [hbuild]
  cases signal with
  | error _ => rfl
  | ok _ =>
    show (match context.shutdown .none with | (result, context) => result >>= fun _ => pure context) = _
    rw [hshutdown]
    rfl

/-- **From the start of a process to its end.** Whatever the environment, the ids
drawn and the outcome of the wait:
* the process ends with Ok exactly if the two variables are absent or stand for a
  node id and for a capacity from 1 to the largest `usize`, and the signal comes;
* it fails with a complaint about the first variable that does not, or about the
  signal, and with nothing else: what it builds over memory does not fail;
* while it waits it is ready, under the id that was given or drawn, its node is
  all the registry lists, and its bus has the capacity that was given; at its end
  it is stopped and the registry lists nothing. The shutdown is a run of the
  `shutdown` calls on its context in which one call takes every step: no other
  call, and no peer. -/
theorem process_outcome (parseNodeId : String → Option NodeId) (env : Environment) (newId : NodeId)
    (storeId : EntityId) (signal : Except Unit Unit) :
    ((∃ context, main parseNodeId env newId storeId signal = .ok context) ↔
      (∃ id, ReadsNodeId parseNodeId env.nodeId id) ∧ (∃ n, ReadsCapacity env.subscriptionQueueCapacity n) ∧
        signal = .ok ()) ∧
    (∀ error, main parseNodeId env newId storeId signal = .error error →
      ((∀ id, ¬ReadsNodeId parseNodeId env.nodeId id) ∧ error ∈ nodeIdErrors) ∨
      ((∃ id, ReadsNodeId parseNodeId env.nodeId id) ∧ (∀ n, ¬ReadsCapacity env.subscriptionQueueCapacity n) ∧
        error ∈ capacityErrors) ∨
      ((∃ id, ReadsNodeId parseNodeId env.nodeId id) ∧ (∃ n, ReadsCapacity env.subscriptionQueueCapacity n) ∧
        signal = .error () ∧ error = signalFailed)) ∧
    (∀ id n, ReadsNodeId parseNodeId env.nodeId id → ReadsCapacity env.subscriptionQueueCapacity n →
      ∃ context context', Bootstrap.build ⟨id, BTreeMap.new, n⟩ newId storeId = .ok context ∧
        context.localNode.id = id.getD newId ∧ context.lifecycle = .fromState .ready ∧
        context.nodeRegistry.list none = .ok [context.localNode] ∧
        context.runtime.pipeline.bus = MemoryEventBus.State.new n ∧
        main parseNodeId env newId storeId (.ok ()) = .ok context' ∧
        context'.lifecycle = .fromState .stopped ∧ context'.nodeRegistry.list none = .ok [] ∧
        ∀ c, ∃ tr, (Shutdown.server context).Run (Shutdown.State.new context) tr
          (Shutdown.alone context' c (.returned (.ok ()))) ∧ ∀ l ∈ tr, l.caller = some c) := by
  have hload : ∀ {id n}, ReadsNodeId parseNodeId env.nodeId id → ReadsCapacity env.subscriptionQueueCapacity n →
      ServerConfig.load parseNodeId env.nodeId env.subscriptionQueueCapacity = .ok ⟨id, BTreeMap.new, n⟩ :=
    fun hid hn => ServerConfig.load_ok_iff.mpr ⟨hid, hn, rfl⟩
  -- a process whose environment is refused has no other outcome
  have hrefused : ∀ {error}, ServerConfig.load parseNodeId env.nodeId env.subscriptionQueueCapacity = .error error →
      main parseNodeId env newId storeId signal = .error error := by
    intro error hfails
    rw [main, hfails]
    rfl
  refine ⟨⟨?_, ?_⟩, ?_, ?_⟩
  · intro h
    obtain ⟨context, hmain⟩ := h
    cases hloaded : ServerConfig.load parseNodeId env.nodeId env.subscriptionQueueCapacity with
    | error error => simp [hrefused hloaded] at hmain
    | ok config =>
      obtain ⟨hid, hn, _⟩ := ServerConfig.load_ok_iff.mp hloaded
      obtain ⟨_, _, _, _, heq⟩ := main_of_load newId storeId signal hloaded
      refine ⟨⟨_, hid⟩, ⟨_, hn⟩, ?_⟩
      rw [heq] at hmain
      cases signal with
      | error _ => simp [Except.mapError, Except.map] at hmain
      | ok _ => rfl
  · intro h
    obtain ⟨⟨id, hid⟩, ⟨n, hn⟩, rfl⟩ := h
    obtain ⟨_, context', _, _, heq⟩ := main_of_load newId storeId (.ok ()) (hload hid hn)
    exact ⟨context', heq⟩
  · intro error hmain
    cases hloaded : ServerConfig.load parseNodeId env.nodeId env.subscriptionQueueCapacity with
    | error error' =>
      rw [hrefused hloaded] at hmain
      obtain rfl := Except.error.inj hmain
      exact (ServerConfig.load_error hloaded).imp_right .inl
    | ok config =>
      obtain ⟨hid, hn, _⟩ := ServerConfig.load_ok_iff.mp hloaded
      obtain ⟨_, _, _, _, heq⟩ := main_of_load newId storeId signal hloaded
      rw [heq] at hmain
      cases signal with
      | error _ => exact .inr (.inr ⟨⟨_, hid⟩, ⟨_, hn⟩, rfl, (Except.error.inj hmain).symm⟩)
      | ok _ => simp [Except.mapError, Except.map] at hmain
  · intro id n hid hn
    obtain ⟨context, context', hbuild, hshutdown, heq⟩ :=
      main_of_load newId storeId (.ok ()) (hload hid hn)
    obtain ⟨hnode, hlifecycle, hbus, hregistered⟩ := Bootstrap.build_ok hbuild
    obtain ⟨context'', hshutdown', hstopped, hempty⟩ := Bootstrap.shutdown_ok hbuild
    obtain rfl : context'' = context' := (Prod.mk.inj (hshutdown'.symm.trans hshutdown)).2
    refine ⟨context, context'', hbuild, by rw [hnode]; rfl, hlifecycle, NodeRegistry.list_one hregistered, hbus, heq,
      hstopped, hempty, ?_⟩
    intro c
    obtain ⟨tr, hrun, hcaller⟩ := Shutdown.shutdown_alone context .none c
    rw [hshutdown] at hrun
    exact ⟨tr, hrun, hcaller⟩

end OrbitRelay
