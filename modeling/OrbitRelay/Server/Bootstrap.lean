import OrbitRelay.Runtime.Execute
import OrbitRelay.Server.Lifecycle

/-
  The composition of a server (orbitrelay-server: config.rs, bootstrap.rs,
  context.rs).

  `buildWith` takes its node through starting to ready, in the registry and in
  the lifecycle, and wires store, bus and runtime together. The id it draws for
  a node without a configured one, and the faults of the two registrations, are
  arguments. The authorizer and the clock are outside, as in the runtime.

  Correspondence (Rust ↔ Lean):
    `ServerConfig`, `ServerContext`  ↔ the structures of the same names
    `ServerConfig::load`             ↔ `ServerConfig.load`, the environment an argument
    `Bootstrap::build`, `build_with` ↔ `build`, `buildWith`
    `Bootstrap::node`                ↔ `node`
    `ServerError::node_lifecycle(..)` ↔ `registrationFailed`, `unregisterFailed`
-/

namespace OrbitRelay

/-- Minimal configuration needed to compose a local server. -/
structure ServerConfig where
  nodeId : Option NodeId
  nodeMetadata : Metadata
  subscriptionQueueCapacity : Nat
  deriving DecidableEq

/-- The default configuration. -/
instance : Inhabited ServerConfig := ⟨⟨none, BTreeMap.new, 64⟩⟩

def ServerConfig.validate (config : ServerConfig) : Except ServerError Unit :=
  if config.subscriptionQueueCapacity = 0 then
    .error (.config "subscription queue capacity must be greater than zero")
  else .ok ()

/-- The largest `usize`. -/
def usizeMax : Nat := 2 ^ 64 - 1

/-- The value of an environment variable, if it is valid UTF-8. -/
abbrev OsString := Option String

/-- Loads the overrides of the two environment variables over the default
configuration. The parser of node ids is that of the `uuid` crate. -/
def ServerConfig.load (parseNodeId : String → Option NodeId) (nodeId queueCapacity : Option OsString) :
    Except ServerError ServerConfig := do
  let mut config : ServerConfig := default
  if let some value := nodeId then
    let some value := value | throw (.config "ORBITRELAY_NODE_ID is not valid UTF-8")
    let some id := parseNodeId value | throw (.config "ORBITRELAY_NODE_ID is not a valid node ID")
    config := { config with nodeId := some id }
  if let some value := queueCapacity then
    let some value := value |
      throw (.config "ORBITRELAY_SUBSCRIPTION_QUEUE_CAPACITY is not valid UTF-8")
    let some capacity := Text.parseUnsignedBelow usizeMax value.toList |
      throw (.config "ORBITRELAY_SUBSCRIPTION_QUEUE_CAPACITY must be a positive integer")
    config := { config with subscriptionQueueCapacity := capacity }
  config.validate
  return config

/-- The dependencies of one server process. Store and bus are those of the
runtime's pipeline. -/
structure ServerContext where
  localNode : Node
  lifecycle : ServerLifecycle
  runtime : Runtime.State
  nodeRegistry : NodeRegistry

/-- The error for a state of the node that was not registered. -/
def registrationFailed : ServerError := .nodeLifecycle "node state registration failed"

/-- The error for a node that was not unregistered. -/
def unregisterFailed : ServerError := .nodeLifecycle "node unregister failed"

namespace Bootstrap

/-- The local node in a state, as it is advertised. -/
def node (config : ServerConfig) (id : NodeId) (state : NodeState) : Node where
  id := id
  metadata := config.nodeMetadata
  state := state
  capabilities := {⟨"runtime"⟩, ⟨"storage"⟩, ⟨"sync"⟩}

def buildWith (config : ServerConfig) (newId : NodeId) (faults : Option NodeError × Option NodeError)
    (eventStore : MemoryEventStore.State) (eventBus : MemoryEventBus.State) (nodeRegistry : NodeRegistry) :
    Except ServerError ServerContext := do
  config.validate
  let nodeId := config.nodeId.getD newId
  let lifecycle ← ServerLifecycle.new.start.mapError .lifecycle
  let nodeRegistry ← (nodeRegistry.register faults.1 (node config nodeId .starting)).mapError fun _ => registrationFailed
  let runtime : Runtime.State := ⟨HandlerRegistry.new, ⟨eventStore, eventBus, ∅⟩, ∅⟩
  let readyNode := node config nodeId .ready
  let nodeRegistry ← (nodeRegistry.register faults.2 readyNode).mapError fun _ => registrationFailed
  let lifecycle ← lifecycle.ready.mapError .lifecycle
  return ⟨readyNode, lifecycle, runtime, nodeRegistry⟩

/-- The server over a store, a bus and a registry in memory. -/
def build (config : ServerConfig) (newId : NodeId) (storeId : EntityId) : Except ServerError ServerContext := do
  config.validate
  let eventBus ← (MemoryEventBus.State.withQueueCapacity config.subscriptionQueueCapacity).mapError
    fun _ => .bootstrap "event bus initialization failed"
  buildWith config newId (none, none) (MemoryEventStore.State.new storeId) eventBus ∅

variable {config : ServerConfig} {newId : NodeId} {faults : Option NodeError × Option NodeError} {storeId : EntityId}
  {eventStore : MemoryEventStore.State} {eventBus : MemoryEventBus.State} {nodeRegistry : NodeRegistry}
  {context : ServerContext}

/-- The node's own capabilities are well formed. -/
theorem node_valid (config : ServerConfig) (id : NodeId) (state : NodeState) :
    (node config id state).validate = .ok () := by
  apply (Node.validate_ok_iff _).mpr
  show ∀ c ∈ ({⟨"runtime"⟩, ⟨"storage"⟩, ⟨"sync"⟩} : Finset Capability), c.malformed = false
  decide

/-- What a server has been built of, and how it stands. -/
theorem buildWith_ok (h : buildWith config newId faults eventStore eventBus nodeRegistry = .ok context) :
    context.localNode = node config (config.nodeId.getD newId) .ready ∧
    context.lifecycle = .fromState .ready ∧
    context.runtime = ⟨HandlerRegistry.new, ⟨eventStore, eventBus, ∅⟩, ∅⟩ ∧
    context.nodeRegistry.lookup context.localNode.id = some context.localNode ∧
    ∀ id, id ≠ context.localNode.id → context.nodeRegistry.lookup id = nodeRegistry.lookup id := by
  simp only [buildWith, Outcome.bind_eq_ok, Outcome.mapError_eq_ok, Outcome.pure_eq_ok,
    NodeRegistry.register_ok_iff] at h
  obtain ⟨_, _, _, hstart, _, ⟨_, _, rfl⟩, _, ⟨_, _, rfl⟩, lifecycle, hready, rfl⟩ := h
  obtain ⟨_, rfl⟩ := ServerLifecycle.transition_ok_iff.mp hready
  refine ⟨rfl, rfl, rfl, AList.lookup_insert _, ?_⟩
  intro id hid
  exact (AList.lookup_insert_ne hid).trans (AList.lookup_insert_ne hid)

end Bootstrap

end OrbitRelay
