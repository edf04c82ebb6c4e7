import OrbitRelay.Server.Exclusive

/-
  Servers that share a registry (orbitrelay-server: bootstrap.rs, context.rs;
  orbitrelay-node: memory.rs).

  Any number of servers are built, run and are shut down over one registry, each
  under its own node id. A build awaits the registry twice, so it is the steps
  between; a step of a shutdown is one of `Shutdown`. The registry may fail any
  operation and then changes nothing. A build or a shutdown that is dropped is
  one that takes no more steps.

  What one server finds is its own doing: the entry of a node goes once through
  starting, ready, draining, offline and gone, as far as its server comes.

  Correspondence (Rust ↔ Lean):
    `config.validate()?`, `lifecycle.start()?`     ↔ `begin`
    `register_state_with(.., Starting)`            ↔ `registerStarting`
    `node_registry.register(ready_node)`           ↔ `registerReady`
    `lifecycle.ready()?`, the context is composed  ↔ `ready`
    `ServerContext::shutdown`                      ↔ `shutdown`
-/

namespace OrbitRelay.Cluster

open Shutdown (Change Stage)

/-- Where a server stands. -/
inductive Server where
  | registeringStarting (lifecycle : ServerLifecycle)
  | registeringReady (lifecycle : ServerLifecycle)
  | readying (lifecycle : ServerLifecycle)
  | running (lifecycle : ServerLifecycle) (calls : Table TaskId Stage)
  | failed (error : ServerError)

structure State where
  servers : Table NodeId Server
  nodeRegistry : NodeRegistry

inductive Label where
  | begin (id : NodeId)
  | registerStarting (id : NodeId) (result : Except NodeError Unit)
  | registerReady (id : NodeId) (result : Except NodeError Unit)
  | ready (id : NodeId)
  | shutdown (id : NodeId) (l : Shutdown.Label)
  deriving DecidableEq

/-- The node a context is built with. -/
def localNode (config : NodeId → ServerConfig) (id : NodeId) : Node := Bootstrap.node (config id) id .ready

namespace State

/-- No server yet. -/
def new : State := ⟨∅, ∅⟩

/-- The state with the server of `id` elsewhere. -/
def setServer (σ : State) (id : NodeId) (server : Server) : State := { σ with servers := σ.servers.insert id server }

variable (config : NodeId → ServerConfig)

/-- A running server as its shutdown finds it. -/
def view (σ : State) (id : NodeId) (lifecycle : ServerLifecycle) (calls : Table TaskId Stage) : Shutdown.State :=
  ⟨localNode config id, lifecycle, σ.nodeRegistry, calls⟩

def step (σ : State) : Label → Option State
  | .begin id =>
    if σ.servers.lookup id = none then
      match (config id).validate, ServerLifecycle.new.start with
      | .ok (), .ok lifecycle => some (σ.setServer id (.registeringStarting lifecycle))
      | .error error, _ => some (σ.setServer id (.failed error))
      | .ok (), .error error => some (σ.setServer id (.failed (.lifecycle error)))
    else none
  | .registerStarting id result =>
    match σ.servers.lookup id with
    | some (.registeringStarting lifecycle) =>
      match σ.nodeRegistry.register (Shutdown.fault result) (Bootstrap.node (config id) id .starting), result with
      | .ok nodeRegistry, .ok () => some ({ σ with nodeRegistry }.setServer id (.registeringReady lifecycle))
      | .error _, .error _ => some (σ.setServer id (.failed registrationFailed))
      | _, _ => none
    | _ => none
  | .registerReady id result =>
    match σ.servers.lookup id with
    | some (.registeringReady lifecycle) =>
      match σ.nodeRegistry.register (Shutdown.fault result) (localNode config id), result with
      | .ok nodeRegistry, .ok () => some ({ σ with nodeRegistry }.setServer id (.readying lifecycle))
      | .error _, .error _ => some (σ.setServer id (.failed registrationFailed))
      | _, _ => none
    | _ => none
  | .ready id =>
    match σ.servers.lookup id with
    | some (.readying lifecycle) =>
      match lifecycle.ready with
      | .ok lifecycle => some (σ.setServer id (.running lifecycle ∅))
      | .error error => some (σ.setServer id (.failed (.lifecycle error)))
    | _ => none
  | .shutdown id l =>
    match σ.servers.lookup id with
    | some (.running lifecycle calls) =>
      if l.peer = none then
        ((σ.view config id lifecycle calls).step l).map fun τ =>
          { σ with nodeRegistry := τ.nodeRegistry }.setServer id (.running τ.lifecycle τ.calls)
      else none
    | _ => none

end State

/-- The servers with a configuration for each id. -/
def cluster (config : NodeId → ServerConfig) : Lts State Label := ⟨State.new, State.step config⟩

/-! ## What a step does -/

variable {config : NodeId → ServerConfig} {σ σ' : State} {l : Label} {id : NodeId} {tr : List Label}

/-- The ways a step can go, each with what it finds and what it leaves. -/
inductive Effect (config : NodeId → ServerConfig) (σ : State) : Label → State → Prop where
  | begun (id : NodeId) (fresh : σ.servers.lookup id = none) :
      Effect config σ (.begin id) (σ.setServer id (.registeringStarting (.fromState .starting)))
  | refused (id : NodeId) (error : ServerError) (fresh : σ.servers.lookup id = none) :
      Effect config σ (.begin id) (σ.setServer id (.failed error))
  | startingRegistered (id : NodeId) (lifecycle : ServerLifecycle)
      (waiting : σ.servers.lookup id = some (.registeringStarting lifecycle)) :
      Effect config σ (.registerStarting id (.ok ()))
        ({ σ with nodeRegistry := σ.nodeRegistry.insert id (Bootstrap.node (config id) id .starting) }.setServer id
          (.registeringReady lifecycle))
  | startingFailed (id : NodeId) (lifecycle : ServerLifecycle) (error : NodeError)
      (waiting : σ.servers.lookup id = some (.registeringStarting lifecycle)) :
      Effect config σ (.registerStarting id (.error error)) (σ.setServer id (.failed registrationFailed))
  | readyRegistered (id : NodeId) (lifecycle : ServerLifecycle)
      (waiting : σ.servers.lookup id = some (.registeringReady lifecycle)) :
      Effect config σ (.registerReady id (.ok ()))
        ({ σ with nodeRegistry := σ.nodeRegistry.insert id (localNode config id) }.setServer id (.readying lifecycle))
  | readyFailed (id : NodeId) (lifecycle : ServerLifecycle) (error : NodeError)
      (waiting : σ.servers.lookup id = some (.registeringReady lifecycle)) :
      Effect config σ (.registerReady id (.error error)) (σ.setServer id (.failed registrationFailed))
  | readied (id : NodeId) (lifecycle : ServerLifecycle) (waiting : σ.servers.lookup id = some (.readying lifecycle))
      (starting : lifecycle.state = .starting) :
      Effect config σ (.ready id) (σ.setServer id (.running (.fromState .ready) ∅))
  | readyRejected (id : NodeId) (lifecycle : ServerLifecycle) (error : ServerError)
      (waiting : σ.servers.lookup id = some (.readying lifecycle)) (other : lifecycle.state ≠ .starting) :
      Effect config σ (.ready id) (σ.setServer id (.failed error))
  | shutdown (id : NodeId) (lifecycle : ServerLifecycle) (calls : Table TaskId Stage) (l : Shutdown.Label)
      (τ : Shutdown.State) (waiting : σ.servers.lookup id = some (.running lifecycle calls)) (own : l.peer = none)
      (moved : (σ.view config id lifecycle calls).step l = some τ) :
      Effect config σ (.shutdown id l)
        ({ σ with nodeRegistry := τ.nodeRegistry }.setServer id (.running τ.lifecycle τ.calls))

theorem step_effect (h : σ.step config l = some σ') : Effect config σ l σ' := by
  cases l with
  | begin id =>
    simp only [State.step, Option.ite_none_right_eq_some] at h
    obtain ⟨fresh, h⟩ := h
    have hstart : ServerLifecycle.new.start = .ok (.fromState .starting) := rfl
    rw [hstart] at h
    split at h
    · next hstarted =>
      obtain rfl := Except.ok.inj hstarted
      obtain rfl := Option.some.inj h
      exact .begun id fresh
    · obtain rfl := Option.some.inj h
      exact .refused id _ fresh
    · next hfailed => cases hfailed
  | registerStarting id result =>
    simp only [State.step] at h
    split at h
    · next lifecycle waiting =>
      split at h
      · next nodeRegistry hregister =>
        obtain rfl := Option.some.inj h
        obtain ⟨_, _, rfl⟩ := NodeRegistry.register_ok_iff.mp hregister
        exact .startingRegistered id lifecycle waiting
      · obtain rfl := Option.some.inj h
        exact .startingFailed id lifecycle _ waiting
      · simp at h
    · simp at h
  | registerReady id result =>
    simp only [State.step] at h
    split at h
    · next lifecycle waiting =>
      split at h
      · next nodeRegistry hregister =>
        obtain rfl := Option.some.inj h
        obtain ⟨_, _, rfl⟩ := NodeRegistry.register_ok_iff.mp hregister
        exact .readyRegistered id lifecycle waiting
      · obtain rfl := Option.some.inj h
        exact .readyFailed id lifecycle _ waiting
      · simp at h
    · simp at h
  | ready id =>
    simp only [State.step] at h
    split at h
    · next lifecycle waiting =>
      split at h
      · next hready =>
        obtain rfl := Option.some.inj h
        obtain ⟨hstate, rfl⟩ := ServerLifecycle.transition_ok_iff.mp hready
        exact .readied id lifecycle waiting (by simpa using hstate)
      · next hready =>
        obtain rfl := Option.some.inj h
        obtain ⟨hstate, _⟩ := ServerLifecycle.transition_error_iff.mp hready
        exact .readyRejected id lifecycle _ waiting (by simpa using hstate)
    · simp at h
  | shutdown id l =>
    simp only [State.step] at h
    split at h
    · next lifecycle calls waiting =>
      simp only [Option.ite_none_right_eq_some, Option.map_eq_some_iff] at h
      obtain ⟨own, τ, moved, rfl⟩ := h
      exact .shutdown id lifecycle calls l τ waiting own moved
    · simp at h

/-- A build that nobody interrupts is `Bootstrap.buildWith`. -/
theorem build_alone {newId : NodeId} {faults : Option NodeError × Option NodeError}
    {eventStore : MemoryEventStore.State} {eventBus : MemoryEventBus.State} {context : ServerContext}
    (hfresh : σ.servers.lookup id = none) (hid : (config id).nodeId.getD newId = id)
    (hbuilt : Bootstrap.buildWith (config id) newId faults eventStore eventBus σ.nodeRegistry = .ok context) :
    context.localNode = localNode config id ∧ ∃ σ', (cluster config).Run σ
      [.begin id, .registerStarting id (.ok ()), .registerReady id (.ok ()), .ready id] σ' ∧
      σ'.servers.lookup id = some (.running context.lifecycle ∅) ∧ σ'.nodeRegistry = context.nodeRegistry := by
  simp only [Bootstrap.buildWith, Outcome.bind_eq_ok, Outcome.mapError_eq_ok, Outcome.pure_eq_ok, hid] at hbuilt
  obtain ⟨_, hvalid, lifecycle, hstart, _, hstarting, _, hready, running, hreadied, rfl⟩ := hbuilt
  obtain ⟨_, hnode, rfl⟩ := NodeRegistry.register_ok_iff.mp hstarting
  obtain ⟨_, hnode', rfl⟩ := NodeRegistry.register_ok_iff.mp hready
  have hbegin : (cluster config).step σ (.begin id) = some (σ.setServer id (.registeringStarting lifecycle)) := by
    simp only [cluster, State.step, hfresh, hvalid, hstart, if_true]
  have hregistered : ∀ τ : State, τ.servers.lookup id = some (.registeringStarting lifecycle) →
      (cluster config).step τ (.registerStarting id (.ok ())) =
        some ({ τ with
          nodeRegistry := τ.nodeRegistry.insert id (Bootstrap.node (config id) id .starting) }.setServer id
            (.registeringReady lifecycle)) := by
    intro τ hwaiting
    have hregister : τ.nodeRegistry.register none (Bootstrap.node (config id) id .starting) =
        .ok (τ.nodeRegistry.insert id (Bootstrap.node (config id) id .starting)) :=
      NodeRegistry.register_ok_iff.mpr ⟨rfl, hnode, rfl⟩
    simp only [cluster, State.step, hwaiting, Shutdown.fault, hregister]
  have hregisteredReady : ∀ τ : State, τ.servers.lookup id = some (.registeringReady lifecycle) →
      (cluster config).step τ (.registerReady id (.ok ())) =
        some ({ τ with nodeRegistry := τ.nodeRegistry.insert id (localNode config id) }.setServer id
          (.readying lifecycle)) := by
    intro τ hwaiting
    have hregister : τ.nodeRegistry.register none (localNode config id) =
        .ok (τ.nodeRegistry.insert id (localNode config id)) :=
      NodeRegistry.register_ok_iff.mpr ⟨rfl, hnode', rfl⟩
    simp only [cluster, State.step, hwaiting, Shutdown.fault, hregister]
  have hlast : ∀ τ : State, τ.servers.lookup id = some (.readying lifecycle) →
      (cluster config).step τ (.ready id) = some (τ.setServer id (.running running ∅)) := by
    intro τ hwaiting
    simp only [cluster, State.step, hwaiting, hreadied]
  have hwaits : ∀ (τ : State) (server : Server), (τ.setServer id server).servers.lookup id = some server :=
    fun _ _ => AList.lookup_insert _
  have hbegun : (cluster config).Run σ [.begin id] _ := Lts.Run.single hbegin
  have harrived := (hbegun.snoc (hregistered _ (hwaits _ _))).snoc (hregisteredReady _ (hwaits _ _))
  exact ⟨rfl, _, harrived.snoc (hlast _ (hwaits _ _)), hwaits _ _, rfl⟩

/-! ## What the registry is told -/

/-- The successful change a step makes to the entry of a node. -/
def announcement (config : NodeId → ServerConfig) (id : NodeId) : Label → Option Change
  | .registerStarting id' (.ok ()) =>
    if id' = id then some (.registered (Bootstrap.node (config id) id .starting)) else none
  | .registerReady id' (.ok ()) => if id' = id then some (.registered (localNode config id)) else none
  | .shutdown id' l => if id' = id then Shutdown.change (localNode config id) l else none
  | _ => none

def announcements (config : NodeId → ServerConfig) (id : NodeId) (tr : List Label) : List Change :=
  tr.filterMap (announcement config id)

/-- The step of the shutdown of a server. -/
def shutdown? (id : NodeId) : Label → Option Shutdown.Label
  | .shutdown id' l => if id' = id then some l else none
  | _ => none

def shutdowns (id : NodeId) (tr : List Label) : List Shutdown.Label := tr.filterMap (shutdown? id)

/-- The entry some changes leave. -/
def entryOf (changes : List Change) : Option Node := changes.foldl (fun _ change => change.entry) none

/-- What a build tells the registry. -/
def arrival (config : NodeId → ServerConfig) (id : NodeId) : List Change :=
  [.registered (Bootstrap.node (config id) id .starting), .registered (localNode config id)]

/-- What a server tells the registry in its life. -/
def life (config : NodeId → ServerConfig) (id : NodeId) : List Change :=
  arrival config id ++ Shutdown.plan (localNode config id)

theorem filterMap_snoc {α β : Type} (f : α → Option β) (xs : List α) (x : α) :
    (xs ++ [x]).filterMap f = xs.filterMap f ++ (f x).toList := by
  rw [List.filterMap_append, List.filterMap_cons, List.filterMap_nil]
  cases f x <;> rfl

theorem entryOf_append (changes changes' : List Change) :
    entryOf (changes ++ changes') = changes'.foldl (fun _ change => change.entry) (entryOf changes) :=
  List.foldl_append

/-- A step of a shutdown changes the entry of its own node, as it says. -/
theorem lookup_shutdown {lifecycle : ServerLifecycle} {calls : Table TaskId Stage} {l : Shutdown.Label}
    {τ : Shutdown.State} (hown : l.peer = none) (hstep : (σ.view config id lifecycle calls).step l = some τ) :
    τ.nodeRegistry.lookup id =
      ((Shutdown.change (localNode config id) l).map Change.entry).getD (σ.nodeRegistry.lookup id) := by
  cases Shutdown.step_effect hstep with
  | registered c state => exact AList.lookup_insert _
  | unregistered c => exact AList.lookup_erase _ _
  | peerRegister peer => simp [Shutdown.Label.peer] at hown
  | peerUnregister id' => simp [Shutdown.Label.peer] at hown
  | _ => rfl

/-- A step changes the entries as it says. -/
theorem lookup_step (hstep : σ.step config l = some σ') (id : NodeId) :
    σ'.nodeRegistry.lookup id = ((announcement config id l).map Change.entry).getD (σ.nodeRegistry.lookup id) := by
  have hinsert : ∀ (id' : NodeId) (node : NodeId → Node), (σ.nodeRegistry.insert id' (node id')).lookup id =
      ((if id' = id then some (Change.registered (node id)) else none).map Change.entry).getD
        (σ.nodeRegistry.lookup id) := by
    intro id' node
    by_cases hid : id' = id
    · subst hid
      rw [if_pos rfl, AList.lookup_insert]
      rfl
    · rw [if_neg hid, AList.lookup_insert_ne (Ne.symm hid), Option.map_none, Option.getD_none]
  cases step_effect hstep with
  | startingRegistered id' lifecycle waiting => exact hinsert id' fun id => Bootstrap.node (config id) id .starting
  | readyRegistered id' lifecycle waiting => exact hinsert id' (localNode config)
  | shutdown id' lifecycle calls l τ waiting own moved =>
    show τ.nodeRegistry.lookup id = _
    rw [announcement]
    by_cases hid : id' = id
    · subst hid
      rw [if_pos rfl]
      exact lookup_shutdown own moved
    · rw [if_neg hid]
      exact Shutdown.lookup_step moved (Ne.symm hid) (by simp [own])
  | _ => rfl

theorem entry_step (h : σ.nodeRegistry.lookup id = entryOf (announcements config id tr))
    (hstep : σ.step config l = some σ') :
    σ'.nodeRegistry.lookup id = entryOf (announcements config id (tr ++ [l])) := by
  rw [announcements, filterMap_snoc, ← announcements, entryOf_append, ← h, lookup_step hstep]
  cases announcement config id l <;> rfl

/-! ## Where a server stands -/

/-- What a server has told the registry by the time it stands there. -/
inductive Standing (config : NodeId → ServerConfig) (id : NodeId) (nodeRegistry : NodeRegistry) :
    Option Server → List Shutdown.Label → List Change → Prop where
  | absent : Standing config id nodeRegistry none [] []
  | registeringStarting :
      Standing config id nodeRegistry (some (.registeringStarting (.fromState .starting))) [] []
  | registeringReady :
      Standing config id nodeRegistry (some (.registeringReady (.fromState .starting))) []
        ((arrival config id).take 1)
  | readying : Standing config id nodeRegistry (some (.readying (.fromState .starting))) [] (arrival config id)
  | failed (error : ServerError) (n : Nat) (early : n ≤ 1) :
      Standing config id nodeRegistry (some (.failed error)) [] ((arrival config id).take n)
  | running (lifecycle : ServerLifecycle) (calls : Table TaskId Stage) (own : List Shutdown.Label)
      (shutdown : Shutdown.Invariant (localNode config id) own
        ⟨localNode config id, lifecycle, nodeRegistry, calls⟩) :
      Standing config id nodeRegistry (some (.running lifecycle calls)) own
        (arrival config id ++ Shutdown.changes (localNode config id) own)

/-- The shutdown of a server depends on the registry through its own entry. -/
theorem shutdown_congr {nodeRegistry nodeRegistry' : NodeRegistry} {node : Node} {own : List Shutdown.Label}
    {lifecycle : ServerLifecycle} {calls : Table TaskId Stage}
    (h : Shutdown.Invariant node own ⟨node, lifecycle, nodeRegistry, calls⟩)
    (hentry : nodeRegistry'.lookup node.id = nodeRegistry.lookup node.id) :
    Shutdown.Invariant node own ⟨node, lifecycle, nodeRegistry', calls⟩ where
  localNode := rfl
  entry := hentry.trans h.entry
  course := by
    rcases h.course with huntouched | ⟨c, stage, n, hled⟩
    · exact .inl ⟨huntouched.begun, huntouched.ready, huntouched.changes, huntouched.uncalled, huntouched.workers⟩
    · exact .inr ⟨c, stage, n, hled.begun, hled.call, hled.reached, hled.changes, hled.others, hled.workers⟩

theorem Standing.congr {nodeRegistry nodeRegistry' : NodeRegistry} {server : Option Server}
    {own : List Shutdown.Label} {changes : List Change} (h : Standing config id nodeRegistry server own changes)
    (hentry : nodeRegistry'.lookup id = nodeRegistry.lookup id) :
    Standing config id nodeRegistry' server own changes := by
  cases h with
  | absent => exact .absent
  | registeringStarting => exact .registeringStarting
  | registeringReady => exact .registeringReady
  | readying => exact .readying
  | failed error n early => exact .failed error n early
  | running lifecycle calls own shutdown => exact .running lifecycle calls own (shutdown_congr shutdown hentry)

/-- The server that takes a step. -/
def Label.server : Label → NodeId
  | .begin id => id
  | .registerStarting id _ => id
  | .registerReady id _ => id
  | .ready id => id
  | .shutdown id _ => id

theorem shutdown?_other (h : l.server ≠ id) : shutdown? id l = none := by
  unfold shutdown?
  split
  · exact if_neg h
  · rfl

theorem announcement_other (h : l.server ≠ id) : announcement config id l = none := by
  unfold announcement
  split
  · exact if_neg h
  · exact if_neg h
  · exact if_neg h
  · rfl

/-- The steps of other servers leave a server where it is. -/
theorem Standing.other {own : List Shutdown.Label} {changes : List Change}
    (h : Standing config id σ.nodeRegistry (σ.servers.lookup id) own changes) (hstep : σ.step config l = some σ')
    (hother : l.server ≠ id) :
    Standing config id σ'.nodeRegistry (σ'.servers.lookup id) (own ++ (shutdown? id l).toList)
      (changes ++ (announcement config id l).toList) := by
  have hserver : σ'.servers.lookup id = σ.servers.lookup id := by
    cases step_effect hstep <;> exact AList.lookup_insert_ne (Ne.symm hother)
  have hentry : σ'.nodeRegistry.lookup id = σ.nodeRegistry.lookup id := by
    rw [lookup_step hstep, announcement_other hother, Option.map_none, Option.getD_none]
  rw [hserver, shutdown?_other hother, announcement_other hother, Option.toList_none, Option.toList_none,
    List.append_nil, List.append_nil]
  exact h.congr hentry

theorem Standing.own {own : List Shutdown.Label} {changes : List Change}
    (h : Standing config l.server σ.nodeRegistry (σ.servers.lookup l.server) own changes)
    (hentry : σ.nodeRegistry.lookup l.server = entryOf changes) (hstep : σ.step config l = some σ') :
    Standing config l.server σ'.nodeRegistry (σ'.servers.lookup l.server) (own ++ (shutdown? l.server l).toList)
      (changes ++ (announcement config l.server l).toList) := by
  cases step_effect hstep with
  | begun id fresh =>
    rw [Label.server, fresh] at h
    cases h
    rw [Label.server, State.setServer, AList.lookup_insert]
    exact .registeringStarting
  | refused id error fresh =>
    rw [Label.server, fresh] at h
    cases h
    rw [Label.server, State.setServer, AList.lookup_insert]
    exact .failed error 0 (Nat.zero_le 1)
  | startingRegistered id lifecycle waiting =>
    rw [Label.server, waiting] at h
    cases h
    rw [Label.server, State.setServer, AList.lookup_insert, announcement, if_pos rfl]
    exact .registeringReady
  | startingFailed id lifecycle error waiting =>
    rw [Label.server, waiting] at h
    cases h
    rw [Label.server, State.setServer, AList.lookup_insert]
    exact .failed registrationFailed 0 (Nat.zero_le 1)
  | readyRegistered id lifecycle waiting =>
    rw [Label.server, waiting] at h
    cases h
    rw [Label.server, State.setServer, AList.lookup_insert, announcement, if_pos rfl]
    exact .readying
  | readyFailed id lifecycle error waiting =>
    rw [Label.server, waiting] at h
    cases h
    rw [Label.server, State.setServer, AList.lookup_insert]
    exact .failed registrationFailed 1 (Nat.le_refl 1)
  | readied id lifecycle waiting starting =>
    rw [Label.server, waiting] at h
    cases h
    rw [Label.server, State.setServer, AList.lookup_insert]
    exact .running (.fromState .ready) ∅ [] ⟨rfl, hentry, .inl ⟨rfl, rfl, rfl, fun _ => rfl, by simp⟩⟩
  | readyRejected id lifecycle error waiting other =>
    rw [Label.server, waiting] at h
    cases h
    exact absurd rfl other
  | shutdown id lifecycle calls l τ waiting hpeer moved =>
    rw [Label.server, waiting] at h
    cases h with
    | running _ _ _ shutdown =>
      have hmoved := shutdown.step moved
      obtain ⟨node, lifecycle', nodeRegistry, calls'⟩ := τ
      obtain rfl : node = localNode config id := hmoved.localNode
      rw [Label.server, State.setServer, AList.lookup_insert, shutdown?, if_pos rfl, announcement, if_pos rfl,
        List.append_assoc]
      have hchanges : Shutdown.changes (localNode config id) own ++
          (Shutdown.change (localNode config id) l).toList = Shutdown.changes (localNode config id) (own ++ [l]) :=
        (filterMap_snoc _ own l).symm
      rw [hchanges]
      exact .running lifecycle' calls' (own ++ [l]) hmoved

/-- The registry and each server's own part in it. -/
structure Invariant (config : NodeId → ServerConfig) (tr : List Label) (σ : State) : Prop where
  entry : ∀ id, σ.nodeRegistry.lookup id = entryOf (announcements config id tr)
  standing : ∀ id, Standing config id σ.nodeRegistry (σ.servers.lookup id) (shutdowns id tr)
    (announcements config id tr)

theorem Invariant.step (h : Invariant config tr σ) (hstep : σ.step config l = some σ') :
    Invariant config (tr ++ [l]) σ' where
  entry id := entry_step (h.entry id) hstep
  standing id := by
    rw [shutdowns, announcements, filterMap_snoc, filterMap_snoc]
    by_cases hid : l.server = id
    · subst hid
      exact (h.standing _).own (h.entry _) hstep
    · exact (h.standing id).other hstep hid

theorem Invariant.run (h : (cluster config).Run State.new tr σ) : Invariant config tr σ :=
  Lts.Run.induct (P := Invariant config) ⟨fun _ => rfl, fun _ => .absent⟩
    (fun _ _ _ _ _ ih hstep => ih.step hstep) h

/-! ## The registry as a whole -/

theorem entryOf_eq_some {changes : List Change} {node : Node} :
    entryOf changes = some node ↔ changes.getLast? = some (.registered node) := by
  rcases List.eq_nil_or_concat changes with rfl | ⟨changes, change, rfl⟩
  · simp [entryOf]
  · rw [List.concat_eq_append, entryOf_append, List.getLast?_append, List.getLast?_singleton, Option.some_or,
      List.foldl_cons, List.foldl_nil, Option.some.injEq]
    cases change <;> simp [Change.entry]

/-- A server tells of itself alone. -/
theorem id_of_registered {node : Node} (h : Change.registered node ∈ life config id) : node.id = id := by
  simp only [life, arrival, Shutdown.plan, List.cons_append, List.nil_append, List.mem_cons, Change.registered.injEq,
    reduceCtorEq, List.not_mem_nil, or_false] at h
  rcases h with rfl | rfl | rfl | rfl <;> rfl

/-- What a server has told the registry is a beginning of its life. -/
theorem Standing.beginning {nodeRegistry : NodeRegistry} {server : Option Server} {own : List Shutdown.Label}
    {changes : List Change} (h : Standing config id nodeRegistry server own changes) :
    changes <+: life config id := by
  cases h with
  | absent => exact List.nil_prefix
  | registeringStarting => exact List.nil_prefix
  | registeringReady => exact (List.take_prefix 1 _).trans (List.prefix_append _ _)
  | readying => exact List.prefix_append _ _
  | failed error n early => exact (List.take_prefix n _).trans (List.prefix_append _ _)
  | running lifecycle calls own shutdown =>
    obtain ⟨n, _, hchanges⟩ := shutdown.changes_eq
    rw [hchanges]
    exact (List.prefix_append_right_inj _).mpr (List.take_prefix n _)

theorem Standing.of_failed {nodeRegistry : NodeRegistry} {error : ServerError} {own : List Shutdown.Label}
    {changes : List Change} (h : Standing config id nodeRegistry (some (.failed error)) own changes) :
    changes <+: (arrival config id).take 1 := by
  cases h with
  | failed _ n early => exact List.take_prefix_take_left early

theorem Standing.of_running {nodeRegistry : NodeRegistry} {lifecycle : ServerLifecycle} {calls : Table TaskId Stage}
    {own : List Shutdown.Label} {changes : List Change}
    (h : Standing config id nodeRegistry (some (.running lifecycle calls)) own changes) :
    Shutdown.Invariant (localNode config id) own ⟨localNode config id, lifecycle, nodeRegistry, calls⟩ ∧
      changes = arrival config id ++ Shutdown.changes (localNode config id) own := by
  cases h with
  | running _ _ _ shutdown => exact ⟨shutdown, rfl⟩

/-- What a running server has told the registry, by the state of its lifecycle. -/
theorem told_of_running {own : List Shutdown.Label} {nodeRegistry : NodeRegistry} {lifecycle : ServerLifecycle}
    {calls : Table TaskId Stage} {node : Node}
    (h : Shutdown.Invariant node own ⟨node, lifecycle, nodeRegistry, calls⟩) :
    (lifecycle.state = .ready → Shutdown.changes node own = []) ∧
    (lifecycle.state = .stopped → Shutdown.changes node own = Shutdown.plan node) ∧
    ∀ c, calls.lookup c = some (.returned (.ok ())) → lifecycle.state = .stopped := by
  rcases h.course with huntouched | ⟨c, stage, n, hled⟩
  · have hready : lifecycle.state = .ready := huntouched.ready
    refine ⟨fun _ => huntouched.changes, by simp [hready], ?_⟩
    intro c hreturned
    simp [huntouched.uncalled c] at hreturned
  · have hreached : Shutdown.Reached stage lifecycle.state n := hled.reached
    refine ⟨?_, ?_, ?_⟩
    · intro hready
      have hprocess := hreached.process_eq
      simp [hready] at hprocess
    · intro hstopped
      rw [hled.changes]
      rw [hstopped] at hreached
      cases hreached
      rfl
    · intro c' hreturned
      by_cases hc : c' = c
      · subst hc
        obtain rfl := Option.some.inj (hled.call.symm.trans hreturned)
        exact hreached.ok_iff.2 (hreached.ok_iff.1.mp rfl)
      · obtain ⟨state, hother⟩ := hled.others hreturned hc
        simp at hother

/-- **Servers that share a registry.** However many servers are built, run and
shut down over one registry, whatever it fails and whoever is interrupted: the
list is in order of the ids and has exactly the nodes their servers last told
of. A server tells of starting, ready, draining, offline and gone, in this order
and each once, as far as it comes; one whose build failed told of no more than
starting; one that runs is listed as ready while its lifecycle is ready, and has
told all and is not listed when it is stopped, as after a shutdown that
returned Ok. -/
theorem servers_share_registry (h : (cluster config).Run State.new tr σ) :
    (∃ nodes, σ.nodeRegistry.list none = .ok nodes ∧
      (nodes.Pairwise fun a b => a.id.entityId.text < b.id.entityId.text) ∧
      ∀ node, node ∈ nodes ↔ (announcements config node.id tr).getLast? = some (.registered node)) ∧
    (∀ id, announcements config id tr <+: life config id) ∧
    (∀ id error, σ.servers.lookup id = some (.failed error) →
      announcements config id tr <+: (arrival config id).take 1) ∧
    ∀ id lifecycle calls, σ.servers.lookup id = some (.running lifecycle calls) →
      arrival config id <+: announcements config id tr ∧
      (lifecycle.state = .ready → σ.nodeRegistry.get none id = .ok (some (localNode config id))) ∧
      (lifecycle.state = .stopped →
        announcements config id tr = life config id ∧ σ.nodeRegistry.get none id = .ok none) ∧
      ∀ c, calls.lookup c = some (.returned (.ok ())) → lifecycle.state = .stopped := by
  have hinv := Invariant.run h
  have hkeys : ∀ {id node}, σ.nodeRegistry.lookup id = some node → node.id = id := by
    intro id node hlookup
    rw [hinv.entry, entryOf_eq_some] at hlookup
    exact id_of_registered ((hinv.standing id).beginning.subset (List.mem_of_getLast? hlookup))
  refine ⟨⟨_, rfl, NodeRegistry.list_sorted hkeys rfl, ?_⟩, fun id => (hinv.standing id).beginning, ?_, ?_⟩
  · intro node
    rw [NodeRegistry.mem_list rfl, ← entryOf_eq_some, ← hinv.entry]
    constructor
    · intro hlisted
      obtain ⟨id, hlookup⟩ := hlisted
      rwa [hkeys hlookup]
    · intro hlookup
      exact ⟨node.id, hlookup⟩
  · intro id error hfailed
    exact (hfailed ▸ hinv.standing id).of_failed
  · intro id lifecycle calls hrunning
    obtain ⟨hshutdown, hchanges⟩ := (hrunning ▸ hinv.standing id).of_running
    obtain ⟨hready, hstopped, hreturned⟩ := told_of_running hshutdown
    have hentry : σ.nodeRegistry.get none id = .ok (entryOf (announcements config id tr)) :=
      congrArg Except.ok (hinv.entry id)
    refine ⟨hchanges ▸ List.prefix_append _ _, ?_, ?_, hreturned⟩
    · intro hstate
      rw [hentry, hchanges, hready hstate]
      rfl
    · intro hstate
      rw [hentry, hchanges, hstopped hstate]
      exact ⟨rfl, rfl⟩

/-- Two servers of which one fails to become ready, and the other is shut down. -/
def sideBySide : List Label :=
  [.begin ⟨⟨"left", by decide⟩⟩, .begin ⟨⟨"right", by decide⟩⟩,
    .registerStarting ⟨⟨"right", by decide⟩⟩ (.ok ()), .registerStarting ⟨⟨"left", by decide⟩⟩ (.ok ()),
    .registerReady ⟨⟨"left", by decide⟩⟩ (.ok ()),
    .registerReady ⟨⟨"right", by decide⟩⟩ (.error (.registryUnavailable "no answer")), .ready ⟨⟨"left", by decide⟩⟩,
    .shutdown ⟨⟨"left", by decide⟩⟩ (.beginShutdown 1 (.ok ())),
    .shutdown ⟨⟨"left", by decide⟩⟩ (.register 1 .draining (.ok ()))]

theorem servers_share_registry_two : ∃ nodes,
    ((cluster fun _ => default).after sideBySide (by decide)).nodeRegistry.list none = .ok nodes ∧
    ∀ node, node ∈ nodes ↔
      (announcements (fun _ => default) node.id sideBySide).getLast? = some (.registered node) :=
  have ⟨nodes, hlist, _, hnodes⟩ :=
    (servers_share_registry ((cluster fun _ => default).run_after sideBySide (by decide))).1
  ⟨nodes, hlist, hnodes⟩

end OrbitRelay.Cluster
