import OrbitRelay.Server.Bootstrap

/-
  The queue capacity, from the environment to a subscription.

  Two validations look at it, that of the configuration and that of the bus, and
  both refuse zero only. The channel of a subscription has an upper bound as
  well, and that is met no sooner than a client subscribes: `mpsc::channel`
  panics.
-/

namespace OrbitRelay

namespace MemoryEventBus

variable {b b' : State} {s : SubscriptionId} {filter : EventFilter} {error : SyncError}

/-- A call of `subscribe` up to its end, with the id it draws. A panic is `none`. -/
def State.subscribeCall (b : State) (s : SubscriptionId) (filter : EventFilter) : Option (Except SyncError State) :=
  match filter.validate with
  | .error error => some (.error error)
  | .ok () =>
    (Channel.new b.queueCapacity).map fun channel =>
      .ok { b with
        subscribers := b.subscribers.insert s ⟨filter, s⟩
        subscriptions := b.subscriptions.insert s (MemorySubscription.new filter channel) }

/-- The calls that succeed are the `subscribe` steps of the bus. -/
theorem State.step_subscribe_iff :
    b.step (.subscribe s filter) = some b' ↔
      (b.alive = true ∧ b.subscriptions.lookup s = none ∧ b.readLocked = false) ∧
        b.subscribeCall s filter = some (.ok b') := by
  simp only [State.step, State.subscribe, State.subscribeCall, Option.ite_none_right_eq_some]
  cases hvalid : filter.validate with
  | error error => simp
  | ok =>
    simp only [Option.map_eq_some_iff, Except.ok.injEq]
    constructor
    · intro h
      obtain ⟨⟨alive, _, fresh, unlocked⟩, hmade⟩ := h
      exact ⟨⟨alive, fresh, unlocked⟩, hmade⟩
    · intro h
      obtain ⟨⟨alive, fresh, unlocked⟩, hmade⟩ := h
      exact ⟨⟨alive, trivial, fresh, unlocked⟩, hmade⟩

/-- The calls that fail are its `subscribeFailed` steps. -/
theorem State.step_subscribeFailed_iff :
    b.step (.subscribeFailed filter error) = some b' ↔
      (b.alive = true ∧ b = b') ∧ b.subscribeCall s filter = some (.error error) := by
  simp only [State.step, State.subscribeFailed, State.subscribeCall, Option.ite_none_right_eq_some]
  cases hvalid : filter.validate with
  | error error => simp [and_right_comm]
  | ok => simp

/-- With a valid filter a call ends where the channel can be made. -/
theorem State.subscribeCall_ok_iff (hvalid : filter.validate = .ok ()) :
    (∃ b', b.subscribeCall s filter = some (.ok b')) ↔ 0 < b.queueCapacity ∧ b.queueCapacity ≤ maxPermits := by
  simp only [State.subscribeCall, hvalid, Channel.new]
  split
  · next hmade => simp [hmade]
  · next hpanic => simp [hpanic]

theorem State.withQueueCapacity_ok_iff {queueCapacity : Nat} :
    State.withQueueCapacity queueCapacity = .ok b ↔ queueCapacity ≠ 0 ∧ State.new queueCapacity = b := by
  unfold State.withQueueCapacity
  split
  · next hzero => simp [hzero]
  · next hpos => simp [hpos]

end MemoryEventBus

theorem ServerConfig.validate_ok_iff {config : ServerConfig} :
    config.validate = .ok () ↔ config.subscriptionQueueCapacity ≠ 0 := by
  unfold ServerConfig.validate
  split
  · next hzero => simp [hzero]
  · next hpos => simp [hpos]

/-- Every capacity but zero can be set in the environment. -/
theorem ServerConfig.load_capacity (parseNodeId : String → Option NodeId) {capacity : Nat} (hpos : 1 ≤ capacity)
    (hmax : capacity ≤ usizeMax) :
    ServerConfig.load parseNodeId none (some (some capacity.repr)) =
      .ok { (default : ServerConfig) with subscriptionQueueCapacity := capacity } := by
  have hparse : Text.parseUnsignedBelow usizeMax (Nat.toDigits 10 capacity) = some capacity := by
    rw [Text.parseUnsignedBelow, Text.parseUnsigned_toDigits, Option.filter_some]
    simp [hmax]
  have hvalid : ∀ config : ServerConfig, config.subscriptionQueueCapacity = capacity → config.validate = .ok () := by
    intro config hcapacity
    rw [ServerConfig.validate_ok_iff]
    omega
  simp [ServerConfig.load, hparse, hvalid]

/-- A configuration with any such capacity is built, into a bus of that capacity. -/
theorem Bootstrap.exists_build {config : ServerConfig} (hpos : config.subscriptionQueueCapacity ≠ 0) (newId : NodeId)
    (storeId : EntityId) : ∃ context, Bootstrap.build config newId storeId = .ok context ∧
      context.runtime.pipeline.bus = MemoryEventBus.State.new config.subscriptionQueueCapacity := by
  have hvalid := ServerConfig.validate_ok_iff.mpr hpos
  have hbus := MemoryEventBus.State.withQueueCapacity_ok_iff.mpr ⟨hpos, rfl⟩
  have hregister : ∀ (nodes : NodeRegistry) (node : Node), node.validate = .ok () →
      nodes.register none node = .ok (nodes.insert node.id node) := by
    intro nodes node hnode
    exact NodeRegistry.register_ok_iff.mpr ⟨rfl, hnode, rfl⟩
  have hbuilt : ∃ context, Bootstrap.build config newId storeId = .ok context := by
    simp only [Bootstrap.build, Bootstrap.buildWith, Outcome.bind_eq_ok, Outcome.mapError_eq_ok, Outcome.pure_eq_ok]
    exact ⟨_, (), hvalid, _, hbus, (), hvalid, _, rfl, _, hregister _ _ (node_valid ..), _,
      hregister _ _ (node_valid ..), _, rfl, rfl⟩
  obtain ⟨context, hcontext⟩ := hbuilt
  refine ⟨context, hcontext, ?_⟩
  simp only [Bootstrap.build, Outcome.bind_eq_ok, Outcome.mapError_eq_ok] at hcontext
  obtain ⟨_, _, b, hb, hwith⟩ := hcontext
  obtain rfl := (MemoryEventBus.State.withQueueCapacity_ok_iff.mp hb).2
  obtain ⟨_, _, hruntime, _⟩ := Bootstrap.buildWith_ok hwith
  rw [hruntime]

open MemoryEventBus in
/-- **Which queue capacities are usable.** On a bus that both validations have
accepted, whatever has become of it, a subscription with a valid filter succeeds
exactly if the capacity is not above that of a semaphore. Every capacity but
zero gets there: it can be set in the environment, and is built. -/
theorem accepted_capacity_usable_iff (capacity : Nat) :
    ((∀ config : ServerConfig, config.subscriptionQueueCapacity = capacity → config.validate = .ok () →
      ∀ b, State.withQueueCapacity capacity = .ok b →
      ∀ tr b', (memoryEventBus capacity).Run b tr b' →
      ∀ filter s, filter.validate = .ok () → ∃ b'', b'.subscribeCall s filter = some (.ok b'')) ↔
    capacity ≤ maxPermits) ∧
    (1 ≤ capacity → capacity ≤ usizeMax → ∀ parseNodeId newId storeId, ∃ config context,
      ServerConfig.load parseNodeId none (some (some capacity.repr)) = .ok config ∧
      Bootstrap.build config newId storeId = .ok context ∧
      context.runtime.pipeline.bus = State.new capacity) := by
  refine ⟨⟨?_, ?_⟩, ?_⟩
  · intro h
    by_contra hbig
    have hpos : capacity ≠ 0 := by
      intro hzero
      subst hzero
      exact hbig (Nat.zero_le _)
    have hall : EventFilter.all.validate = .ok () := by decide
    have hcall := h { (default : ServerConfig) with subscriptionQueueCapacity := capacity } rfl
      (ServerConfig.validate_ok_iff.mpr hpos) _ (State.withQueueCapacity_ok_iff.mpr ⟨hpos, rfl⟩) [] _
      (Lts.Run.nil _ _) .all default hall
    exact hbig ((State.subscribeCall_ok_iff hall).mp hcall).2
  · intro hle config _ _ b hb tr b' hrun filter s hvalid
    obtain ⟨hpos, rfl⟩ := State.withQueueCapacity_ok_iff.mp hb
    have hkept : b'.queueCapacity = capacity := State.run_queueCapacity hrun
    rw [State.subscribeCall_ok_iff hvalid, hkept]
    exact ⟨Nat.pos_of_ne_zero hpos, hle⟩
  · intro hpos hmax parseNodeId newId storeId
    have hne : { (default : ServerConfig) with subscriptionQueueCapacity := capacity }.subscriptionQueueCapacity ≠ 0 :=
      Nat.ne_of_gt hpos
    obtain ⟨context, hbuild, hbus⟩ := Bootstrap.exists_build hne newId storeId
    exact ⟨_, context, ServerConfig.load_capacity parseNodeId hpos hmax, hbuild, hbus⟩

open MemoryEventBus in
/-- The first subscription on a bus of one above the bound panics. -/
theorem accepted_capacity_panics : ¬ ∀ capacity ≤ usizeMax,
    ∀ config : ServerConfig, config.subscriptionQueueCapacity = capacity → config.validate = .ok () →
    ∀ b, State.withQueueCapacity capacity = .ok b →
    ∀ filter s, filter.validate = .ok () → ∃ b', b.subscribeCall s filter = some (.ok b') := by
  intro h
  obtain ⟨b, hcall⟩ := h (maxPermits + 1) (by decide)
    { (default : ServerConfig) with subscriptionQueueCapacity := maxPermits + 1 } rfl
    (ServerConfig.validate_ok_iff.mpr (by decide)) _ (State.withQueueCapacity_ok_iff.mpr ⟨by decide, rfl⟩) .all
    default (by decide)
  have hpanic : (State.new (maxPermits + 1)).subscribeCall default .all = none := by decide
  simp [hpanic] at hcall

end OrbitRelay
