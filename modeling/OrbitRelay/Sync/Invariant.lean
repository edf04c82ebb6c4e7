import OrbitRelay.Sync.Bus

/-
  What every reachable state of the bus satisfies.

  The map, the subscriptions and the publishes in progress are changed by
  different parties: an owner closes the receiver first and leaves the map
  later, a publish notes closed entries while it reads the map and removes them
  when it has let go of it. `WellFormed` says how the three fit together at any
  moment. Its core is `registered` and `entry`: as long as the bus lives, an
  open subscription has its own entry in the map, and an entry without an open
  subscription is one whose owner is about to detach.
-/

namespace OrbitRelay.MemoryEventBus

/-- How the parts of the bus fit together. -/
structure WellFormed (b : State) : Prop where
  subscription : ∀ {s m}, b.subscriptions.lookup s = some m → m.WellFormed b.queueCapacity
  entry : ∀ {s entry}, b.subscribers.lookup s = some entry →
    entry.sender = s ∧ ∃ m, b.subscriptions.lookup s = some m ∧ m.filter = entry.filter ∧
      (m.IsOpen ∨ m.Detaching)
  registered : b.alive = true → ∀ {s m}, b.subscriptions.lookup s = some m → m.IsOpen →
    ∃ entry, b.subscribers.lookup s = some entry
  /-- what a scan has left are entries of the map, each once -/
  remaining : ∀ {p pub}, b.publishes.lookup p = some pub → pub.stage ≠ .cleaning →
    pub.remaining.Nodup ∧ ∀ s ∈ pub.remaining, ∃ entry, b.subscribers.lookup s = some entry
  /-- what a publish will remove is closed -/
  closed : ∀ {p pub}, b.publishes.lookup p = some pub → ∀ s ∈ pub.closed,
    ∃ m, b.subscriptions.lookup s = some m ∧ ¬m.IsOpen
  lagging : ∀ {p pub s}, b.publishes.lookup p = some pub → pub.stage = .lagging s →
    ∃ m, b.subscriptions.lookup s = some m ∧ m.filter.matches pub.event = true
  dead : b.alive = false → b.subscribers = ∅ ∧ b.publishes = ∅

/-- Without a reader every publish in progress is past its scan. -/
theorem cleaning_of_unlocked {b : State} (h : b.readLocked = false) {p : TaskId} {pub : Publish}
    (hp : b.publishes.lookup p = some pub) : pub.stage = .cleaning := by
  rw [State.readLocked, List.any_eq_false] at h
  simpa using h _ (Table.mem_entries_iff.mpr hp)

namespace WellFormed

variable {b b' : State} {l : Label}

theorem new (queueCapacity : Nat) : WellFormed (State.new queueCapacity) := by
  constructor <;> simp [State.new]

/-! ## One subscription changes -/

/-- What a change of one subscription has to keep for the others' sake. -/
structure Update (capacity : Nat) (m m' : MemorySubscription) : Prop where
  wellFormed : m'.WellFormed capacity
  filter : m'.filter = m.filter
  stays_closed : ¬m.IsOpen → ¬m'.IsOpen

theorem setSubscription (h : WellFormed b) {s : SubscriptionId} {m m' : MemorySubscription}
    (hm : b.subscriptions.lookup s = some m) (hu : Update b.queueCapacity m m')
    (hlive : ∀ entry, b.subscribers.lookup s = some entry →
      m.IsOpen ∨ m.Detaching → m'.IsOpen ∨ m'.Detaching) :
    WellFormed { b with subscriptions := b.subscriptions.insert s m' } where
  subscription := by
    intro s' m₁ h₁
    rcases Table.lookup_insert_eq_some.mp h₁ with ⟨_, rfl⟩ | ⟨_, h₁⟩
    · exact hu.wellFormed
    · exact h.subscription h₁
  entry := by
    intro s' entry he
    obtain ⟨hsender, m₁, h₁, hfilter, hattached⟩ := h.entry he
    refine ⟨hsender, ?_⟩
    by_cases hs : s' = s
    · subst hs
      obtain rfl := Option.some.inj (hm.symm.trans h₁)
      exact ⟨m', AList.lookup_insert _, hu.filter.trans hfilter, hlive entry he hattached⟩
    · exact ⟨m₁, (AList.lookup_insert_ne hs).trans h₁, hfilter, hattached⟩
  registered := by
    intro halive s' m₁ h₁ hopen
    rcases Table.lookup_insert_eq_some.mp h₁ with ⟨rfl, rfl⟩ | ⟨_, h₁⟩
    · exact h.registered halive hm (Classical.byContradiction fun hc => hu.stays_closed hc hopen)
    · exact h.registered halive h₁ hopen
  remaining := h.remaining
  closed := by
    intro p pub hp s' hs'
    obtain ⟨m₁, h₁, hc⟩ := h.closed hp s' hs'
    by_cases hs : s' = s
    · subst hs
      obtain rfl := Option.some.inj (hm.symm.trans h₁)
      exact ⟨m', AList.lookup_insert _, hu.stays_closed hc⟩
    · exact ⟨m₁, (AList.lookup_insert_ne hs).trans h₁, hc⟩
  lagging := by
    intro p pub s' hp hstage
    obtain ⟨m₁, h₁, hmatch⟩ := h.lagging hp hstage
    by_cases hs : s' = s
    · subst hs
      obtain rfl := Option.some.inj (hm.symm.trans h₁)
      exact ⟨m', AList.lookup_insert _, by rw [hu.filter]; exact hmatch⟩
    · exact ⟨m₁, (AList.lookup_insert_ne hs).trans h₁, hmatch⟩
  dead := h.dead

theorem Update.trySend {m : MemorySubscription} {event : Event} {r : TrySend} {channel : Channel}
    {capacity : Nat} (hm : m.WellFormed capacity) (hs : m.channel.trySend event = (r, channel)) :
    Update capacity m { m with channel := channel } :=
  ⟨hm.trySend hs, rfl, by simp [MemorySubscription.IsOpen, Channel.trySend_closed hs]⟩

theorem Update.countMissed {m : MemorySubscription} {capacity : Nat} (hm : m.WellFormed capacity) :
    Update capacity m m.countMissed :=
  ⟨hm.countMissed, rfl, id⟩

theorem Update.step {m m' : MemorySubscription} {op : Op} {capacity : Nat} (hm : m.WellFormed capacity)
    (hs : m.step op = some m') : Update capacity m m' where
  wellFormed := hm.step hs
  filter := MemorySubscription.step_filter hs
  stays_closed := by
    simp only [MemorySubscription.IsOpen, Bool.not_eq_false]
    exact MemorySubscription.step_channel_closed hs

/-! ## One publish changes -/

/-- What a change of one publish has to say about it. -/
structure Fits (b : State) (pub : Publish) : Prop where
  remaining : pub.stage ≠ .cleaning →
    pub.remaining.Nodup ∧ ∀ s ∈ pub.remaining, ∃ entry, b.subscribers.lookup s = some entry
  closed : ∀ s ∈ pub.closed, ∃ m, b.subscriptions.lookup s = some m ∧ ¬m.IsOpen
  lagging : ∀ s, pub.stage = .lagging s →
    ∃ m, b.subscriptions.lookup s = some m ∧ m.filter.matches pub.event = true

theorem fits (h : WellFormed b) {p : TaskId} {pub : Publish} (hp : b.publishes.lookup p = some pub) :
    Fits b pub :=
  ⟨h.remaining hp, h.closed hp, fun _ => h.lagging hp⟩

/-- The publish after a send to `s` still fits. -/
theorem Fits.afterSend {pub : Publish} (h : Fits b pub) (scanning : pub.stage = .scanning)
    {s : SubscriptionId} {m : MemorySubscription} (hm : b.subscriptions.lookup s = some m)
    (hmatch : m.filter.matches pub.event = true) {result : TrySend} (hclosed : result = .closed → ¬m.IsOpen) :
    Fits b (pub.afterSend s s result) := by
  obtain ⟨hnodup, hin⟩ := h.remaining (by simp [scanning])
  have hrest : (pub.remaining.erase s).Nodup ∧
      ∀ s' ∈ pub.remaining.erase s, ∃ entry, b.subscribers.lookup s' = some entry :=
    ⟨hnodup.erase _, fun s' hs' => hin s' (List.mem_of_mem_erase hs')⟩
  cases result with
  | sent => exact ⟨fun _ => hrest, h.closed, h.lagging⟩
  | full =>
    refine ⟨fun _ => hrest, h.closed, ?_⟩
    intro s' hs'
    obtain rfl := Stage.lagging.inj hs'
    exact ⟨m, hm, hmatch⟩
  | closed =>
    refine ⟨fun _ => hrest, ?_, h.lagging⟩
    intro s' hs'
    rcases List.mem_append.mp hs' with hs' | hs'
    · exact h.closed s' hs'
    · obtain rfl := List.mem_singleton.mp hs'
      exact ⟨m, hm, hclosed rfl⟩

theorem setPublish (h : WellFormed b) (halive : b.alive = true) {pub : Publish} (hfits : Fits b pub) (p : TaskId) :
    WellFormed { b with publishes := b.publishes.insert p pub } where
  subscription := h.subscription
  entry := h.entry
  registered := h.registered
  remaining := by
    intro p' pub' hp'
    rcases Table.lookup_insert_eq_some.mp hp' with ⟨_, rfl⟩ | ⟨_, hp'⟩
    · exact hfits.remaining
    · exact h.remaining hp'
  closed := by
    intro p' pub' hp'
    rcases Table.lookup_insert_eq_some.mp hp' with ⟨_, rfl⟩ | ⟨_, hp'⟩
    · exact hfits.closed
    · exact h.closed hp'
  lagging := by
    intro p' pub' s hp'
    rcases Table.lookup_insert_eq_some.mp hp' with ⟨_, rfl⟩ | ⟨_, hp'⟩
    · exact hfits.lagging s
    · exact h.lagging hp'
  dead := fun hdead => absurd (halive.symm.trans hdead) (by simp)

theorem alive_of_running (h : WellFormed b) {p : TaskId} {pub : Publish}
    (hp : b.publishes.lookup p = some pub) : b.alive = true := by
  cases halive : b.alive with
  | true => rfl
  | false =>
    rw [(h.dead halive).2] at hp
    simp at hp

theorem endPublish (h : WellFormed b) (p : TaskId) :
    WellFormed { b with publishes := b.publishes.erase p } where
  subscription := h.subscription
  entry := h.entry
  registered := h.registered
  remaining := fun hp => h.remaining (Table.lookup_erase_eq_some.mp hp).2
  closed := fun hp => h.closed (Table.lookup_erase_eq_some.mp hp).2
  lagging := fun hp => h.lagging (Table.lookup_erase_eq_some.mp hp).2
  dead := by
    intro hdead
    obtain ⟨hsub, hpub⟩ := h.dead hdead
    exact ⟨hsub, by rw [hpub]; rfl⟩

/-! ## Entries leave the map -/

/-- Entries without an open subscription may leave while no scan runs. -/
theorem removeEntries (h : WellFormed b) (hlock : b.readLocked = false) (ids : List SubscriptionId)
    (hclosed : ∀ s ∈ ids, ∃ m, b.subscriptions.lookup s = some m ∧ ¬m.IsOpen) :
    WellFormed { b with subscribers := ids.foldl (fun t s => t.erase s) b.subscribers } where
  subscription := h.subscription
  entry := fun he => h.entry (Table.lookup_eraseAll_eq_some.mp he).2
  registered := by
    intro halive s m hm hopen
    obtain ⟨entry, he⟩ := h.registered halive hm hopen
    refine ⟨entry, Table.lookup_eraseAll_eq_some.mpr ⟨?_, he⟩⟩
    intro hs
    obtain ⟨m', hm', hc⟩ := hclosed s hs
    obtain rfl := Option.some.inj (hm.symm.trans hm')
    exact hc hopen
  remaining := fun hp hstage => absurd (cleaning_of_unlocked hlock hp) hstage
  closed := h.closed
  lagging := h.lagging
  dead := by
    intro hdead
    obtain ⟨hsub, hpub⟩ := h.dead hdead
    rw [hsub]
    exact ⟨Table.eraseAll_empty ids, hpub⟩

/-! ## The steps -/

theorem subscribe (h : WellFormed b) {s : SubscriptionId} {filter : EventFilter} {channel : Channel}
    (halive : b.alive = true) (hfresh : b.subscriptions.lookup s = none) (hlock : b.readLocked = false)
    (hmade : Channel.new b.queueCapacity = some channel) :
    WellFormed { b with
      subscribers := b.subscribers.insert s ⟨filter, s⟩
      subscriptions := b.subscriptions.insert s (MemorySubscription.new filter channel) } where
  subscription := by
    intro s' m hm
    rcases Table.lookup_insert_eq_some.mp hm with ⟨_, rfl⟩ | ⟨_, hm⟩
    · exact MemorySubscription.WellFormed.new hmade
    · exact h.subscription hm
  entry := by
    intro s' entry he
    rcases Table.lookup_insert_eq_some.mp he with ⟨rfl, rfl⟩ | ⟨hs, he⟩
    · refine ⟨rfl, _, AList.lookup_insert _, rfl, .inl ?_⟩
      rw [(Channel.new_eq_some hmade).2.2]
      rfl
    · obtain ⟨hsender, m, hm, hrest⟩ := h.entry he
      exact ⟨hsender, m, (AList.lookup_insert_ne hs).trans hm, hrest⟩
  registered := by
    intro _ s' m hm hopen
    rcases Table.lookup_insert_eq_some.mp hm with ⟨rfl, _⟩ | ⟨hs, hm⟩
    · exact ⟨_, AList.lookup_insert _⟩
    · obtain ⟨entry, he⟩ := h.registered halive hm hopen
      exact ⟨entry, (AList.lookup_insert_ne hs).trans he⟩
  remaining := fun hp hstage => absurd (cleaning_of_unlocked hlock hp) hstage
  closed := by
    intro p pub hp s' hs'
    obtain ⟨m, hm, hc⟩ := h.closed hp s' hs'
    have hne : s' ≠ s := by
      intro heq
      subst heq
      simp [hfresh] at hm
    exact ⟨m, (AList.lookup_insert_ne hne).trans hm, hc⟩
  lagging := by
    intro p pub s' hp hstage
    have hclean := cleaning_of_unlocked hlock hp
    rw [hclean] at hstage
    simp at hstage
  dead := fun hdead => absurd (halive.symm.trans hdead) (by simp)

theorem step (h : WellFormed b) (hstep : b.step l = some b') : WellFormed b' := by
  cases step_effect hstep with
  | subscribe s filter channel alive valid fresh unlocked made => exact h.subscribe alive fresh unlocked made
  | subscribeFailed => exact h
  | publish p event alive =>
    refine h.setPublish alive ⟨fun _ => ⟨b.subscribers.keys_nodup, ?_⟩, by simp, by simp⟩ p
    exact fun s hs => Table.mem_keys_iff.mp hs
  | skip p s pub entry running found scanning left =>
    refine h.setPublish (h.alive_of_running running) ?_ p
    have hfits := h.fits running
    refine ⟨fun hstage => ?_, hfits.closed, hfits.lagging⟩
    obtain ⟨hnodup, hin⟩ := hfits.remaining hstage
    exact ⟨hnodup.erase _, fun s' hs' => hin s' (List.mem_of_mem_erase hs')⟩
  | send p s result pub entry m channel running found receiver scanning left matched tried =>
    obtain ⟨hsender, m₁, hm₁, hfilter, _⟩ := h.entry found
    rw [hsender] at receiver ⊢
    obtain rfl := Option.some.inj (receiver.symm.trans hm₁)
    -- the entry's sender is the subscription with the entry's own id
    have hset := h.setSubscription receiver (Update.trySend (h.subscription receiver) tried)
      (fun _ _ => by
        simp [MemorySubscription.IsOpen, MemorySubscription.Detaching, Channel.trySend_closed tried])
    refine hset.setPublish (h.alive_of_running running) ?_ p
    have hchannel : { m with channel := channel }.filter.matches pub.event = true := by
      rw [← matched, ← hfilter]
    apply (hset.fits running).afterSend scanning (AList.lookup_insert _) hchannel
    intro heq
    subst heq
    obtain ⟨hclosed, rfl⟩ := Channel.trySend_eq tried
    simp [MemorySubscription.IsOpen, hclosed]
  | countMissed p s pub m running receiver lagging =>
    have hset := h.setSubscription receiver (Update.countMissed (h.subscription receiver)) (fun _ _ => id)
    refine hset.setPublish (h.alive_of_running running) ?_ p
    have hfits := hset.fits running
    exact ⟨fun _ => hfits.remaining (by simp [lagging]), hfits.closed, by simp⟩
  | published p => exact h.endPublish p
  | scanned p pub running =>
    refine h.setPublish (h.alive_of_running running) ?_ p
    have hfits := h.fits running
    exact ⟨by simp, hfits.closed, by simp⟩
  | cleanUp p pub running cleaning unlocked =>
    -- the entries it removes met a closed channel, and that stays closed
    exact (h.removeEntries unlocked pub.closed (h.closed running)).endPublish p
  | owner s op m m' owned stepped permitted attached =>
    exact h.setSubscription owned (Update.step (h.subscription owned) stepped)
      fun _ _ => MemorySubscription.step_attached stepped attached
  | detach s m m' owned stepped unlocked =>
    have hclosed : ∀ s' ∈ [s], ∃ m, b.subscriptions.lookup s' = some m ∧ ¬m.IsOpen := by
      intro s' hs'
      obtain rfl := List.mem_singleton.mp hs'
      exact ⟨m, owned, MemorySubscription.step_detach_closed (h.subscription owned) stepped⟩
    -- first the entry leaves the map, then the owner is done
    refine (h.removeEntries unlocked [s] hclosed).setSubscription owned
      (Update.step (h.subscription owned) stepped) ?_
    intro entry he
    exact absurd rfl (Table.lookup_erase_eq_some.mp he).1
  | dropBus alive quiet =>
    have hnone := Table.keys_eq_nil_iff.mp quiet
    exact { h with
      entry := by simp
      registered := by simp
      remaining := by simp [hnone]
      dead := fun _ => ⟨rfl, hnone⟩ }

/-- A send goes to the channel of the subscription it names, and matches its filter. -/
theorem send_step (h : WellFormed b) {p : TaskId} {s : SubscriptionId} {event : Event} {result : TrySend}
    (hstep : b.step (.send p s event result) = some b') : ∃ m channel,
      b.subscriptions.lookup s = some m ∧ m.filter.matches event = true ∧
      m.channel.trySend event = (result, channel) ∧
      b'.subscriptions.lookup s = some { m with channel := channel } := by
  cases step_effect hstep with
  | send p s result pub entry m channel running found receiver scanning left matched tried =>
    obtain ⟨hsender, m₁, hm₁, hfilter, _⟩ := h.entry found
    rw [hsender] at receiver ⊢
    obtain rfl := Option.some.inj (receiver.symm.trans hm₁)
    exact ⟨m, channel, receiver, by rw [hfilter]; exact matched, tried, AList.lookup_insert _⟩

/-- A subscription keeps its filter and, once closed, stays closed. -/
theorem subscription_step (h : WellFormed b) (hstep : b.step l = some b') {s : SubscriptionId}
    {m : MemorySubscription} (hm : b.subscriptions.lookup s = some m) :
    ∃ m', b'.subscriptions.lookup s = some m' ∧ m'.filter = m.filter ∧ (m'.IsOpen → m.IsOpen) := by
  -- the only changes are updates, and a new subscription has a new id
  have hchange : ∀ {s₁ m₁ m₁'}, b.subscriptions.lookup s₁ = some m₁ → Update b.queueCapacity m₁ m₁' →
      ∃ m', (b.subscriptions.insert s₁ m₁').lookup s = some m' ∧ m'.filter = m.filter ∧
        (m'.IsOpen → m.IsOpen) := by
    intro s₁ m₁ m₁' h₁ hu
    by_cases hs : s = s₁
    · subst hs
      obtain rfl := Option.some.inj (hm.symm.trans h₁)
      exact ⟨m₁', AList.lookup_insert _, hu.filter, fun hopen => Classical.byContradiction fun hc =>
        hu.stays_closed hc hopen⟩
    · exact ⟨m, (AList.lookup_insert_ne hs).trans hm, rfl, id⟩
  cases step_effect hstep with
  | subscribe s' filter channel alive valid fresh =>
    have hs : s ≠ s' := by
      intro heq
      subst heq
      simp [fresh] at hm
    exact ⟨m, (AList.lookup_insert_ne hs).trans hm, rfl, id⟩
  | send p s' result pub entry m₁ channel running found receiver scanning left matched tried =>
    exact hchange receiver (Update.trySend (h.subscription receiver) tried)
  | countMissed p s' pub m₁ running receiver =>
    exact hchange receiver (Update.countMissed (h.subscription receiver))
  | owner s' op m₁ m₁' owned stepped => exact hchange owned (Update.step (h.subscription owned) stepped)
  | detach s' m₁ m₁' owned stepped => exact hchange owned (Update.step (h.subscription owned) stepped)
  | _ => exact ⟨m, hm, rfl, id⟩

/-- The same over a run. -/
theorem subscription_run {queueCapacity : Nat} {tr : List Label} (h : WellFormed b)
    (hrun : (memoryEventBus queueCapacity).Run b tr b') {s : SubscriptionId} {m : MemorySubscription}
    (hm : b.subscriptions.lookup s = some m) :
    ∃ m', b'.subscriptions.lookup s = some m' ∧ m'.filter = m.filter ∧ (m'.IsOpen → m.IsOpen) := by
  refine (Lts.Run.induct (P := fun _ b' => WellFormed b' ∧ ∃ m', b'.subscriptions.lookup s = some m' ∧
    m'.filter = m.filter ∧ (m'.IsOpen → m.IsOpen)) ⟨h, m, hm, rfl, id⟩ ?_ hrun).2
  intro tr t l u _ ih hstep
  obtain ⟨ht, mt, hmt, hfilter, hopen⟩ := ih
  obtain ⟨mu, hmu, hfilter', hopen'⟩ := ht.subscription_step hstep hmt
  exact ⟨ht.step hstep, mu, hmu, hfilter'.trans hfilter, hopen ∘ hopen'⟩

theorem run {queueCapacity : Nat} {tr : List Label} (h : (memoryEventBus queueCapacity).Run
    (State.new queueCapacity) tr b) : WellFormed b :=
  h.invariant (fun _ _ _ => WellFormed.step) (WellFormed.new queueCapacity)

end WellFormed

end OrbitRelay.MemoryEventBus
