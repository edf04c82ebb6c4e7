import OrbitRelay.Lib.LossyQueue
import OrbitRelay.Sync.Delivery

/-
  The books of one subscription.

  Seen from one subscription, a bus is a lossy queue: sends that find room,
  sends that find the queue full, additions to the lag counter, and the
  owner's checks and receives. `observe` reads the moves off a trace, `history`
  is the ledger they leave, and `accounts_run` says that the bus makes only
  moves such a queue allows and that the subscription's fields are the ledger's
  entries: the channel holds what is waiting, the counter what is counted, and
  a publisher stands between its refused send and its addition exactly when its
  drop is uncounted.
-/

namespace OrbitRelay.MemoryEventBus

open LossyQueue

/-- What a step of the owner is to the queue. -/
def moveOf : Op → Option (Move TaskId Event)
  | .nextEvent (.lagged missed) => some (.check missed)
  | .nextEvent (.receive true) => some (.check 0)
  | .received (some event) => some (.take event)
  | _ => none

/-- What a step of the bus is to the queue of `s`. -/
def observe (s : SubscriptionId) : Label → Option (Move TaskId Event)
  | .send p s' event result =>
    if s' = s then
      match result with
      | .sent => some (.accept event)
      | .full => some (.drop p event)
      | .closed => none
    else none
  | .countMissed p s' => if s' = s then some (.count p) else none
  | .owner s' op => if s' = s then moveOf op else none
  | _ => none

/-- The ledger of `s` after a trace. -/
def history (s : SubscriptionId) (tr : List Label) : Ledger TaskId Event :=
  Ledger.empty.replay u64Max (tr.filterMap (observe s))

/-- Task `p` has found the queue of `s` full and not yet counted it. -/
def LaggingAt (publishes : Table TaskId Publish) (s : SubscriptionId) (p : TaskId) : Prop :=
  ∃ pub, publishes.lookup p = some pub ∧ pub.stage = .lagging s

/-- The state of the bus is what the ledger of `s` says it is. -/
structure Accounts (queueCapacity : Nat) (s : SubscriptionId) (b : State) (L : Ledger TaskId Event) : Prop where
  wellFormed : WellFormed b
  capacity : b.queueCapacity = queueCapacity
  sound : Sound queueCapacity u64Max L
  unborn : b.subscriptions.lookup s = none → L = .empty
  queue : ∀ {m}, b.subscriptions.lookup s = some m → L.waiting.map Prod.snd = m.channel.queue
  counter : ∀ {m}, b.subscriptions.lookup s = some m → m.lagged = L.counted.length
  fresh : ∀ {m}, b.subscriptions.lookup s = some m → m.receiveAfterLag = true ∨ m.phase = .receiving →
    L.fresh = true
  lagging : ∀ {p}, p ∈ L.uncounted.map Prod.fst ↔ LaggingAt b.publishes s p

variable {queueCapacity : Nat} {s : SubscriptionId} {b b' : State} {L : Ledger TaskId Event}
  {m m' : MemorySubscription} {l : Label} {p q : TaskId} {pub : Publish} {publishes : Table TaskId Publish}

/-! ## Who stands before an addition -/

theorem laggingAt_insert : LaggingAt (publishes.insert p pub) s q ↔
    (q = p ∧ pub.stage = .lagging s) ∨ (q ≠ p ∧ LaggingAt publishes s q) := by
  simp only [LaggingAt, Table.lookup_insert_eq_some]
  constructor
  · intro hrefused
    obtain ⟨pub', ⟨rfl, rfl⟩ | ⟨hne, hlookup⟩, hstage⟩ := hrefused
    · exact .inl ⟨rfl, hstage⟩
    · exact .inr ⟨hne, pub', hlookup, hstage⟩
  · intro hrefused
    obtain ⟨rfl, hstage⟩ | ⟨hne, pub', hlookup, hstage⟩ := hrefused
    · exact ⟨pub, .inl ⟨rfl, rfl⟩, hstage⟩
    · exact ⟨pub', .inr ⟨hne, hlookup⟩, hstage⟩

theorem not_laggingAt (h : publishes.lookup p = some pub) (hstage : pub.stage ≠ .lagging s) :
    ¬LaggingAt publishes s p := by
  intro hrefused
  obtain ⟨pub', h', hstage'⟩ := hrefused
  obtain rfl := Option.some.inj (h.symm.trans h')
  exact hstage hstage'

theorem not_laggingAt_of_none (h : publishes.lookup p = none) : ¬LaggingAt publishes s p := by
  intro hrefused
  obtain ⟨pub', h', _⟩ := hrefused
  simp [h] at h'

/-- A publish that stands before no addition, neither before nor after. -/
theorem laggingAt_insert_of_not (h : ¬LaggingAt publishes s p) (hstage : pub.stage ≠ .lagging s) :
    LaggingAt (publishes.insert p pub) s q ↔ LaggingAt publishes s q := by
  rw [laggingAt_insert]
  constructor
  · intro hrefused
    obtain ⟨_, hs⟩ | ⟨_, hq⟩ := hrefused
    · exact absurd hs hstage
    · exact hq
  · intro hq
    exact .inr ⟨fun heq => h (heq ▸ hq), hq⟩

theorem laggingAt_erase_of_not (h : ¬LaggingAt publishes s p) :
    LaggingAt (publishes.erase p) s q ↔ LaggingAt publishes s q := by
  constructor
  · intro hrefused
    obtain ⟨pub', hlookup, hstage⟩ := hrefused
    exact ⟨pub', (Table.lookup_erase_eq_some.mp hlookup).2, hstage⟩
  · intro hq
    obtain ⟨pub', hlookup, hstage⟩ := hq
    exact ⟨pub', Table.lookup_erase_eq_some.mpr ⟨fun heq => h (heq ▸ ⟨pub', hlookup, hstage⟩), hlookup⟩, hstage⟩

/-! ## The bus makes the moves of a lossy queue -/

namespace Accounts

theorem new (queueCapacity : Nat) (s : SubscriptionId) :
    Accounts queueCapacity s (State.new queueCapacity) .empty where
  wellFormed := WellFormed.new queueCapacity
  capacity := rfl
  sound := Sound.empty
  unborn := fun _ => rfl
  queue := by simp [State.new]
  counter := by simp [State.new]
  fresh := by simp [State.new]
  lagging := by simp [State.new, LaggingAt, Ledger.empty]

/-- The queue of a subscription has room for one event at least. -/
theorem positive (h : Accounts queueCapacity s b L) (hm : b.subscriptions.lookup s = some m) :
    0 < queueCapacity := by
  rw [← h.capacity]
  exact (h.wellFormed.subscription hm).positive

/-- A step that does not touch the subscription. -/
theorem idle (h : Accounts queueCapacity s b L) (hwf : WellFormed b') (hcap : b'.queueCapacity = b.queueCapacity)
    (hsub : b'.subscriptions.lookup s = b.subscriptions.lookup s)
    (hlag : ∀ p, LaggingAt b'.publishes s p ↔ LaggingAt b.publishes s p) : Accounts queueCapacity s b' L where
  wellFormed := hwf
  capacity := hcap.trans h.capacity
  sound := h.sound
  unborn := fun hnone => h.unborn (hsub.symm.trans hnone)
  queue := fun hm => h.queue (hsub.symm.trans hm)
  counter := fun hm => h.counter (hsub.symm.trans hm)
  fresh := fun hm => h.fresh (hsub.symm.trans hm)
  lagging := h.lagging.trans (hlag _).symm

/-- A step of the subscription that the ledger does not see. -/
theorem change (h : Accounts queueCapacity s b L) (hwf : WellFormed b') (hcap : b'.queueCapacity = b.queueCapacity)
    (hm : b.subscriptions.lookup s = some m) (hm' : b'.subscriptions.lookup s = some m')
    (hqueue : m'.channel.queue = m.channel.queue) (hlagged : m'.lagged = m.lagged)
    (hfresh : m'.receiveAfterLag = true ∨ m'.phase = .receiving →
      m.receiveAfterLag = true ∨ m.phase = .receiving)
    (hlag : ∀ p, LaggingAt b'.publishes s p ↔ LaggingAt b.publishes s p) : Accounts queueCapacity s b' L where
  wellFormed := hwf
  capacity := hcap.trans h.capacity
  sound := h.sound
  unborn := by simp [hm']
  queue := by
    intro m₁ h₁
    obtain rfl := Option.some.inj (hm'.symm.trans h₁)
    exact (h.queue hm).trans hqueue.symm
  counter := by
    intro m₁ h₁
    obtain rfl := Option.some.inj (hm'.symm.trans h₁)
    exact hlagged.trans (h.counter hm)
  fresh := by
    intro m₁ h₁ hf
    obtain rfl := Option.some.inj (hm'.symm.trans h₁)
    exact h.fresh hm (hfresh hf)
  lagging := h.lagging.trans (hlag _).symm

/-- A step of the subscription that is a move of its queue. -/
theorem move (h : Accounts queueCapacity s b L) (hwf : WellFormed b') (hcap : b'.queueCapacity = b.queueCapacity)
    (hm' : b'.subscriptions.lookup s = some m') {mv : Move TaskId Event}
    (hallows : L.Allows queueCapacity mv)
    (hqueue : (L.record u64Max mv).waiting.map Prod.snd = m'.channel.queue)
    (hcounter : m'.lagged = (L.record u64Max mv).counted.length)
    (hfresh : m'.receiveAfterLag = true ∨ m'.phase = .receiving → (L.record u64Max mv).fresh = true)
    (hlag : ∀ {p}, p ∈ (L.record u64Max mv).uncounted.map Prod.fst ↔ LaggingAt b'.publishes s p) :
    ∃ L', (lossyQueue TaskId Event queueCapacity u64Max).Run L [mv] L' ∧ Accounts queueCapacity s b' L' := by
  have hstep : (lossyQueue TaskId Event queueCapacity u64Max).step L mv = some (L.record u64Max mv) :=
    step_iff.mpr ⟨hallows, rfl⟩
  have hpos : 0 < queueCapacity := by
    rw [← h.capacity, ← hcap]
    exact (hwf.subscription hm').positive
  refine ⟨L.record u64Max mv, Lts.Run.single hstep, ?_⟩
  exact {
    wellFormed := hwf
    capacity := hcap.trans h.capacity
    sound := Sound.step hpos h.sound hstep
    unborn := by simp [hm']
    queue := by
      intro m₁ h₁
      obtain rfl := Option.some.inj (hm'.symm.trans h₁)
      exact hqueue
    counter := by
      intro m₁ h₁
      obtain rfl := Option.some.inj (hm'.symm.trans h₁)
      exact hcounter
    fresh := by
      intro m₁ h₁
      obtain rfl := Option.some.inj (hm'.symm.trans h₁)
      exact hfresh
    lagging := hlag }

/-- What `follow` has to show of a step. -/
def Follows (queueCapacity : Nat) (s : SubscriptionId) (b' : State) (L : Ledger TaskId Event) (l : Label) : Prop :=
  ∃ L', (lossyQueue TaskId Event queueCapacity u64Max).Run L (observe s l).toList L' ∧
    Accounts queueCapacity s b' L'

theorem follows_of_none (h : Accounts queueCapacity s b' L) (hl : observe s l = none) :
    Follows queueCapacity s b' L l := by
  refine ⟨L, ?_, h⟩
  rw [hl]
  exact Lts.Run.nil _ _

theorem follows_owner_of_none (h : Accounts queueCapacity s b' L) {op : Op} (hop : moveOf op = none) :
    Follows queueCapacity s b' L (.owner s op) :=
  h.follows_of_none (by simp [observe, hop])

theorem waiting_length (h : Accounts queueCapacity s b L) (hm : b.subscriptions.lookup s = some m) :
    L.waiting.length = m.channel.queue.length := by
  rw [← h.queue hm, List.length_map]

/-- A send to the subscription. -/
theorem follow_send (h : Accounts queueCapacity s b L) (hm : b.subscriptions.lookup s = some m)
    {result : TrySend} {channel : Channel} (running : b.publishes.lookup p = some pub)
    (scanning : pub.stage = .scanning) (tried : m.channel.trySend pub.event = (result, channel))
    (hwf : WellFormed { b with
      subscriptions := b.subscriptions.insert s { m with channel := channel }
      publishes := b.publishes.insert p (pub.afterSend s s result) }) :
    Follows queueCapacity s { b with
      subscriptions := b.subscriptions.insert s { m with channel := channel }
      publishes := b.publishes.insert p (pub.afterSend s s result) } L (.send p s pub.event result) := by
  have hcap : m.channel.capacity = queueCapacity :=
    (h.wellFormed.subscription hm).capacity_eq.trans h.capacity
  have hnot : ¬LaggingAt b.publishes s p := not_laggingAt running (by simp [scanning])
  have hqueue := h.queue hm
  have hcount := h.counter hm
  have hfresh := h.fresh hm
  have hsend := Channel.trySend_eq tried
  cases result with
  | sent =>
    obtain ⟨_, hroom, rfl⟩ := hsend
    simp only [Follows, observe, if_true, Option.toList_some]
    refine h.move hwf rfl (AList.lookup_insert _) ?_ ?_ hcount hfresh ?_
    · rw [Ledger.Allows, h.waiting_length hm, ← hcap]
      exact hroom
    · rw [Ledger.waiting, Ledger.record, Sound.waiting_append L _ h.sound.taken_le, List.map_append, hqueue]
      rfl
    · exact h.lagging.trans (laggingAt_insert_of_not hnot (by simp [Publish.afterSend, scanning])).symm
  | full =>
    obtain ⟨_, hfull, rfl⟩ := hsend
    have hlen : L.waiting.length = queueCapacity := by
      have hroom := (h.wellFormed.subscription hm).room
      rw [h.capacity] at hroom
      rw [h.waiting_length hm]
      omega
    simp only [Follows, observe, if_true, Option.toList_some]
    refine h.move hwf rfl (AList.lookup_insert _) ⟨hlen, h.lagging.not.mpr hnot⟩ hqueue hcount hfresh ?_
    -- the publisher that was refused is the one that now owes an addition
    intro q
    have hq := @h.lagging q
    simp only [Ledger.record, List.map_append, List.mem_append, hq, List.map_cons, List.map_nil,
      List.mem_singleton, laggingAt_insert, Publish.afterSend]
    by_cases hqp : q = p
    · simp [hqp]
    · simp [hqp]
  | closed =>
    -- a closed channel takes no event and refuses none: there is no move to make
    obtain ⟨_, rfl⟩ := hsend
    refine follows_of_none ?_ (by simp [observe])
    exact h.change hwf rfl hm (AList.lookup_insert _) rfl rfl id
      fun q => laggingAt_insert_of_not hnot (by simp [Publish.afterSend, scanning])

/-- An addition to the counter of the subscription. -/
theorem follow_countMissed (h : Accounts queueCapacity s b L) (hm : b.subscriptions.lookup s = some m)
    (running : b.publishes.lookup p = some pub) (lagging : pub.stage = .lagging s)
    (hwf : WellFormed { b with
      subscriptions := b.subscriptions.insert s m.countMissed
      publishes := b.publishes.insert p { pub with stage := .scanning } }) :
    Follows queueCapacity s { b with
      subscriptions := b.subscriptions.insert s m.countMissed
      publishes := b.publishes.insert p { pub with stage := .scanning } } L (.countMissed p s) := by
  have howner : p ∈ L.uncounted.map Prod.fst := h.lagging.mpr ⟨pub, running, lagging⟩
  have hqueue := h.queue hm
  have hfresh := h.fresh hm
  simp only [Follows, observe, if_true, Option.toList_some]
  refine h.move hwf rfl (AList.lookup_insert _) howner hqueue ?_ hfresh ?_
  -- the counter and what it stands for stop at the same limit
  · rw [h.sound.count_length howner, MemorySubscription.countMissed, h.counter hm]
  · intro q
    have hq := @h.lagging q
    simp only [Ledger.record, laggingAt_insert, reduceCtorEq, and_false, false_or, ← hq, List.mem_map,
      List.mem_filter, decide_eq_true_eq]
    -- the addition settles the drop of this publisher and of no other
    constructor
    · intro hmem
      obtain ⟨x, ⟨hx, hne⟩, rfl⟩ := hmem
      exact ⟨hne, x, hx, rfl⟩
    · intro hmem
      obtain ⟨hne, x, hx, rfl⟩ := hmem
      exact ⟨x, ⟨hx, hne⟩, rfl⟩

/-- A step of the owner. -/
theorem follow_owner (h : Accounts queueCapacity s b L) (hm : b.subscriptions.lookup s = some m) {op : Op}
    (stepped : m.step op = some m') (hwf : WellFormed b') (hcap : b'.queueCapacity = b.queueCapacity)
    (hm' : b'.subscriptions.lookup s = some m') (hpub : b'.publishes = b.publishes) :
    Follows queueCapacity s b' L (.owner s op) := by
  have hlag : ∀ q, LaggingAt b'.publishes s q ↔ LaggingAt b.publishes s q := by simp [hpub]
  have hlagging : ∀ {q}, q ∈ L.uncounted.map Prod.fst ↔ LaggingAt b'.publishes s q := fun {q} =>
    h.lagging.trans (hlag q).symm
  have hqueue := h.queue hm
  have hcount := h.counter hm
  have hchecked := (h.wellFormed.subscription hm).receiving_checked
  cases MemorySubscription.step_effect stepped with
  | lagging idle closed check missed =>
    simp only [Follows, observe, moveOf, if_true, Option.toList_some]
    exact h.move hwf hcap hm' hcount hqueue (by simp [Ledger.record, hcount]) (fun _ => rfl) hlagging
  | checked idle closed check missed =>
    -- a check that finds the counter at zero announces nothing, and is a check all the same
    simp only [Follows, observe, moveOf, if_true, Option.toList_some]
    exact h.move hwf hcap hm' (missed.symm.trans hcount) hqueue hcount (fun _ => rfl) hlagging
  | received event queue receiving head =>
    have hhead : (L.waiting.map Prod.snd).head? = some event := by rw [hqueue, head, List.head?_cons]
    simp only [Follows, observe, moveOf, if_true, Option.toList_some]
    refine h.move hwf hcap hm' ⟨h.fresh hm (.inr receiving), ?_⟩ ?_ hcount ?_ hlagging
    · rw [← List.head?_map]
      exact hhead
    · rw [Ledger.waiting, Ledger.record, ← List.tail_drop, List.map_tail, ← Ledger.waiting, hqueue, head]
      rfl
    · simp [hchecked receiving]
  | unchecked idle closed check =>
    exact follows_owner_of_none (h.change hwf hcap hm hm' rfl rfl (fun _ => .inl check) hlag) rfl
  | ended receiving =>
    exact follows_owner_of_none (h.change hwf hcap hm hm' rfl rfl (fun _ => .inr receiving) hlag) rfl
  | cancelled receiving =>
    exact follows_owner_of_none (h.change hwf hcap hm hm' rfl rfl (fun _ => .inr receiving) hlag) rfl
  | refused => exact follows_owner_of_none (h.change hwf hcap hm hm' rfl rfl id hlag) rfl
  | closedAgain => exact follows_owner_of_none (h.change hwf hcap hm hm' rfl rfl id hlag) rfl
  | closed => exact follows_owner_of_none (h.change hwf hcap hm hm' rfl rfl (by simp +contextual) hlag) rfl
  | drop => exact follows_owner_of_none (h.change hwf hcap hm hm' rfl rfl (by simp +contextual) hlag) rfl
  | closeDone => exact follows_owner_of_none (h.change hwf hcap hm hm' rfl rfl (by simp +contextual) hlag) rfl
  | dropDone => exact follows_owner_of_none (h.change hwf hcap hm hm' rfl rfl (by simp +contextual) hlag) rfl

/-- A step of the bus is a move of the queue of `s`, or none. -/
theorem follow (h : Accounts queueCapacity s b L) (hstep : b.step l = some b') :
    Follows queueCapacity s b' L l := by
  have hwf := h.wellFormed.step hstep
  cases step_effect hstep with
  | subscribe s' filter channel alive valid fresh unlocked made =>
    refine follows_of_none ?_ rfl
    -- a new subscription has an empty ledger, and no other one changes
    by_cases hs : s = s'
    · subst hs
      obtain rfl := h.unborn fresh
      obtain ⟨_, _, rfl⟩ := Channel.new_eq_some made
      have hm : ∀ {m}, (b.subscriptions.insert s (MemorySubscription.new filter ⟨b.queueCapacity, [], false⟩)).lookup s =
          some m → MemorySubscription.new filter ⟨b.queueCapacity, [], false⟩ = m := by
        simp [AList.lookup_insert]
      exact { h with
        wellFormed := hwf
        unborn := fun _ => rfl
        queue := fun h₁ => by rw [← hm h₁]; rfl
        counter := fun h₁ => by rw [← hm h₁]; rfl
        fresh := fun h₁ => by simp [← hm h₁, MemorySubscription.new] }
    · exact h.idle hwf rfl (AList.lookup_insert_ne hs) fun _ => Iff.rfl
  | subscribeFailed => exact follows_of_none h rfl
  | publish p event alive idle =>
    exact follows_of_none (h.idle hwf rfl rfl fun q =>
      laggingAt_insert_of_not (not_laggingAt_of_none idle) (by simp)) rfl
  | skip p s' pub entry running found scanning =>
    exact follows_of_none (h.idle hwf rfl rfl fun q =>
      laggingAt_insert_of_not (not_laggingAt running (by simp [scanning])) (by simp [scanning])) rfl
  | send p s' result pub entry m channel running found receiver scanning left matched tried =>
    obtain ⟨hsender, _⟩ := h.wellFormed.entry found
    rw [hsender] at receiver hwf ⊢
    by_cases hs : s' = s
    · subst hs
      exact h.follow_send receiver running scanning tried hwf
    · have hnot : ¬LaggingAt b.publishes s p := not_laggingAt running (by simp [scanning])
      have hstage : (pub.afterSend s' s' result).stage ≠ .lagging s := by
        cases result <;> simp [Publish.afterSend, scanning, hs]
      refine follows_of_none (h.idle hwf rfl (AList.lookup_insert_ne (Ne.symm hs)) fun q =>
        laggingAt_insert_of_not hnot hstage) (by simp [observe, hs])
  | countMissed p s' pub m running receiver lagging =>
    by_cases hs : s' = s
    · subst hs
      exact h.follow_countMissed receiver running lagging hwf
    · exact follows_of_none (h.idle hwf rfl (AList.lookup_insert_ne (Ne.symm hs)) fun q =>
        laggingAt_insert_of_not (not_laggingAt running (by simp [lagging, hs])) (by simp)) (by simp [observe, hs])
  | published p pub running scanning =>
    exact follows_of_none (h.idle hwf rfl rfl fun q =>
      laggingAt_erase_of_not (not_laggingAt running (by simp [scanning]))) rfl
  | scanned p pub running scanning =>
    exact follows_of_none (h.idle hwf rfl rfl fun q =>
      laggingAt_insert_of_not (not_laggingAt running (by simp [scanning])) (by simp)) rfl
  | cleanUp p pub running cleaning =>
    exact follows_of_none (h.idle hwf rfl rfl fun q =>
      laggingAt_erase_of_not (not_laggingAt running (by simp [cleaning]))) rfl
  | owner s' op m m' owned stepped =>
    by_cases hs : s' = s
    · subst hs
      exact h.follow_owner owned stepped hwf rfl (AList.lookup_insert _) rfl
    · exact follows_of_none (h.idle hwf rfl (AList.lookup_insert_ne (Ne.symm hs)) fun _ => Iff.rfl)
        (by simp [observe, hs])
  | detach s' m m' owned stepped =>
    by_cases hs : s' = s
    · subst hs
      exact h.follow_owner owned stepped hwf rfl (AList.lookup_insert _) rfl
    · exact follows_of_none (h.idle hwf rfl (AList.lookup_insert_ne (Ne.symm hs)) fun _ => Iff.rfl)
        (by simp [observe, hs])
  | dropBus => exact follows_of_none (h.idle hwf rfl rfl fun _ => Iff.rfl) rfl

end Accounts

/-- The bus, seen from the queue of one subscription. -/
def queueOf (queueCapacity : Nat) (s : SubscriptionId) :
    Lts.Simulation (memoryEventBus queueCapacity) (lossyQueue TaskId Event queueCapacity u64Max) where
  rel := Accounts queueCapacity s
  label := observe s
  start := Accounts.new queueCapacity s
  follow := fun hrel hstep => hrel.follow hstep

/-- After any run the bus is where the ledger of `s` says, and the ledger is
one that a lossy queue can have. -/
theorem accounts_run {tr : List Label} (h : (memoryEventBus queueCapacity).Run (State.new queueCapacity) tr b) :
    (lossyQueue TaskId Event queueCapacity u64Max).Run .empty (tr.filterMap (observe s)) (history s tr) ∧
      Accounts queueCapacity s b (history s tr) := by
  obtain ⟨L, hrun, hrel⟩ := (queueOf queueCapacity s).run h
  obtain rfl : L = history s tr := run_replay hrun
  exact ⟨hrun, hrel⟩

end OrbitRelay.MemoryEventBus
