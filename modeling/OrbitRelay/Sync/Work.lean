import OrbitRelay.Lib.Budget
import OrbitRelay.Sync.Invariant

/-
  The work of a publish.

  A publish never waits for a subscriber: a full queue is skipped and counted, a
  closed one is skipped and noted, and only the removal of closed entries waits,
  for scans of other publishes. `stepsLeft` counts what a publish still has to
  do, two steps for an entry and two to end with; the subscribers' own steps do
  not add to it, since a scan keeps its entries to its end.
-/

namespace OrbitRelay.MemoryEventBus

/-- The task that takes a step of its publish. -/
def worker : Label → Option TaskId
  | .skip p _ => some p
  | .send p _ _ _ => some p
  | .countMissed p _ => some p
  | .endScan p => some p
  | .cleanUp p => some p
  | _ => none

def isWork (l : Label) : Bool := (worker l).isSome

def isPublish : Label → Bool
  | .publish _ _ => true
  | _ => false

def isSubscribe : Label → Bool
  | .subscribe _ _ => true
  | _ => false

/-- The steps a publish has left, at most. -/
def Publish.stepsLeft (pub : Publish) : Nat :=
  match pub.stage with
  | .scanning => 2 * pub.remaining.length + 2
  -- the counter first, and then on with the scan
  | .lagging _ => 2 * pub.remaining.length + 3
  | .cleaning => 1

/-- The steps all publishes in progress have left. -/
def stepsLeft (b : State) : Nat := b.publishes.total Publish.stepsLeft

/-- What a step brings in, while the map has at most `n` entries. -/
def stepsBegun (n : Nat) (l : Label) : Nat := if isPublish l then 2 * n + 2 else 0

variable {queueCapacity n : Nat} {b b' : State} {l : Label} {tr : List Label} {p : TaskId} {pub pub' : Publish}

theorem Publish.stepsLeft_scanning (h : pub.stage = .scanning) :
    pub.stepsLeft = 2 * pub.remaining.length + 2 := by
  simp [stepsLeft, h]

theorem Publish.stepsLeft_lagging {s : SubscriptionId} (h : pub.stage = .lagging s) :
    pub.stepsLeft = 2 * pub.remaining.length + 3 := by
  simp [stepsLeft, h]

theorem Publish.stepsLeft_cleaning (h : pub.stage = .cleaning) : pub.stepsLeft = 1 := by
  simp [stepsLeft, h]

theorem Publish.stepsLeft_pos (pub : Publish) : 1 ≤ pub.stepsLeft := by
  unfold stepsLeft
  split <;> omega

/-- However a send ends, it brings its publish on. -/
theorem Publish.stepsLeft_afterSend {s : SubscriptionId} (sender : SubscriptionId) (scanning : pub.stage = .scanning)
    (left : s ∈ pub.remaining) (result : TrySend) :
    (pub.afterSend s sender result).stepsLeft + 1 ≤ pub.stepsLeft := by
  have hone : (pub.remaining.erase s).length + 1 = pub.remaining.length := by
    rw [List.length_erase_of_mem left]
    have := List.length_pos_of_mem left
    omega
  rw [stepsLeft_scanning scanning]
  cases result with
  | sent =>
    rw [stepsLeft_scanning (show (pub.afterSend s sender .sent).stage = .scanning from scanning)]
    simp only [afterSend]
    omega
  | full =>
    rw [stepsLeft_lagging (s := sender) rfl]
    simp only [afterSend]
    omega
  | closed =>
    rw [stepsLeft_scanning (show (pub.afterSend s sender .closed).stage = .scanning from scanning)]
    simp only [afterSend]
    omega

/-! ## The number of subscribers -/

/-- Only a subscribe makes the map longer. -/
theorem subscribers_length_step (h : b.step l = some b') :
    b'.subscribers.keys.length ≤ b.subscribers.keys.length + (if isSubscribe l then 1 else 0) := by
  cases step_effect h with
  | subscribe s filter =>
    simp only [AList.keys_insert, List.length_cons, isSubscribe, if_true]
    exact Nat.succ_le_succ (List.length_erase_le ..)
  | cleanUp p pub => exact Table.length_eraseAll_le pub.closed b.subscribers
  | detach s =>
    simp only [AList.keys_erase]
    exact List.length_erase_le ..
  | dropBus => exact Nat.zero_le _
  | _ => exact Nat.le_refl _

theorem subscribers_length_run (h : (memoryEventBus queueCapacity).Run b tr b') :
    b'.subscribers.keys.length ≤ b.subscribers.keys.length + tr.countP isSubscribe := by
  refine Lts.Run.induct (P := fun tr b' => b'.subscribers.keys.length ≤
    b.subscribers.keys.length + tr.countP isSubscribe) (Nat.le_refl _) ?_ h
  intro tr t l u _ ih hstep
  have hone := subscribers_length_step hstep
  rw [List.countP_append, List.countP_singleton]
  omega

/-! ## The budget -/

/-- A publish with less to do. -/
theorem stepsLeft_setPublish (running : b.publishes.lookup p = some pub)
    (hset : b'.publishes = b.publishes.insert p pub') (hless : pub'.stepsLeft + 1 ≤ pub.stepsLeft) :
    stepsLeft b' + 1 ≤ stepsLeft b := by
  have htotal := Table.total_update (f := Publish.stepsLeft) pub' running
  rw [stepsLeft, stepsLeft, hset]
  omega

/-- A publish that is over. -/
theorem stepsLeft_endPublish (running : b.publishes.lookup p = some pub)
    (hset : b'.publishes = b.publishes.erase p) : stepsLeft b' + 1 ≤ stepsLeft b := by
  have htotal := Table.total_erase (f := Publish.stepsLeft) running
  have hpos := pub.stepsLeft_pos
  rw [stepsLeft, stepsLeft, hset]
  omega

/-- A step of a publish is one fewer to take. -/
theorem stepsLeft_work (h : b.step l = some b') (hl : isWork l = true) : stepsLeft b' + 1 ≤ stepsLeft b := by
  cases step_effect h with
  | skip p s pub entry running found scanning left =>
    -- the scan goes on as after an event that was sent
    exact stepsLeft_setPublish running rfl (Publish.stepsLeft_afterSend s scanning left .sent)
  | send p s result pub entry m channel running found receiver scanning left =>
    exact stepsLeft_setPublish running rfl (Publish.stepsLeft_afterSend entry.sender scanning left result)
  | countMissed p s pub m running receiver lagging =>
    apply stepsLeft_setPublish running rfl
    rw [Publish.stepsLeft_lagging lagging, Publish.stepsLeft_scanning rfl]
  | published p pub running => exact stepsLeft_endPublish running rfl
  | scanned p pub running scanning =>
    apply stepsLeft_setPublish running rfl
    rw [Publish.stepsLeft_scanning scanning, Publish.stepsLeft_cleaning rfl]
    omega
  | cleanUp p pub running => exact stepsLeft_endPublish running rfl
  | _ => simp [isWork, worker] at hl

/-- No other step adds to it but the start of a publish. -/
theorem stepsLeft_client (h : b.step l = some b') (hn : b.subscribers.keys.length ≤ n) (hl : isWork l = false) :
    stepsLeft b' ≤ stepsLeft b + stepsBegun n l := by
  cases step_effect h with
  | publish p event alive idle =>
    have htotal : stepsLeft { b with publishes := b.publishes.insert p ⟨event, b.subscribers.keys, [], .scanning⟩ } =
        2 * b.subscribers.keys.length + 2 + stepsLeft b :=
      Table.total_insert_new idle
    simp only [stepsBegun, isPublish, if_true]
    omega
  | skip => simp [isWork, worker] at hl
  | send => simp [isWork, worker] at hl
  | countMissed => simp [isWork, worker] at hl
  | published => simp [isWork, worker] at hl
  | scanned => simp [isWork, worker] at hl
  | cleanUp => simp [isWork, worker] at hl
  | _ => exact Nat.le_add_right _ _

/-- The bus while its map has at most `n` entries. -/
structure Within (n : Nat) (b : State) : Prop where
  wellFormed : WellFormed b
  entries : b.subscribers.keys.length ≤ n

theorem Within.work (h : Within n b) (hstep : b.step l = some b') (hl : isWork l = true) : Within n b' where
  wellFormed := h.wellFormed.step hstep
  entries := by
    have hone := subscribers_length_step hstep
    have hsub : isSubscribe l = false := by
      cases l <;> first | rfl | simp [isWork, worker] at hl
    rw [hsub] at hone
    exact Nat.le_trans hone h.entries

theorem budget (queueCapacity n : Nat) :
    (memoryEventBus queueCapacity).Budget (Within n) isWork (stepsBegun n) stepsLeft where
  pays _ hstep hl := Nat.le_trans (stepsLeft_work hstep hl) (Nat.le_add_right _ _)
  keeps h hstep hl := stepsLeft_client hstep h.entries hl

theorem sum_stepsBegun (n : Nat) : ∀ tr : List Label,
    (tr.map (stepsBegun n)).sum = tr.countP isPublish * (2 * n + 2)
  | [] => by simp
  | l :: tr => by
    rw [List.map_cons, List.sum_cons, sum_stepsBegun n tr, List.countP_cons, stepsBegun]
    split <;> simp [Nat.add_mul, Nat.add_comm]

/-! ## A publish can go on -/

/-- A publish in its scan has a step to take, whatever the subscribers have done. -/
theorem next_of_scan (h : WellFormed b) (hp : b.publishes.lookup p = some pub) (hstage : pub.stage ≠ .cleaning) :
    ∃ l, worker l = some p ∧ (b.step l).isSome := by
  cases hscan : pub.stage with
  | cleaning => exact absurd hscan hstage
  | lagging s =>
    obtain ⟨m, hm, _⟩ := h.lagging hp hscan
    exact ⟨.countMissed p s, rfl, by simp [State.step, State.countMissed, hp, hm, hscan]⟩
  | scanning =>
    cases hrest : pub.remaining with
    | nil => exact ⟨.endScan p, rfl, by simp [State.step, State.endScan, hp, hscan, hrest]⟩
    | cons s rest =>
      have hmem : s ∈ pub.remaining := by simp [hrest]
      obtain ⟨entry, he⟩ := (h.remaining hp hstage).2 s hmem
      cases hmatch : entry.filter.matches pub.event with
      | false => exact ⟨.skip p s, rfl, by simp [State.step, State.skip, hp, he, hscan, hmem, hmatch]⟩
      | true =>
        obtain ⟨hsender, m, hm, _⟩ := h.entry he
        rw [← hsender] at hm
        -- the channel answers at once, with room or without
        refine ⟨.send p s pub.event (m.channel.trySend pub.event).1, rfl, ?_⟩
        simp [State.step, State.send, hp, he, hm, hscan, hmem, hmatch]

/-- The removal of closed entries waits only for scans. -/
theorem next_of_free (h : WellFormed b) (hp : b.publishes.lookup p = some pub)
    (hfree : pub.stage ≠ .cleaning ∨ b.readLocked = false) : ∃ l, worker l = some p ∧ (b.step l).isSome := by
  by_cases hstage : pub.stage = .cleaning
  · have hlock : b.readLocked = false := hfree.resolve_left (fun hne => hne hstage)
    exact ⟨.cleanUp p, rfl, by simp [State.step, State.cleanUp, hp, hstage, hlock]⟩
  · exact next_of_scan h hp hstage

/-- While publishes are in progress, one of them has a step to take. -/
theorem next_of_publishing (h : WellFormed b) (hp : b.publishes ≠ ∅) :
    ∃ l, isWork l = true ∧ (b.step l).isSome := by
  have hsome : ∃ p pub, b.publishes.lookup p = some pub ∧ (pub.stage ≠ .cleaning ∨ b.readLocked = false) := by
    cases hlock : b.readLocked with
    | true =>
      obtain ⟨x, hx, hstage⟩ := List.any_eq_true.mp hlock
      exact ⟨x.1, x.2, Table.mem_entries_iff.mp hx, .inl (by simpa using hstage)⟩
    | false =>
      obtain ⟨p, hmem⟩ := List.exists_mem_of_ne_nil _ fun hnil => hp (Table.keys_eq_nil_iff.mp hnil)
      obtain ⟨pub, hpub⟩ := Table.mem_keys_iff.mp hmem
      exact ⟨p, pub, hpub, .inr rfl⟩
  obtain ⟨p, pub, hpub, hfree⟩ := hsome
  obtain ⟨l, hworker, hstep⟩ := next_of_free h hpub hfree
  exact ⟨l, by simp [isWork, hworker], hstep⟩

/-- **Publishers never wait for subscribers.** In every run all publishes
together take at most `2 * n + 2` steps for each publish begun, `n` being the
number of subscriptions made, whatever full queues, closed channels and slow
owners they meet. At every moment a publish can take its next step, unless it
has only its closed entries to remove and another one scans; and the publishes
in progress can all end without any step of a subscriber. -/
theorem publishers_never_wait (h : (memoryEventBus queueCapacity).Run (State.new queueCapacity) tr b) :
    tr.countP isWork ≤ tr.countP isPublish * (2 * tr.countP isSubscribe + 2) ∧
    (∀ p pub, b.publishes.lookup p = some pub → pub.stage ≠ .cleaning ∨ b.readLocked = false →
      ∃ l, worker l = some p ∧ (b.step l).isSome) ∧
    ∃ tr' b', (memoryEventBus queueCapacity).Run b tr' b' ∧ (∀ l ∈ tr', isWork l = true) ∧ b'.publishes = ∅ := by
  refine ⟨?_, fun p pub hp hfree => next_of_free (WellFormed.run h) hp hfree, ?_⟩
  · have hwork := (budget queueCapacity (tr.countP isSubscribe)).run h ?_
    · rw [sum_stepsBegun] at hwork
      have hnone : stepsLeft (State.new queueCapacity) = 0 := rfl
      omega
    -- a state on the way has no more entries than the whole run has subscribes
    · intro pre post u hsplit hpre
      refine ⟨WellFormed.run hpre, ?_⟩
      have hlength := subscribers_length_run hpre
      have hnone : (State.new queueCapacity).subscribers.keys.length = 0 := rfl
      rw [hsplit, List.countP_append]
      omega
  · refine (budget queueCapacity b.subscribers.keys.length).finish (fun b => b.publishes = ∅) Within.work ?_
      ⟨WellFormed.run h, Nat.le_refl _⟩
    intro b hwithin hbusy
    obtain ⟨l, hl, hstep⟩ := next_of_publishing hwithin.wellFormed hbusy
    obtain ⟨b', hstep⟩ := Option.isSome_iff_exists.mp hstep
    refine ⟨l, b', hl, ?_, hstep⟩
    cases l <;> first | rfl | simp [isWork, worker] at hl

/-- A subscriber never reads its queue of one; the second publish finds it full. -/
def neverRead : List Label :=
  [.subscribe default .all, .publish 1 (Event.plain default ⟨"taken"⟩),
    .send 1 default (Event.plain default ⟨"taken"⟩) .sent, .endScan 1,
    .publish 2 (Event.plain default ⟨"unread"⟩), .send 2 default (Event.plain default ⟨"unread"⟩) .full]

theorem publishers_never_wait_unread : ∃ tr b,
    (memoryEventBus 1).Run ((memoryEventBus 1).after neverRead (by decide)) tr b ∧
      (∀ l ∈ tr, isWork l = true) ∧ b.publishes = ∅ :=
  (publishers_never_wait ((memoryEventBus 1).run_after neverRead (by decide))).2.2

end OrbitRelay.MemoryEventBus
