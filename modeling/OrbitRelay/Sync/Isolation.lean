import OrbitRelay.Sync.Lag

/-
  Subscriptions do not interfere.

  `respond` is a subscription on its own: it knows its filter, its queue, its
  counter and its flags, and no bus. `alone` says that in any run of the bus a
  subscription behaves as this machine does on the stimuli that reach it: the
  matching events sent to its open channel, the additions to its counter and the
  calls of its owner. Everything else the bus does, for other subscriptions and
  with events that do not match, is no stimulus. Two runs with the same stimuli
  therefore give the same results.

  The machine has no phases. Where the owner stands between the two halves of a
  call, and whether a closed subscription has left the map yet, shows in the
  order of the steps and not in the results.
-/

namespace OrbitRelay

/-- What reaches a subscription, without what comes of it. -/
inductive Stimulus where
  | subscribe (filter : EventFilter)
  | offer (event : Event)
  | countMissed
  | nextEvent
  | receive
  | cancel
  | close
  | drop
  deriving DecidableEq

/-- What a call of the owner returns, the subscription's id aside. -/
inductive Result where
  | lagged (missed : Nat)
  | refused
  | next (event : Option Event)
  | closed
  deriving DecidableEq

def Op.stimulus : Op → Option Stimulus
  | .nextEvent _ => some .nextEvent
  | .received _ => some .receive
  | .cancelled => some .cancel
  | .close => some .close
  | .drop => some .drop
  | .detach => none

def Poll.result : Poll → Option Result
  | .closed => some .refused
  | .lagged missed => some (.lagged missed)
  | .receive _ => none

def Op.result : Op → Option Result
  | .nextEvent poll => poll.result
  | .received result => some (.next result)
  | .close => some .closed
  | _ => none

namespace MemorySubscription

/-- The subscription without its phase. -/
def settle (m : MemorySubscription) : MemorySubscription := { m with phase := .idle }

/-- A subscription on its own. -/
def respond (queueCapacity : Nat) :
    Option MemorySubscription → Stimulus → Option MemorySubscription × Option Result
  | _, .subscribe filter => (some (.new filter ⟨queueCapacity, [], false⟩), none)
  | none, _ => (none, none)
  | some m, .offer event => (some { m with channel := (m.channel.trySend event).2 }, none)
  | some m, .countMissed => (some m.countMissed, none)
  | some m, .nextEvent => (some m.nextEvent.2.settle, m.nextEvent.1.result)
  | some m, .receive =>
    (some { m with channel := { m.channel with queue := m.channel.queue.tail } },
      some (.next m.channel.queue.head?))
  | some m, .cancel => (some m, none)
  | some m, .close => (some m.close.settle, some .closed)
  | some m, .drop => (some m.drop.settle, none)

variable {queueCapacity : Nat} {m m' : MemorySubscription}

/-- A step of the owner is the response of the machine. -/
theorem respond_owner (queueCapacity : Nat) {op : Op} (h : m.step op = some m') :
    match op.stimulus with
    | some k => respond queueCapacity (some m.settle) k = (some m'.settle, op.result)
    | none => m'.settle = m.settle ∧ op.result = none := by
  cases step_effect h with
  | refused idle closed => simp [Op.stimulus, Op.result, Poll.result, respond, settle, nextEvent, closed]
  | lagging idle closed check missed =>
    simp [Op.stimulus, Op.result, Poll.result, respond, settle, nextEvent, closed, check, missed]
  | checked idle closed check missed =>
    simp [Op.stimulus, Op.result, Poll.result, respond, settle, nextEvent, closed, check, missed]
  | unchecked idle closed check =>
    simp [Op.stimulus, Op.result, Poll.result, respond, settle, nextEvent, closed, check]
  | received event queue receiving head => simp [Op.stimulus, Op.result, respond, settle, head]
  | ended receiving empty =>
    have hchannel : { m.channel with queue := [] } = m.channel := by rw [← empty]
    simp [Op.stimulus, Op.result, respond, settle, empty, hchannel]
  | cancelled => simp [Op.stimulus, Op.result, respond, settle]
  | closed idle closed => simp [Op.stimulus, Op.result, respond, settle, close, closed]
  | closedAgain idle closed => simp [Op.stimulus, Op.result, respond, settle, close, closed]
  | drop => simp [Op.stimulus, Op.result, respond, settle, drop]
  | closeDone => exact ⟨rfl, rfl⟩
  | dropDone => exact ⟨rfl, rfl⟩

end MemorySubscription

namespace MemoryEventBus

/-- What a step of the bus is to `s`; a send to a closed channel is nothing. -/
def stimulus (s : SubscriptionId) : Label → Option Stimulus
  | .subscribe s' filter => if s' = s then some (.subscribe filter) else none
  | .send _ s' event result => if s' = s ∧ result ≠ .closed then some (.offer event) else none
  | .countMissed _ s' => if s' = s then some .countMissed else none
  | .owner s' op => if s' = s then op.stimulus else none
  | _ => none

/-- What a step of the bus returns to the owner of `s`. -/
def result (s : SubscriptionId) : Label → Option Result
  | .owner s' op => if s' = s then op.result else none
  | _ => none

def stimuli (s : SubscriptionId) (tr : List Label) : List Stimulus := tr.filterMap (stimulus s)

def results (s : SubscriptionId) (tr : List Label) : List Result := tr.filterMap (result s)

variable {queueCapacity : Nat} {s : SubscriptionId} {b b' : State} {l : Label} {m m' : MemorySubscription}

/-- What the bus holds of `s`, the phase aside. -/
def view (s : SubscriptionId) (b : State) : Option MemorySubscription :=
  (b.subscriptions.lookup s).map MemorySubscription.settle

/-- A step of the bus is to `s` a stimulus and its response, or nothing. -/
def Responds (queueCapacity : Nat) (s : SubscriptionId) (b b' : State) (l : Label) : Prop :=
  match stimulus s l with
  | some k => MemorySubscription.respond queueCapacity (view s b) k = (view s b', result s l)
  | none => view s b' = view s b ∧ result s l = none

theorem responds_of_none (hl : stimulus s l = none) (hr : result s l = none) (hview : view s b' = view s b) :
    Responds queueCapacity s b b' l := by
  rw [Responds, hl]
  exact ⟨hview, hr⟩

theorem view_eq (h : b.subscriptions.lookup s = some m) : view s b = some m.settle := by
  rw [view, h, Option.map_some]

theorem view_congr (h : b'.subscriptions.lookup s = b.subscriptions.lookup s) : view s b' = view s b := by
  rw [view, h, view]

theorem responds_owner {op : Op} (hm : b.subscriptions.lookup s = some m) (stepped : m.step op = some m')
    (hm' : b'.subscriptions.lookup s = some m') : Responds queueCapacity s b b' (.owner s op) := by
  have hrespond := MemorySubscription.respond_owner queueCapacity stepped
  rw [Responds, view_eq hm, view_eq hm']
  simp only [stimulus, result, if_true]
  cases hk : op.stimulus with
  | some k =>
    rw [hk] at hrespond
    exact hrespond
  | none =>
    rw [hk] at hrespond
    exact ⟨congrArg some hrespond.1, hrespond.2⟩

theorem responds (h : WellFormed b) (hcap : b.queueCapacity = queueCapacity) (hstep : b.step l = some b') :
    Responds queueCapacity s b b' l := by
  cases step_effect hstep with
  | subscribe s' filter channel alive valid fresh unlocked made =>
    by_cases hs : s' = s
    · subst hs
      obtain ⟨_, _, rfl⟩ := Channel.new_eq_some made
      simp [Responds, stimulus, result, view, AList.lookup_insert, hcap, MemorySubscription.respond,
        MemorySubscription.settle, MemorySubscription.new]
    · exact responds_of_none (by simp [stimulus, hs]) rfl (view_congr (AList.lookup_insert_ne (Ne.symm hs)))
  | send p s' outcome pub entry m channel running found receiver scanning left matched tried =>
    obtain ⟨hsender, _⟩ := h.entry found
    rw [hsender] at receiver ⊢
    by_cases hs : s' = s
    · subst hs
      -- a send to a closed channel leaves it as it is
      by_cases houtcome : outcome = .closed
      · subst houtcome
        obtain ⟨_, rfl⟩ := Channel.trySend_eq tried
        apply responds_of_none (by simp [stimulus]) rfl
        rw [view_eq receiver, view_eq (AList.lookup_insert _)]
      · rw [Responds, view_eq receiver, view_eq (AList.lookup_insert _)]
        simp [stimulus, result, houtcome, MemorySubscription.respond, MemorySubscription.settle, tried]
    · exact responds_of_none (by simp [stimulus, hs]) rfl (view_congr (AList.lookup_insert_ne (Ne.symm hs)))
  | countMissed p s' pub m running receiver lagging =>
    by_cases hs : s' = s
    · subst hs
      rw [Responds, view_eq receiver, view_eq (AList.lookup_insert _)]
      simp [stimulus, result, MemorySubscription.respond, MemorySubscription.settle,
        MemorySubscription.countMissed]
    · exact responds_of_none (by simp [stimulus, hs]) rfl (view_congr (AList.lookup_insert_ne (Ne.symm hs)))
  | owner s' op m m' owned stepped =>
    by_cases hs : s' = s
    · subst hs
      exact responds_owner owned stepped (AList.lookup_insert _)
    · exact responds_of_none (by simp [stimulus, hs]) (by simp [result, hs])
        (view_congr (AList.lookup_insert_ne (Ne.symm hs)))
  | detach s' m m' owned stepped =>
    by_cases hs : s' = s
    · subst hs
      exact responds_owner owned stepped (AList.lookup_insert _)
    · exact responds_of_none (by simp [stimulus, hs]) (by simp [result, hs])
        (view_congr (AList.lookup_insert_ne (Ne.symm hs)))
  | _ => exact responds_of_none rfl rfl rfl

theorem result_of_none (h : stimulus s l = none) : result s l = none := by
  cases l with
  | owner s' op =>
    by_cases hs : s' = s
    · cases op <;> simp_all [stimulus, result, Op.stimulus, Op.result]
    · simp [result, hs]
  | _ => rfl

/-- The subscription `s` of the bus, on its own. -/
def alone (queueCapacity : Nat) (s : SubscriptionId) :
    Lts.Simulation (memoryEventBus queueCapacity)
      (Lts.responder none (MemorySubscription.respond queueCapacity)) where
  rel b x := WellFormed b ∧ b.queueCapacity = queueCapacity ∧ view s b = x
  label l := (stimulus s l).map fun k => (k, result s l)
  start := ⟨WellFormed.new queueCapacity, rfl, rfl⟩
  follow := by
    intro b _ l b' ih hstep
    obtain ⟨hwf, hcap, rfl⟩ := ih
    refine ⟨view s b', ?_, hwf.step hstep, (State.step_queueCapacity hstep).trans hcap, rfl⟩
    have hresponds := responds (s := s) hwf hcap hstep
    unfold Responds at hresponds
    cases hk : stimulus s l with
    | none =>
      rw [hk] at hresponds
      exact hresponds.1 ▸ Lts.Run.nil _ _
    | some k =>
      rw [hk] at hresponds
      simp only at hresponds
      apply Lts.Run.single
      simp [Lts.responder, hresponds]

theorem map_fst_label (s : SubscriptionId) (tr : List Label) :
    (tr.filterMap (alone queueCapacity s).label).map Prod.fst = stimuli s tr := by
  rw [List.map_filterMap]
  exact List.filterMap_congr fun l _ => by simp [alone, Function.comp_def]

theorem filterMap_snd_label (s : SubscriptionId) (tr : List Label) :
    (tr.filterMap (alone queueCapacity s).label).filterMap Prod.snd = results s tr := by
  rw [List.filterMap_filterMap]
  apply List.filterMap_congr
  intro l _
  cases hk : stimulus s l with
  | none => simp [alone, hk, result_of_none hk]
  | some k => simp [alone, hk]

/-- **Isolation.** Whatever the rest of the bus does, the stimuli of a
subscription decide its results and the state it is left in. And the rest of
the bus does not decide the stimuli: since its registration every publisher has
sent an open subscription what it published and matches, but for what it has in
hand; and it has added to the counter of a subscription once for each of its own
sends that this subscription refused, but for one that it stands before. -/
theorem results_eq_of_stimuli_eq {s₁ s₂ : SubscriptionId} {tr₁ tr₂ : List Label} {b₁ b₂ : State}
    (h₁ : (memoryEventBus queueCapacity).Run (State.new queueCapacity) tr₁ b₁)
    (h₂ : (memoryEventBus queueCapacity).Run (State.new queueCapacity) tr₂ b₂)
    (heq : stimuli s₁ tr₁ = stimuli s₂ tr₂) :
    results s₁ tr₁ = results s₂ tr₂ ∧ view s₁ b₁ = view s₂ b₂ ∧
      (∀ pre filter post m, tr₁ = pre ++ .subscribe s₁ filter :: post →
        b₁.subscriptions.lookup s₁ = some m → m.IsOpen →
        ∀ p, offers p s₁ tr₁ ++ pending p s₁ filter b₁ = (published p post).filter filter.matches) ∧
      ∀ m, b₁.subscriptions.lookup s₁ = some m → ∀ p,
        (¬LaggingAt b₁.publishes s₁ p → (refused s₁ tr₁).count p = (counting s₁ tr₁).count p) ∧
        (LaggingAt b₁.publishes s₁ p → (refused s₁ tr₁).count p = (counting s₁ tr₁).count p + 1) := by
  obtain ⟨_, hrun₁, _, _, rfl⟩ := (alone queueCapacity s₁).run h₁
  obtain ⟨_, hrun₂, _, _, rfl⟩ := (alone queueCapacity s₂).run h₂
  obtain ⟨htr, hview⟩ := Lts.responder_run_eq hrun₁ hrun₂ (by rw [map_fst_label, map_fst_label, heq])
  refine ⟨?_, hview, ?_, fun _ hm => count_refused h₁ hm⟩
  · rw [← filterMap_snd_label, htr, filterMap_snd_label]
  · intro pre filter post m heq hm hopen p
    subst heq
    obtain ⟨rfl, hoffers⟩ := offers_since_subscribe h₁ hm hopen
    exact hoffers p

/-- A subscription by itself. -/
def quiet : List Label :=
  [.subscribe default .all, .publish 1 (Event.plain default ⟨"a"⟩),
    .send 1 default (Event.plain default ⟨"a"⟩) .sent, .endScan 1,
    .owner default (.nextEvent (.receive true)), .owner default (.received (some (Event.plain default ⟨"a"⟩)))]

/-- The same beside a subscriber that is dropped in the middle of the publish. -/
def crowded : List Label :=
  let other : SubscriptionId := ⟨⟨"other", by decide⟩⟩
  [.subscribe other .all, .subscribe default .all, .publish 1 (Event.plain default ⟨"a"⟩), .owner other .drop,
    .send 1 other (Event.plain default ⟨"a"⟩) .closed, .send 1 default (Event.plain default ⟨"a"⟩) .sent,
    .endScan 1, .owner default (.nextEvent (.receive true)), .cleanUp 1,
    .owner default (.received (some (Event.plain default ⟨"a"⟩))), .owner other .detach]

theorem results_eq_of_stimuli_eq_crowded : results default quiet = results default crowded :=
  (results_eq_of_stimuli_eq ((memoryEventBus 1).run_after quiet (by decide))
    ((memoryEventBus 1).run_after crowded (by decide)) (by decide)).1

end MemoryEventBus

end OrbitRelay
