import OrbitRelay.Sync.Accounting

/-
  What a subscriber gets, what it is told it missed, and when.

  Two results about every run, both read off the ledger of the subscription:
    1. `subscription_accounting`: the events returned and the events queued are
       those accepted, in order; a send is refused exactly when the queue is
       full; and what was reported, what the counter holds and what publishers
       are about to add is the number of drops.
    2. `gap_announced_iff`: when a receive returns, lag errors have reported all
       the drops before its result exactly when, at the last look at the counter,
       no publisher stood between one of these and its addition to the counter,
       and none of them was added to a counter at its limit. A lag error reports
       as many drops as it says.
  The send and the addition are two atomic operations of the source, and the
  worked runs show a publisher in between.
-/

namespace OrbitRelay.MemoryEventBus

open LossyQueue

/-! ## A subscription's side of a trace -/

/-- The events sent to `s`, in order, each with how its send ended. -/
def tries (s : SubscriptionId) (tr : List Label) : List (Event × TrySend) :=
  tr.filterMap fun
    | .send _ s' event result => if s' = s then some (event, result) else none
    | _ => none

/-- The events that found room. -/
def accepted (s : SubscriptionId) (tr : List Label) : List Event :=
  ((tries s tr).filter fun x => x.2 = .sent).map Prod.fst

/-- The events that found the queue full. -/
def dropped (s : SubscriptionId) (tr : List Label) : List Event :=
  ((tries s tr).filter fun x => x.2 = .full).map Prod.fst

/-- The events `next_event` has returned. -/
def returned (s : SubscriptionId) (tr : List Label) : List Event :=
  tr.filterMap fun
    | .owner s' (.received (some event)) => if s' = s then some event else none
    | _ => none

/-- The `missed` value of a lag error. -/
def missedIn (s : SubscriptionId) : Label → Nat
  | .owner s' (.nextEvent (.lagged missed)) => if s' = s then missed else 0
  | _ => 0

/-- The sum of the `missed` values reported. -/
def reported (s : SubscriptionId) (tr : List Label) : Nat := (tr.map (missedIn s)).sum

/-- The tasks that found the queue of `s` full, once for every time. -/
def refused (s : SubscriptionId) (tr : List Label) : List TaskId :=
  tr.filterMap fun
    | .send p s' _ .full => if s' = s then some p else none
    | _ => none

/-- The tasks that added one to the counter of `s`, once for every time. -/
def counting (s : SubscriptionId) (tr : List Label) : List TaskId :=
  tr.filterMap fun
    | .countMissed p s' => if s' = s then some p else none
    | _ => none

/-- How many publishers stand between a refused send to `s` and its addition. -/
def inFlight (s : SubscriptionId) (b : State) : Nat :=
  (b.publishes.entries.filter fun x => x.2.stage = .lagging s).length

variable {queueCapacity : Nat} {s : SubscriptionId} {b b' : State} {tr pre post : List Label}
  {m : MemorySubscription}

/-- Reading a trace through the moves or directly is the same. -/
theorem filterMap_observe {β : Type} {f : Move TaskId Event → Option β} {g : Label → Option β}
    (h : ∀ l, (observe s l).bind f = g l) (tr : List Label) :
    (tr.filterMap (observe s)).filterMap f = tr.filterMap g := by
  rw [List.filterMap_filterMap]
  exact List.filterMap_congr fun l _ => h l

theorem tries_filter (result : TrySend) (tr : List Label) :
    ((tries s tr).filter fun x => x.2 = result).map Prod.fst =
      tr.filterMap fun
        | .send _ s' event result' => if s' = s ∧ result' = result then some event else none
        | _ => none := by
  induction tr with
  | nil => rfl
  | cons l tr ih =>
    rw [List.filterMap_cons, ← ih, tries, List.filterMap_cons, ← tries]
    cases l with
    | send p s' event result' => by_cases hs : s' = s <;> by_cases hr : result' = result <;> simp [hs, hr]
    | _ => rfl

/-- The owner of the subscription sends nothing. -/
theorem observe_owner {β : Type} {f : Move TaskId Event → Option β} (hcheck : ∀ missed, f (.check missed) = none)
    (htake : ∀ event, f (.take event) = none) (s' : SubscriptionId) (op : Op) :
    (observe s (.owner s' op)).bind f = none := by
  by_cases hs : s' = s
  · rcases op with (_ | _ | _ | _) | (_ | _) | _ | _ | _ | _ <;> simp [observe, moveOf, hs, hcheck, htake]
  · simp [observe, hs]

theorem accepted_eq : (tr.filterMap (observe s)).filterMap Move.accepted? = accepted s tr := by
  rw [accepted, tries_filter, filterMap_observe]
  intro l
  cases l with
  | send p s' event result => by_cases hs : s' = s <;> cases result <;> simp [observe, hs, Move.accepted?]
  | countMissed p s' => by_cases hs : s' = s <;> simp [observe, hs, Move.accepted?]
  | owner s' op => exact observe_owner (fun _ => rfl) (fun _ => rfl) s' op
  | _ => rfl

theorem dropped_eq : (tr.filterMap (observe s)).filterMap Move.dropped? = dropped s tr := by
  rw [dropped, tries_filter, filterMap_observe]
  intro l
  cases l with
  | send p s' event result => by_cases hs : s' = s <;> cases result <;> simp [observe, hs, Move.dropped?]
  | countMissed p s' => by_cases hs : s' = s <;> simp [observe, hs, Move.dropped?]
  | owner s' op => exact observe_owner (fun _ => rfl) (fun _ => rfl) s' op
  | _ => rfl

theorem returned_eq : (tr.filterMap (observe s)).filterMap Move.taken? = returned s tr := by
  rw [returned, filterMap_observe]
  intro l
  cases l with
  | send p s' event result => by_cases hs : s' = s <;> cases result <;> simp [observe, hs, Move.taken?]
  | countMissed p s' => by_cases hs : s' = s <;> simp [observe, hs, Move.taken?]
  | owner s' op =>
    by_cases hs : s' = s
    · rcases op with (_ | _ | _ | _) | (_ | _) | _ | _ | _ | _ <;> simp [observe, moveOf, hs, Move.taken?]
    · rcases op with _ | (_ | _) | _ | _ | _ | _ <;> simp [observe, hs]
  | _ => rfl

theorem refused_eq : (tr.filterMap (observe s)).filterMap Move.dropper? = refused s tr := by
  rw [refused, filterMap_observe]
  intro l
  cases l with
  | send p s' event result => by_cases hs : s' = s <;> cases result <;> simp [observe, hs, Move.dropper?]
  | countMissed p s' => by_cases hs : s' = s <;> simp [observe, hs, Move.dropper?]
  | owner s' op => exact observe_owner (fun _ => rfl) (fun _ => rfl) s' op
  | _ => rfl

theorem mem_refused {p : TaskId} : p ∈ refused s tr ↔ ∃ event, .send p s event .full ∈ tr := by
  rw [refused, List.mem_filterMap]
  constructor
  · intro h
    obtain ⟨l, hl, hp⟩ := h
    cases l with
    | send p' s' event result =>
      cases result with
      | full =>
        obtain ⟨rfl, hp'⟩ := Option.ite_none_right_eq_some.mp hp
        obtain rfl : p' = p := Option.some.inj hp'
        exact ⟨event, hl⟩
      | _ => cases hp
    | _ => cases hp
  · intro h
    obtain ⟨event, hl⟩ := h
    exact ⟨_, hl, if_pos rfl⟩

theorem counting_eq : (tr.filterMap (observe s)).filterMap Move.counter? = counting s tr := by
  rw [counting, filterMap_observe]
  intro l
  cases l with
  | send p s' event result => by_cases hs : s' = s <;> cases result <;> simp [observe, hs, Move.counter?]
  | countMissed p s' => by_cases hs : s' = s <;> simp [observe, hs, Move.counter?]
  | owner s' op => exact observe_owner (fun _ => rfl) (fun _ => rfl) s' op
  | _ => rfl

theorem reported_eq : ((tr.filterMap (observe s)).map Move.missed).sum = reported s tr := by
  have hlabel : ∀ l, ((observe s l).map Move.missed).getD 0 = missedIn s l := by
    intro l
    cases l with
    | send p s' event result => by_cases hs : s' = s <;> cases result <;> simp [observe, hs, Move.missed, missedIn]
    | countMissed p s' => by_cases hs : s' = s <;> simp [observe, hs, Move.missed, missedIn]
    | owner s' op =>
      by_cases hs : s' = s
      · rcases op with (_ | _ | _ | _) | (_ | _) | _ | _ | _ | _ <;> simp [observe, moveOf, hs, Move.missed, missedIn]
      · rcases op with (_ | _ | _) | _ | _ | _ | _ | _ <;> simp [observe, hs, missedIn]
    | _ => rfl
  induction tr with
  | nil => rfl
  | cons l tr ih =>
    rw [List.filterMap_cons, reported, List.map_cons, List.sum_cons, ← reported, ← ih, ← hlabel]
    cases observe s l with
    | none => simp
    | some mv => simp

/-- The publishers in flight are the owners of uncounted drops. -/
theorem inFlight_eq {L : Ledger TaskId Event} (h : Accounts queueCapacity s b L) :
    inFlight s b = L.uncounted.length := by
  have hkeys : (b.publishes.entries.map Sigma.fst).Nodup := b.publishes.keys_nodup
  have hperm : ((b.publishes.entries.filter fun x => x.2.stage = .lagging s).map Sigma.fst).Perm
      (L.uncounted.map Prod.fst) := by
    apply (List.perm_ext_iff_of_nodup (hkeys.sublist (List.filter_sublist.map _)) h.sound.owners).mpr
    intro p
    rw [h.lagging, LaggingAt, List.mem_map]
    constructor
    · intro hmem
      obtain ⟨⟨p, pub⟩, hx, rfl⟩ := hmem
      obtain ⟨hmem, hstage⟩ := List.mem_filter.mp hx
      exact ⟨pub, Table.mem_entries_iff.mp hmem, by simpa using hstage⟩
    · intro hstanding
      obtain ⟨pub, hlookup, hstage⟩ := hstanding
      exact ⟨⟨p, pub⟩, List.mem_filter.mpr ⟨Table.mem_entries_iff.mpr hlookup, by simpa using hstage⟩, rfl⟩
  have hlen := hperm.length_eq
  rwa [List.length_map, List.length_map] at hlen

/-- A task has made an addition for every send that was refused, but for one
that it stands before. -/
theorem count_refused (h : (memoryEventBus queueCapacity).Run (State.new queueCapacity) tr b)
    (hm : b.subscriptions.lookup s = some m) (p : TaskId) :
    (¬LaggingAt b.publishes s p → (refused s tr).count p = (counting s tr).count p) ∧
      (LaggingAt b.publishes s p → (refused s tr).count p = (counting s tr).count p + 1) := by
  obtain ⟨hmoves, haccounts⟩ := accounts_run (s := s) h
  have hcount := count_droppers (haccounts.positive hm) hmoves p
  rw [refused_eq, counting_eq] at hcount
  constructor
  · intro hnot
    rwa [List.count_eq_zero_of_not_mem (mt haccounts.lagging.mp hnot)] at hcount
  · intro hlagging
    rwa [List.count_eq_one_of_mem haccounts.sound.owners (haccounts.lagging.mpr hlagging)] at hcount

/-! ## Accounting -/

/-- The books of an open subscription balance. -/
structure Balanced (queueCapacity : Nat) (s : SubscriptionId) (tr : List Label) (b : State)
    (m : MemorySubscription) : Prop where
  /-- everything sent was accepted or dropped -/
  split : ∀ x ∈ tries s tr, x.2 = .sent ∨ x.2 = .full
  /-- what was returned and what is queued is what was accepted -/
  fifo : returned s tr ++ m.channel.queue = accepted s tr
  room : m.channel.queue.length ≤ queueCapacity
  /-- a send was refused exactly when it found the queue full -/
  full : ∀ {pre p event result post b₀ m₀}, tr = pre ++ .send p s event result :: post →
    (memoryEventBus queueCapacity).Run (State.new queueCapacity) pre b₀ →
    b₀.subscriptions.lookup s = some m₀ → (result = .full ↔ m₀.channel.queue.length = queueCapacity)
  /-- every drop was reported, is in the counter, or is about to be added -/
  counted : (dropped s tr).length < u64Max →
    reported s tr + m.lagged + inFlight s b = (dropped s tr).length
  /-- only matching events were sent -/
  matching : ∀ x ∈ tries s tr, m.filter.matches x.1 = true
  /-- every matching event published since the registration was sent, or is next -/
  complete : ∀ {pre filter post}, tr = pre ++ .subscribe s filter :: post → filter = m.filter ∧
    ∀ p, offers p s tr ++ pending p s m.filter b = (published p post).filter m.filter.matches

/-- What a send in the trace found, for a subscription that is open at the end. -/
theorem send_of_open (h : (memoryEventBus queueCapacity).Run (State.new queueCapacity) tr b)
    (hm : b.subscriptions.lookup s = some m) (hopen : m.IsOpen) {p : TaskId} {event : Event} {result : TrySend}
    (htr : tr = pre ++ .send p s event result :: post) :
    ∃ b₀ m₀, (memoryEventBus queueCapacity).Run (State.new queueCapacity) pre b₀ ∧
      b₀.subscriptions.lookup s = some m₀ ∧ m.filter.matches event = true ∧
      ((result = .sent ∧ m₀.channel.queue.length < queueCapacity) ∨
        (result = .full ∧ m₀.channel.queue.length = queueCapacity)) := by
  subst htr
  obtain ⟨b₀, b₁, hpre, hstep, hpost⟩ := run_split.mp h
  have hwf := WellFormed.run hpre
  obtain ⟨m₀, channel, hm₀, hmatch, htried, hm₁⟩ := hwf.send_step hstep
  obtain ⟨m', hm', hfilter, hopen'⟩ := (hwf.step hstep).subscription_run hpost hm₁
  obtain rfl := Option.some.inj (hm.symm.trans hm')
  have hcapacity : b₀.queueCapacity = queueCapacity := State.run_queueCapacity hpre
  have hwf₀ := hwf.subscription hm₀
  refine ⟨b₀, m₀, hpre, hm₀, by rw [hfilter]; exact hmatch, ?_⟩
  have htry := Channel.trySend_eq htried
  cases result with
  | sent =>
    refine .inl ⟨rfl, ?_⟩
    rw [← hcapacity, ← hwf₀.capacity_eq]
    exact htry.2.1
  | full =>
    have hroom := hwf₀.room
    have hfull := htry.2.1
    rw [hwf₀.capacity_eq] at hfull
    exact .inr ⟨rfl, by omega⟩
  | closed =>
    -- a closed channel stays closed, and this one is open at the end
    have hclosed : channel.closed = false := hopen' hopen
    rw [htry.2, htry.1] at hclosed
    simp at hclosed

theorem mem_tries {x : Event × TrySend} (h : x ∈ tries s tr) :
    ∃ pre p post, tr = pre ++ .send p s x.1 x.2 :: post := by
  obtain ⟨l, hl, hlx⟩ := List.mem_filterMap.mp h
  obtain ⟨pre, post, rfl⟩ := List.append_of_mem hl
  cases l with
  | send p s' event result =>
    simp only [Option.ite_none_right_eq_some, Option.some.injEq] at hlx
    obtain ⟨rfl, rfl⟩ := hlx
    exact ⟨pre, p, post, rfl⟩
  | _ => simp at hlx

/-- What was returned and what is queued is what was accepted, for any subscription. -/
theorem returned_append_queue (h : (memoryEventBus queueCapacity).Run (State.new queueCapacity) tr b)
    (hm : b.subscriptions.lookup s = some m) : returned s tr ++ m.channel.queue = accepted s tr := by
  obtain ⟨hmoves, haccounts⟩ := accounts_run (s := s) h
  have hpos := haccounts.positive hm
  have hfifo := taken_append_waiting hpos hmoves
  rwa [accepted_eq, returned_eq, haccounts.queue hm] at hfifo

/-- Every drop was reported, is in the counter, or is about to be added, for any
subscription. -/
theorem reported_add_lagged (h : (memoryEventBus queueCapacity).Run (State.new queueCapacity) tr b)
    (hm : b.subscriptions.lookup s = some m) (hlimit : (dropped s tr).length < u64Max) :
    reported s tr + m.lagged + inFlight s b = (dropped s tr).length := by
  obtain ⟨hmoves, haccounts⟩ := accounts_run (s := s) h
  have hdropped : (history s tr).dropped.length = (dropped s tr).length := by
    rw [← dropped_eq, ← LossyQueue.dropped_eq hmoves, List.length_map]
  have hlost := lost_eq_nil (haccounts.positive hm) hmoves (by omega)
  have hsum := missed_sum hmoves
  -- a drop is announced, counted or uncounted: the reports, the counter, the publishers in flight
  have htotal := haccounts.sound.accounts
  rw [hlost, List.length_nil] at htotal
  rw [reported_eq] at hsum
  rw [hsum, haccounts.counter hm, inFlight_eq haccounts]
  omega

/-- Sends that found the channel open are those accepted and those dropped. -/
theorem accepted_append_dropped {P : Event → Bool}
    (hopen : ∀ x ∈ tries s tr, P x.1 = true → x.2 = .sent ∨ x.2 = .full) :
    ((accepted s tr ++ dropped s tr).filter P).Perm (((tries s tr).map Prod.fst).filter P) := by
  have hfull : ((tries s tr).filter fun x => P x.1).filter (fun x => x.2 = .full) =
      ((tries s tr).filter fun x => P x.1).filter fun x => !decide (x.2 = .sent) := by
    apply List.filter_congr
    intro x hx
    obtain ⟨htried, hp⟩ := List.mem_filter.mp hx
    rcases hopen x htried hp with hsent | hfull <;> simp [*]
  have hfilter : ∀ result : TrySend, (((tries s tr).filter fun x => x.2 = result).map Prod.fst).filter P =
      (((tries s tr).filter fun x => P x.1).filter fun x => x.2 = result).map Prod.fst := by
    intro result
    rw [List.filter_map, List.filter_filter, List.filter_filter]
    congr 1
    exact List.filter_congr fun x _ => Bool.and_comm _ _
  rw [List.filter_append, accepted, dropped, hfilter, hfilter, hfull, ← List.map_append, List.filter_map]
  exact (List.filter_append_perm _ _).map _

theorem mem_accepted {event : Event} : event ∈ accepted s tr ↔ ∃ p, .send p s event .sent ∈ tr := by
  rw [accepted, tries_filter, List.mem_filterMap]
  constructor
  · intro hmem
    obtain ⟨l, hl, hevent⟩ := hmem
    cases l with
    | send p s' event' result =>
      simp only [Option.ite_none_right_eq_some, Option.some.injEq] at hevent
      obtain ⟨⟨rfl, rfl⟩, rfl⟩ := hevent
      exact ⟨p, hl⟩
    | _ => simp at hevent
  · intro hsent
    obtain ⟨p, hp⟩ := hsent
    exact ⟨_, hp, by simp⟩

/-- A queued event was sent. -/
theorem sent_of_queued (h : (memoryEventBus queueCapacity).Run (State.new queueCapacity) tr b)
    (hm : b.subscriptions.lookup s = some m) {event : Event} (he : event ∈ m.channel.queue) :
    ∃ p, .send p s event .sent ∈ tr := by
  rw [← mem_accepted, ← returned_append_queue h hm]
  exact List.mem_append_right _ he

/-- A returned event was sent. -/
theorem sent_of_received (h : (memoryEventBus queueCapacity).Run (State.new queueCapacity) tr b) {event : Event}
    (he : .owner s (.received (some event)) ∈ tr) : ∃ p, .send p s event .sent ∈ tr := by
  have hreturned : event ∈ returned s tr := List.mem_filterMap.mpr ⟨_, he, by simp⟩
  obtain ⟨pre, post, b₀, b₁, rfl, hpre, (hstep : b₀.step (.owner s (.received (some event))) = some b₁), hpost⟩ :=
    h.at_label he
  have hwf := WellFormed.run hpre
  obtain ⟨m₀, hm₀⟩ : ∃ m₀, b₀.subscriptions.lookup s = some m₀ := by
    cases step_effect hstep with
    | owner s op m m' owned => exact ⟨m, owned⟩
  obtain ⟨m₁, hm₁, _⟩ := hwf.subscription_step hstep hm₀
  obtain ⟨m, hm, _⟩ := (hwf.step hstep).subscription_run hpost hm₁
  rw [← mem_accepted, ← returned_append_queue h hm]
  exact List.mem_append_left _ hreturned

/-- An event counted as missed was refused. -/
theorem full_of_counted (h : (memoryEventBus queueCapacity).Run (State.new queueCapacity) tr b) {p : TaskId}
    (hc : .countMissed p s ∈ tr) : ∃ event, .send p s event .full ∈ tr := by
  obtain ⟨pre, post, b₀, b₁, rfl, hpre, (hstep : b₀.step (.countMissed p s) = some b₁), _⟩ := h.at_label hc
  obtain ⟨hmoves, haccounts⟩ := accounts_run (s := s) hpre
  have howner : p ∈ (history s pre).uncounted.map Prod.fst := by
    cases step_effect hstep with
    | countMissed p s pub m running receiver lagging => exact haccounts.lagging.mpr ⟨pub, running, lagging⟩
  obtain ⟨event, hdrop⟩ := drop_of_uncounted hmoves howner
  have hrefused : p ∈ refused s pre := by
    rw [← refused_eq]
    exact List.mem_filterMap.mpr ⟨.drop p event, hdrop, rfl⟩
  obtain ⟨event, hsend⟩ := mem_refused.mp hrefused
  exact ⟨event, List.mem_append_left _ hsend⟩

/-- A send to an open subscription finds room or finds the queue full. -/
theorem sent_or_full (h : (memoryEventBus queueCapacity).Run (State.new queueCapacity) tr b)
    (hm : b.subscriptions.lookup s = some m) (hopen : m.IsOpen) : ∀ x ∈ tries s tr, x.2 = .sent ∨ x.2 = .full := by
  intro x hx
  obtain ⟨pre, p, post, htr⟩ := mem_tries hx
  obtain ⟨_, _, _, _, _, hresult⟩ := send_of_open h hm hopen htr
  exact hresult.imp And.left And.left

/-- What was sent to an open subscription was returned, is in its queue, or was dropped. -/
theorem perm_tries (h : (memoryEventBus queueCapacity).Run (State.new queueCapacity) tr b)
    (hm : b.subscriptions.lookup s = some m) (hopen : m.IsOpen) :
    (returned s tr ++ m.channel.queue ++ dropped s tr).Perm ((tries s tr).map Prod.fst) := by
  have hperm := accepted_append_dropped (P := fun _ => true) fun x hx _ => sent_or_full h hm hopen x hx
  rw [List.filter_true, List.filter_true] at hperm
  rwa [returned_append_queue h hm]

/-- **Accounting.** In every reachable state the books of every open
subscription balance. -/
theorem subscription_accounting (h : (memoryEventBus queueCapacity).Run (State.new queueCapacity) tr b)
    (hm : b.subscriptions.lookup s = some m) (hopen : m.IsOpen) : Balanced queueCapacity s tr b m := by
  obtain ⟨_, haccounts⟩ := accounts_run (s := s) h
  exact {
    split := sent_or_full h hm hopen
    fifo := returned_append_queue h hm
    room := by
      rw [← haccounts.capacity]
      exact (haccounts.wellFormed.subscription hm).room
    full := by
      intro pre p event result post b₀ m₀ htr hpre hm₀
      obtain ⟨b₁, m₁, hpre', hm₁, _, hresult⟩ := send_of_open h hm hopen htr
      obtain rfl := hpre.det hpre'
      obtain rfl := Option.some.inj (hm₀.symm.trans hm₁)
      rcases hresult with ⟨rfl, hlt⟩ | ⟨rfl, heq⟩
      · simp only [reduceCtorEq, false_iff]
        omega
      · simp [heq]
    counted := reported_add_lagged h hm
    matching := by
      intro x hx
      obtain ⟨pre, p, post, htr⟩ := mem_tries hx
      obtain ⟨_, _, _, _, hmatch, _⟩ := send_of_open h hm hopen htr
      exact hmatch
    complete := by
      intro pre filter post heq
      subst heq
      exact offers_since_subscribe h hm hopen }

/-- Two events that differ, and a third. -/
def first : Event := Event.plain default ⟨"first"⟩
def second : Event := Event.plain default ⟨"second"⟩
def third : Event := Event.plain default ⟨"third"⟩

/-- A publisher has found a queue of one full, and not yet added to the counter. -/
def refusedSend : List Label :=
  [.subscribe default .all, .publish 1 first, .send 1 default first .sent, .endScan 1,
    .publish 1 second, .send 1 default second .full]

theorem subscription_accounting_refused :
    ∃ m, Balanced 1 default refusedSend ((memoryEventBus 1).after refusedSend (by decide)) m :=
  ⟨_, subscription_accounting ((memoryEventBus 1).run_after refusedSend (by decide))
    (Option.some_get (by decide)).symm (by decide)⟩

/-- Reports and counter alone do not add up to the drops: the drop of a
publisher that stands between its refused send and its addition is in neither. -/
theorem lag_counter_behind : ¬∀ (queueCapacity : Nat) (tr : List Label) (b : State) (s : SubscriptionId)
    (m : MemorySubscription), (memoryEventBus queueCapacity).Run (State.new queueCapacity) tr b →
    b.subscriptions.lookup s = some m → m.IsOpen → (dropped s tr).length < u64Max →
    reported s tr + m.lagged = (dropped s tr).length := by
  intro h
  have hsum := h 1 refusedSend _ default _ ((memoryEventBus 1).run_after refusedSend (by decide))
    (Option.some_get (by decide)).symm (by decide) (by decide)
  revert hsum
  decide

/-! ## Gaps -/

/-- A lag error has reported the drop: it was in the counter, among as many as
the error says. -/
def ReportedDrop (s : SubscriptionId) (tr : List Label) (d : Nat) : Prop :=
  ∃ pre missed post, tr = pre ++ .owner s (.nextEvent (.lagged missed)) :: post ∧
    d ∈ (history s pre).counted.take missed

/-- Lag errors have reported all the drops that the result of a receive comes after. -/
def Announced (s : SubscriptionId) (tr : List Label) : Option Event → Prop
  | some event => ∃ n, (history s tr).waiting.head? = some (n, event) ∧
      ∀ d ∈ (history s tr).dropped.map Prod.fst, d < n → ReportedDrop s tr d
  | none => ∀ d ∈ (history s tr).dropped.map Prod.fst, ReportedDrop s tr d

/-- At the last look at the counter no publisher had yet to add a drop that the
result of the receive comes after, and no such drop found the counter at its limit. -/
def Settled (L : Ledger TaskId Event) : Option Event → Prop
  | some event => ∀ n, L.waiting.head? = some (n, event) → ∀ d ∈ L.unsettled ++ L.lost, n < d
  | none => L.unsettled = [] ∧ L.lost = []

/-- Only a lag error is a check that tells of drops. -/
theorem observe_check {l : Label} {missed : Nat} (hl : observe s l = some (.check missed)) :
    l = .owner s (.nextEvent (.lagged missed)) ∨ missed = 0 := by
  cases l with
  | send p s' event result => cases result <;> simp [observe] at hl
  | countMissed p s' => simp [observe] at hl
  | owner s' op =>
    obtain ⟨rfl, hop⟩ := Option.ite_none_right_eq_some.mp hl
    rcases op with (_ | _ | _ | _) | (_ | _) | _ | _ | _ | _ <;> simp_all [moveOf]
  | _ => cases hl

/-- The drops announced are those that lag errors reported. -/
theorem reportedDrop_iff {d : Nat} : ReportedDrop s tr d ↔ d ∈ (history s tr).announced := by
  rw [history, mem_announced_iff]
  constructor
  · intro h
    obtain ⟨pre, missed, post, rfl, hd⟩ := h
    refine ⟨pre.filterMap (observe s), missed, post.filterMap (observe s), ?_, hd⟩
    simp [List.filterMap_append, observe, moveOf]
  · intro h
    obtain ⟨pre, missed, post, hmoves, hd⟩ := h
    obtain ⟨tr₁, tr₂, rfl, rfl, hrest⟩ := List.filterMap_eq_append_iff.mp hmoves
    obtain ⟨between, l, post, rfl, hnone, hl, rfl⟩ := List.filterMap_eq_cons_iff.mp hrest
    rcases observe_check hl with rfl | rfl
    · refine ⟨tr₁ ++ between, missed, post, by simp, ?_⟩
      rwa [history, List.filterMap_append, List.filterMap_eq_nil_iff.mpr hnone, List.append_nil]
    · simp at hd

/-- A lag error says how many drops the counter held. -/
theorem counted_of_lagged (h : (memoryEventBus queueCapacity).Run (State.new queueCapacity) tr b) {missed : Nat}
    (htr : tr = pre ++ .owner s (.nextEvent (.lagged missed)) :: post) :
    (history s pre).counted.length = missed := by
  subst htr
  obtain ⟨b₀, b₁, hpre, hstep, _⟩ := run_split.mp h
  obtain ⟨_, haccounts⟩ := accounts_run (s := s) hpre
  generalize hop : Op.nextEvent (.lagged missed) = op at hstep
  cases step_effect hstep with
  | owner s op m m' owned stepped =>
    subst hop
    cases MemorySubscription.step_effect stepped with
    | lagging => exact (haccounts.counter owned).symm
  | detach => cases hop

/-- **Gaps.** In every run a receive returns with every drop before its result
reported by a lag error exactly when, at the last look at the counter, none of
these was still to be added, and none had found the counter at its limit. Each
of these errors reported as many drops as it says. -/
theorem gap_announced_iff (h : (memoryEventBus queueCapacity).Run (State.new queueCapacity) tr b)
    {result : Option Event} (htr : tr = pre ++ .owner s (.received result) :: post) :
    (Announced s pre result ↔ Settled (history s pre) result) ∧
      ∀ before missed after, pre = before ++ .owner s (.nextEvent (.lagged missed)) :: after →
        (history s before).counted.length = missed := by
  subst htr
  obtain ⟨b₀, b₁, hpre, hstep, _⟩ := run_split.mp h
  refine ⟨?_, fun _ _ _ => counted_of_lagged hpre⟩
  obtain ⟨_, haccounts⟩ := accounts_run (s := s) hpre
  obtain ⟨m, m', hm, hs⟩ : ∃ m m', b₀.subscriptions.lookup s = some m ∧ m.step (.received result) = some m' := by
    cases step_effect hstep with
    | owner s op m m' owned stepped => exact ⟨m, m', owned, stepped⟩
  have hqueue := haccounts.queue hm
  cases MemorySubscription.step_effect hs with
  | received event queue receiving head =>
    have hfresh := haccounts.fresh hm (.inr receiving)
    rw [head] at hqueue
    obtain ⟨⟨n, event'⟩, rest, hwaiting, hevent, _⟩ := List.map_eq_cons_iff.mp hqueue
    obtain rfl : event' = event := hevent
    have hhead : ∀ n', (history s pre).waiting.head? = some (n', event') ↔ n' = n := by
      simp [hwaiting, eq_comm]
    have hiff := haccounts.sound.announced_before_iff hfresh ((hhead n).mpr rfl)
    simp only [Announced, Settled, hhead, exists_eq_left, forall_eq, reportedDrop_iff]
    exact hiff
  | ended receiving empty =>
    have hfresh := haccounts.fresh hm (.inr receiving)
    rw [empty, List.map_eq_nil_iff] at hqueue
    simp only [Announced, Settled, reportedDrop_iff]
    exact haccounts.sound.drained_iff hfresh hqueue

/-- A receive overtakes an addition: the second event was refused before the
third was sent, and is not counted when the third is returned. -/
def overtaken : List Label :=
  [.subscribe default .all, .publish 1 first, .send 1 default first .sent, .endScan 1,
    .owner default (.nextEvent (.receive true)), .publish 1 second, .send 1 default second .full,
    .owner default (.received (some first)), .publish 2 third, .send 2 default third .sent,
    .owner default (.nextEvent (.receive true))]

theorem gap_announced_iff_overtaken :
    Announced default overtaken (some third) ↔ Settled (history default overtaken) (some third) :=
  (gap_announced_iff
    ((memoryEventBus 1).run_after (overtaken ++ [.owner default (.received (some third))]) (by decide)) rfl).1

theorem gap_unannounced : ¬∀ (queueCapacity : Nat) (tr pre post : List Label) (b : State) (s : SubscriptionId)
    (result : Option Event), (memoryEventBus queueCapacity).Run (State.new queueCapacity) tr b →
    tr = pre ++ .owner s (.received result) :: post → Announced s pre result := by
  intro h
  obtain ⟨n, hn, hall⟩ := h 1 _ overtaken [] _ default (some third)
    ((memoryEventBus 1).run_after (overtaken ++ [.owner default (.received (some third))]) (by decide)) rfl
  -- the third event is the one at position 2; the second one, dropped, is at 1
  have hn' : (history default overtaken).waiting.head? = some (2, third) := by decide
  obtain ⟨rfl, _⟩ := Prod.mk.inj (Option.some.inj (hn.symm.trans hn'))
  have hd := reportedDrop_iff.mp (hall 1 (by decide) (by decide))
  revert hd
  decide

end OrbitRelay.MemoryEventBus
