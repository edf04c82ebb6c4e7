import OrbitRelay.Server.Fresh

/-
  Live order and append order.

  A call appends its whole batch before it publishes any of it, so two calls
  that run side by side can append in one order and publish in the other: the
  store and the bus have a lock each, and nothing ties the two. This is the only
  way to invert the order. `live_order_unless_overlap` follows the later record
  of the two back to the step that appended it: at that moment the earlier
  record is there, so its call has begun, and its event is still to be sent, so
  its call has not returned.
-/

namespace OrbitRelay.PipelineAdapter

open MemoryEventBus (accepted offers returned tries)

variable {storeId : EntityId} {queueCapacity : Nat} {σ σ' : State} {l : Label} {tr : List Label}
  {d d' : TaskId} {s : SubscriptionId} {call : Dispatch} {event : Event} {m : MemorySubscription}

/-! ## Each event once -/

/-- The event a step puts into the queue of `s`. -/
def queuedBy (s : SubscriptionId) : Label → Option Event
  | .bus (.send _ s' event .sent) => if s' = s then some event else none
  | _ => none

theorem queuedBy_eq_some : queuedBy s l = some event ↔ ∃ d, l = .bus (.send d s event .sent) := by
  constructor
  · intro h
    unfold queuedBy at h
    split at h
    · next d s' event' =>
      obtain ⟨rfl, hevent⟩ := Option.ite_none_right_eq_some.mp h
      obtain rfl := Option.some.inj hevent
      exact ⟨d, rfl⟩
    · simp at h
  · intro hown
    obtain ⟨d, rfl⟩ := hown
    simp [queuedBy]

theorem accepted_busTrace (tr : List Label) : accepted s (busTrace tr) = tr.filterMap (queuedBy s) := by
  rw [accepted, MemoryEventBus.tries_filter, busTrace, List.filterMap_filterMap]
  apply List.filterMap_congr
  intro l _
  cases l with
  | bus k =>
    cases k with
    | send p s' event result => cases result <;> simp [busLabel, queuedBy]
    | _ => rfl
  | _ => rfl

/-- With fresh ids, no event is accepted twice. -/
theorem accepted_nodup (h : (pipeline storeId queueCapacity).Run (State.new storeId queueCapacity) tr σ)
    (hfresh : FreshIds tr) : (accepted s (busTrace tr)).Nodup := by
  refine Lts.Run.induct (P := fun tr _ => FreshIds tr → (accepted s (busTrace tr)).Nodup)
    (fun _ => by simp [accepted_busTrace]) ?_ h hfresh
  intro tr τ l υ hrun ih hstep hfresh
  by_cases hl : ∃ d event, l = .bus (.send d s event .sent)
  · -- the queue took the event, so the subscription is open
    obtain ⟨d, event, rfl⟩ := hl
    have hrun' := hrun.snoc hstep
    obtain ⟨m, hm, hopen⟩ : ∃ m, υ.bus.subscriptions.lookup s = some m ∧ m.IsOpen := by
      have hsend : τ.step (.bus (.send d s event .sent)) = some υ := hstep
      cases step_effect hsend with
      | bus k bus foreign stepped =>
        obtain ⟨m, channel, _, _, htried, hm⟩ := (Invariant.run hrun).bus.send_step stepped
        refine ⟨_, hm, ?_⟩
        rw [MemorySubscription.IsOpen, (Channel.trySend_eq htried).2.2]
        exact (Channel.trySend_eq htried).1
    apply List.nodup_iff_count_le_one.mpr
    intro e
    exact ((List.filter_sublist.map Prod.fst).count_le e).trans (count_tries_le hrun' hfresh hm hopen e)
  · have hnone : queuedBy s l = none :=
      Option.eq_none_iff_forall_ne_some.mpr fun event he =>
        hl ((queuedBy_eq_some.mp he).imp fun d hd => ⟨event, hd⟩)
    have hsame : accepted s (busTrace (tr ++ [l])) = accepted s (busTrace tr) := by
      rw [accepted_busTrace, accepted_busTrace, List.filterMap_append, List.filterMap_cons, hnone]
      exact List.append_nil _
    rw [hsame]
    exact ih (hfresh.mono (List.prefix_append tr [l]))

/-! ## Two events -/

/-- Call `d` has begun and has not returned. -/
def InProgress (σ : State) (d : TaskId) : Prop :=
  ∃ call, σ.dispatches.lookup d = some call ∧ ∀ result, call.stage ≠ .returned result

/-- At some moment of the run both calls are in progress. -/
def Overlap (storeId : EntityId) (queueCapacity : Nat) (tr : List Label) (d d' : TaskId) : Prop :=
  ∃ pre σ, pre <+: tr ∧ (pipeline storeId queueCapacity).Run (State.new storeId queueCapacity) pre σ ∧
    InProgress σ d ∧ InProgress σ d'

/-- The step that appended a record. -/
theorem append_of_record (h : (pipeline storeId queueCapacity).Run (State.new storeId queueCapacity) tr σ)
    {i : Nat} {r : StoredEvent} (hr : σ.store.records[i]? = some r) :
    ∃ pre d rest σ₀ call, pre <+: tr ∧
      (pipeline storeId queueCapacity).Run (State.new storeId queueCapacity) pre σ₀ ∧
      σ₀.dispatches.lookup d = some call ∧ call.stage = .appending (r.event :: rest) ∧
      σ₀.store.records.length = i := by
  refine Lts.Run.induct (P := fun tr σ => σ.store.records[i]? = some r → ∃ pre d rest σ₀ call, pre <+: tr ∧
    (pipeline storeId queueCapacity).Run (State.new storeId queueCapacity) pre σ₀ ∧
    σ₀.dispatches.lookup d = some call ∧ call.stage = .appending (r.event :: rest) ∧
    σ₀.store.records.length = i) ?_ ?_ h hr
  · simp [State.new, MemoryEventStore.State.new]
  · intro tr τ l υ hrun ih hstep hr
    have hold : τ.store.records[i]? = some r → ∃ pre d rest σ₀ call, pre <+: tr ++ [l] ∧
        (pipeline storeId queueCapacity).Run (State.new storeId queueCapacity) pre σ₀ ∧
        σ₀.dispatches.lookup d = some call ∧ call.stage = .appending (r.event :: rest) ∧
        σ₀.store.records.length = i := by
      intro hr₀
      obtain ⟨pre, d, rest, σ₀, call, hpre, hfound⟩ := ih hr₀
      exact ⟨pre, d, rest, σ₀, call, hpre.trans (List.prefix_append tr [l]), hfound⟩
    -- only a successful append of a new id adds a record
    cases step_effect hstep with
    | appended d event rest call r' running stage answer =>
      rcases MemoryEventStore.State.append_ok_cases answer with hsame | hrec
      · exact hold (by rw [← hsame]; exact hr)
      · have hr' : (τ.store.records ++ [r'])[i]? = some r := hrec ▸ hr
        rcases Nat.lt_or_ge i τ.store.records.length with hlt | hge
        · exact hold (by rwa [List.getElem?_append_left hlt] at hr')
        · -- the new record is the last one
          rw [List.getElem?_append_right hge, List.getElem?_singleton] at hr'
          obtain ⟨hzero, hsome⟩ := Option.ite_none_right_eq_some.mp hr'
          obtain rfl := Option.some.inj hsome
          refine ⟨tr, d, rest, τ, call, List.prefix_append tr _, hrun, running, ?_, by omega⟩
          rw [stage, (MemoryEventStore.State.get_of_append_ok answer).2]
    | refused d event rest call error running stage answer =>
      exact hold (by rw [← MemoryEventStore.State.append_of_error answer]; exact hr)
    | _ => exact hold hr

/-- Two values read off a list one after the other come from two places in it. -/
theorem split_of_pair_sublist {α β : Type} {f : α → Option β} {x y : β} :
    ∀ {l : List α}, [x, y].Sublist (l.filterMap f) →
      ∃ l₁ a l₂ b l₃, l = l₁ ++ a :: (l₂ ++ b :: l₃) ∧ f a = some x ∧ f b = some y
  | [], h => by simp at h
  | a :: l, h => by
    have htail : [x, y].Sublist (l.filterMap f) →
        ∃ l₁ a' l₂ b l₃, a :: l = l₁ ++ a' :: (l₂ ++ b :: l₃) ∧ f a' = some x ∧ f b = some y := by
      intro h'
      obtain ⟨l₁, a', l₂, b, l₃, rfl, hfound⟩ := split_of_pair_sublist h'
      exact ⟨a :: l₁, a', l₂, b, l₃, rfl, hfound⟩
    rw [List.filterMap_cons] at h
    cases ha : f a with
    | none =>
      rw [ha] at h
      exact htail h
    | some z =>
      rw [ha] at h
      rcases List.cons_sublist_cons'.mp h with h' | ⟨rfl, h'⟩
      · exact htail h'
      · obtain ⟨b, hb, hy⟩ := List.mem_filterMap.mp (List.singleton_sublist.mp h')
        obtain ⟨l₂, l₃, rfl⟩ := List.append_of_mem hb
        exact ⟨[], a, l₂, b, l₃, rfl, ha, hy⟩

/-- Without repetition, two elements are in one order only. -/
theorem not_both_orders {α : Type} {x y : α} : ∀ {l : List α}, l.Nodup → [x, y].Sublist l → ¬[y, x].Sublist l
  | [], _, h, _ => by simp at h
  | z :: l, hnodup, h, h' => by
    obtain ⟨hz, hnodup⟩ := List.nodup_cons.mp hnodup
    rcases List.cons_sublist_cons'.mp h with hxy | ⟨rfl, hy⟩
    · rcases List.cons_sublist_cons'.mp h' with hyx | ⟨rfl, _⟩
      · exact not_both_orders hnodup hxy hyx
      · exact hz (hxy.subset (by simp))
    · rcases List.cons_sublist_cons'.mp h' with hyx | ⟨rfl, _⟩
      · exact hz (hyx.subset (by simp))
      · exact hz (List.singleton_sublist.mp hy)

/-- A call that is sending has not returned, at this moment or before. -/
theorem inProgress_of_send {pre rest : List Label} {σ₀ : State} {result : TrySend}
    (h : (pipeline storeId queueCapacity).Run (State.new storeId queueCapacity) (pre ++ rest) σ)
    (hpre : (pipeline storeId queueCapacity).Run (State.new storeId queueCapacity) pre σ₀)
    (hsend : .bus (.send d s event result) ∈ rest) (hcall : σ₀.dispatches.lookup d = some call) :
    InProgress σ₀ d := by
  refine ⟨call, hcall, fun outcome hreturned => ?_⟩
  obtain ⟨σ', hpre', hrest⟩ := Lts.run_append.mp h
  obtain rfl := hpre.det hpre'
  obtain ⟨mid, post, rfl⟩ := List.append_of_mem hsend
  obtain ⟨τ, υ, hmid, hstep, _⟩ := run_split.mp hrest
  have hlater := returned_run hmid hcall hreturned
  cases step_effect hstep with
  | bus k bus foreign stepped =>
    cases MemoryEventBus.step_effect stepped with
    | send p s' result pub entry m channel running =>
      have hinv := Invariant.run (hpre.append hmid)
      exact hinv.not_publishing hlater (by simp [hreturned]) running rfl

/-- Two sends of one call are in the order of its batch. -/
theorem batch_order_of_sends {pre mid post : List Label} {a b : Event} {ra rb : TrySend}
    (h : (pipeline storeId queueCapacity).Run (State.new storeId queueCapacity)
      (pre ++ .bus (.send d s a ra) :: (mid ++ .bus (.send d s b rb) :: post)) σ)
    (hcall : σ.dispatches.lookup d = some call) (hne : a ≠ b) : [a, b].Sublist call.events := by
  obtain ⟨σ₀, σ₁, hpre, hsenda, hrest⟩ := run_split.mp h
  obtain ⟨σ₂, σ₃, hmid, hsendb, _⟩ := run_split.mp hrest
  have hsofar := run_split.mpr ⟨σ₀, σ₁, hpre, hsenda, hmid⟩
  have ha := List.mem_of_mem_getLast? ((Invariant.run hpre).begun_last hsenda)
  have hlast := (Invariant.run hsofar).begun_last hsendb
  have hskip : begun d (pre ++ .bus (.send d s a ra) :: mid) = begun d pre ++ begun d mid := begun_append _ _
  rw [hskip] at hlast
  have hb : b ∈ begun d mid := by
    -- between the two sends the call has begun another publish
    cases hmid' : begun d mid with
    | nil =>
      rw [hmid', List.append_nil, (Invariant.run hpre).begun_last hsenda] at hlast
      exact absurd (Option.some.inj hlast) hne
    | cons e es =>
      rw [hmid', List.getLast?_append_of_ne_nil _ (List.cons_ne_nil e es)] at hlast
      exact List.mem_of_mem_getLast? hlast
  have hpair : [a, b].Sublist (begun d pre ++ begun d mid) :=
    (List.singleton_sublist.mpr ha).append (List.singleton_sublist.mpr hb)
  refine hpair.trans (List.Sublist.trans ?_ ((Invariant.run h).begun_of_batch hcall).sublist)
  have hwhole : begun d (pre ++ .bus (.send d s a ra) :: (mid ++ .bus (.send d s b rb) :: post)) =
      begun d pre ++ (begun d mid ++ begun d post) := by
    rw [begun_append]
    exact congrArg _ (begun_append mid (.bus (.send d s b rb) :: post))
  rw [hwhole, ← List.append_assoc]
  exact List.sublist_append_left _ _

/-- An event live before another that is stored before it: the two belong to
calls that overlap. -/
theorem overlap_of_inversion
    (h : (pipeline storeId queueCapacity).Run (State.new storeId queueCapacity) tr σ) (hfresh : FreshIds tr)
    {a b : Event} (hlive : [a, b].Sublist (accepted s (busTrace tr))) {i j : Nat} {ra rb : StoredEvent}
    (ha : σ.store.records[i]? = some ra) (hb : σ.store.records[j]? = some rb) (hae : ra.event = a)
    (hbe : rb.event = b) (hlt : j < i) :
    ∃ d d' call call', d ≠ d' ∧ σ.dispatches.lookup d = some call ∧ a ∈ call.events ∧
      σ.dispatches.lookup d' = some call' ∧ b ∈ call'.events ∧ Overlap storeId queueCapacity tr d d' := by
  rw [accepted_busTrace] at hlive
  obtain ⟨l₁, x, l₂, y, l₃, htr, hx, hy⟩ := split_of_pair_sublist hlive
  obtain ⟨d, rfl⟩ := queuedBy_eq_some.mp hx
  obtain ⟨d', rfl⟩ := queuedBy_eq_some.mp hy
  have hsenda : .bus (.send d s a .sent) ∈ tr := by simp [htr]
  have hsendb : .bus (.send d' s b .sent) ∈ tr := by simp [htr]
  obtain ⟨call, hcall, ha'⟩ := call_of_send h hsenda
  obtain ⟨call', hcall', hb'⟩ := call_of_send h hsendb
  have hdispatch := dispatch_of_call h hcall
  -- the moment before the append of `a`
  obtain ⟨pre, d₀, rest, σ₀, call₀, hpre, hrun₀, hcall₀, hstage, hlen⟩ := append_of_record h ha
  have hinv₀ := Invariant.run hrun₀
  have hprogress := hinv₀.call hcall₀
  rw [hstage, hae] at hprogress
  have ha₀ : a ∈ call₀.events := by
    rw [hprogress.1]
    simp
  obtain ⟨rfl, hevents, _⟩ := hfresh.unique (hpre.subset (dispatch_of_call hrun₀ hcall₀)) hdispatch ha₀ ha' rfl
  -- it is before the send of `a`, and so before that of `b`
  have hsplit : ∃ mid, tr = pre ++ mid ∧ .bus (.send d' s b .sent) ∈ mid := by
    have hl₁ : l₁ ++ [.bus (.send d₀ s a .sent)] <+: tr := ⟨l₂ ++ .bus (.send d' s b .sent) :: l₃, by simp [htr]⟩
    rcases List.prefix_or_prefix_of_prefix hpre hl₁ with hp | hp
    · obtain ⟨t, ht⟩ := hp
      refine ⟨t ++ (l₂ ++ .bus (.send d' s b .sent) :: l₃), ?_, by simp⟩
      rw [← List.append_assoc, ht, htr]
      simp
    · have hin := begun_of_send hrun₀ (hp.subset (List.mem_append_right _ (List.mem_singleton_self _)))
      simp [hprogress.2] at hin
  obtain ⟨mid, rfl, hmid⟩ := hsplit
  obtain ⟨σ₁, hrun₁, hrest⟩ := Lts.run_append.mp h
  obtain rfl := hrun₀.det hrun₁
  -- `b` is stored by then, so its call has begun
  have hb₀ : σ₀.store.records[j]? = some rb := by
    obtain ⟨t, ht⟩ := (MemoryEventStore.run_extends (store_run hrest)).2
    rwa [← ht, List.getElem?_append_left (by omega)] at hb
  obtain ⟨d₁, hd₁⟩ := hinv₀.origin (List.mem_of_getElem? hb₀)
  rw [hbe] at hd₁
  obtain ⟨call₁, hcall₁, hb₁⟩ := hinv₀.mem_of_appended hd₁
  obtain ⟨rfl, _, _⟩ := hfresh.unique (hpre.subset (dispatch_of_call hrun₀ hcall₁)) (dispatch_of_call h hcall')
    hb₁ hb' rfl
  refine ⟨d₀, d₁, call, call', ?_, hcall, ha', hcall', hb', pre, σ₀, hpre, hrun₀,
    ⟨call₀, hcall₀, by simp [hstage]⟩, inProgress_of_send h hrun₀ hmid hcall₁⟩
  -- in one batch `b` would be before `a` for the store and after it for the bus
  intro heq
  subst heq
  have hne : a ≠ b := by
    intro heq
    subst heq
    have hij : i = j := MemoryEventStore.State.index_unique ha hb (by rw [hae, hbe])
    omega
  have hnodup : call.events.Nodup := List.Nodup.of_map _ ((List.nodup_flatMap.mp hfresh).1 _ hdispatch)
  have hba : [b, a].Sublist call.events := by
    rw [← hevents, hprogress.1]
    exact (List.singleton_sublist.mpr hd₁).append (List.singleton_sublist.mpr (List.mem_cons_self))
  rw [htr] at h
  exact not_both_orders hnodup (batch_order_of_sends h hcall hne) hba

/-- **Live order and append order.** With fresh ids, what a subscriber has
received and what is queued for it are stored events, each once; and where one
of them comes before another that has the smaller cursor, the two belong to
different calls that were in progress at one moment. -/
theorem live_order_unless_overlap
    (h : (pipeline storeId queueCapacity).Run (State.new storeId queueCapacity) tr σ) (hfresh : FreshIds tr)
    (hm : σ.bus.subscriptions.lookup s = some m) :
    let live := returned s (busTrace tr) ++ m.channel.queue
    live.Nodup ∧ (∀ a ∈ live, ∃ r ∈ σ.store.records, r.event = a) ∧
    ∀ (a b : Event) (i j : Nat) (ra rb : StoredEvent), [a, b].Sublist live → σ.store.records[i]? = some ra →
      σ.store.records[j]? = some rb → ra.event = a → rb.event = b → j < i →
      ∃ d d' call call', d ≠ d' ∧ σ.dispatches.lookup d = some call ∧ a ∈ call.events ∧
        σ.dispatches.lookup d' = some call' ∧ b ∈ call'.events ∧ Overlap storeId queueCapacity tr d d' := by
  intro live
  have hlive : live = accepted s (busTrace tr) := MemoryEventBus.returned_append_queue (bus_run h) hm
  rw [hlive]
  refine ⟨accepted_nodup h hfresh, ?_, ?_⟩
  · intro a ha
    obtain ⟨d, hsend⟩ := MemoryEventBus.mem_accepted.mp ha
    obtain ⟨_, _, he, happended⟩ := (Invariant.run h).batch_of_begun (begun_of_send h ((mem_busTrace rfl).mp hsend))
    obtain ⟨r, hr, hevent⟩ := (Invariant.run h).stored (happended ▸ he)
    exact ⟨r, (MemoryEventStore.State.get_eq_some_iff.mp hr).1, hevent⟩
  · intro a b i j ra rb hab ha hb hae hbe hlt
    exact overlap_of_inversion h hfresh hab ha hb hae hbe hlt

/-- The events of two calls. -/
def early : Event := Event.plain ⟨"1", by decide⟩ ⟨"canvas.drawn"⟩
def late : Event := Event.plain ⟨"2", by decide⟩ ⟨"canvas.drawn"⟩

/-- The call that appends first publishes last. -/
def crossing : List Label :=
  [.bus (.subscribe default .all), .dispatch 1 [early], .dispatch 2 [late],
    .append 1 early (.ok ⟨.forMemory default 1, early⟩), .append 2 late (.ok ⟨.forMemory default 2, late⟩),
    .persisted 2, .publish 2 late, .bus (.send 2 default late .sent), .bus (.endScan 2), .published 2, .returned 2,
    .persisted 1, .publish 1 early, .bus (.send 1 default early .sent), .bus (.endScan 1), .published 1, .returned 1,
    .bus (.owner default (.nextEvent (.receive true))), .bus (.owner default (.received (some late))),
    .bus (.owner default (.nextEvent (.receive true))), .bus (.owner default (.received (some early)))]

theorem live_order_unless_overlap_crossing : ∃ d d', d ≠ d' ∧ Overlap default 2 crossing d d' := by
  obtain ⟨d, d', _, _, hne, _, _, _, _, hoverlap⟩ :=
    (live_order_unless_overlap (s := default) ((pipeline default 2).run_after crossing (by decide)) (by decide)
      (Option.some_get (by decide)).symm).2.2 late early 1 0 ⟨.forMemory default 2, late⟩ ⟨.forMemory default 1, early⟩
      (by decide) (by decide) (by decide) rfl rfl (by decide)
  exact ⟨d, d', hne, hoverlap⟩

/-- A subscriber can receive an event before another that has the smaller cursor. -/
theorem live_order_inverted : ¬∀ (storeId : EntityId) (queueCapacity : Nat) (tr : List Label) (σ : State)
    (s : SubscriptionId) (a b : Event) (i j : Nat) (ra rb : StoredEvent),
    (pipeline storeId queueCapacity).Run (State.new storeId queueCapacity) tr σ → FreshIds tr →
    [a, b].Sublist (returned s (busTrace tr)) → σ.store.records[i]? = some ra → σ.store.records[j]? = some rb →
    ra.event = a → rb.event = b → i < j := by
  intro h
  have hlt := h default 2 crossing _ default late early 1 0 ⟨.forMemory default 2, late⟩ ⟨.forMemory default 1, early⟩
    ((pipeline default 2).run_after crossing (by decide)) (by decide) (by decide) (by decide) (by decide) rfl rfl
  exact absurd hlt (by decide)

end OrbitRelay.PipelineAdapter
